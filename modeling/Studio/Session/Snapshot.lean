import Studio.Json.Basic

/-!
# Snapshots of a session

A snapshot lists the tracks of a session with their effects and clips. It is only read. A track or
clip without an index of its own has its place in the list as its effective index.
-/

namespace Studio.Session

open Studio.Number (nextIndex)

/-- An effect in the chain of a track. -/
structure Effect where
  name : String
  enabled : Bool

/-- A clip on a track; times are in beats. -/
structure Clip where
  index : Option Nat := none
  position : Float := 0
  length : Float := 0
  selected : Bool := false
  extra : List (String × Json) := []

/-- A track. Properties that only the host knows are in `extra`. -/
structure Track where
  index : Option Nat := none
  name : String := ""
  muted : Bool := false
  soloed : Bool := false
  selected : Bool := false
  volume : Option Float := none
  pan : Option Float := none
  effects : List Effect := []
  clips : List Clip := []
  extra : List (String × Json) := []

/-- The state of a session: its tracks in the order they are shown. -/
structure Snapshot where
  tracks : List Track := []
deriving Inhabited

namespace Snapshot

/-- The tracks with their effective indices. -/
def indexedTracks (snapshot : Snapshot) : List (Nat × Track) :=
  snapshot.tracks.mapIdx fun place track => (track.index.getD place, track)

/-- The effective indices of the tracks. -/
def indices (snapshot : Snapshot) : List Nat :=
  snapshot.indexedTracks.map Prod.fst

/-- Whether there is any track. -/
def hasTracks (snapshot : Snapshot) : Bool :=
  !snapshot.tracks.isEmpty

/-- Whether there is a track with an index. -/
def containsTrack (snapshot : Snapshot) (index : Nat) : Bool :=
  snapshot.indices.contains index

/-- The first track with an index. -/
def track? (snapshot : Snapshot) (index : Nat) : Option Track :=
  (snapshot.indexedTracks.find? fun (i, _) => i == index).map Prod.snd

/-- The index of the first selected track. -/
def selectedTrack? (snapshot : Snapshot) : Option Nat :=
  (snapshot.indexedTracks.find? fun (_, track) => track.selected).map Prod.fst

/-- The index behind all indices. -/
def nextTrackIndex (snapshot : Snapshot) : Nat :=
  snapshot.indices.foldl (fun next index => max next (nextIndex index)) 0

/-- The index of the last track. -/
def lastTrack? (snapshot : Snapshot) : Option Nat :=
  snapshot.indices.getLast?

end Snapshot

end Studio.Session
