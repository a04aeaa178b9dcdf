import Studio.Script.Value
import Studio.Session.Snapshot

/-!
# Entities of a session

Scripts see the tracks, clips and effects of a session as entities: a kind, an index, the track it
belongs to, and properties by name. The properties of the library's own count before those of the
host.
-/

namespace Studio.Session

open Studio.Script (Value)

/-- The kinds of entities. -/
inductive EntityKind where
  | track
  | clip
  | effect
deriving DecidableEq, Repr

/-- The word for one entity of a kind. -/
def EntityKind.name : EntityKind → String
  | .track => "track"
  | .clip => "clip"
  | .effect => "fx"

/-- An entity: `track` is the index of the track it belongs to, which a track is itself. -/
structure Entity where
  kind : EntityKind
  index : Nat
  track : Nat
  fields : List (String × Value)

instance : Inhabited Entity := ⟨⟨.track, 0, 0, []⟩⟩

/-- A property of an entity. -/
def Entity.field? (entity : Entity) (name : String) : Option Value :=
  Fields.get? name entity.fields

/-- The properties that only the host knows. -/
def hostFields (extra : List (String × Json)) : Fields Value :=
  Fields.mapValues Value.ofJson extra

/-- The entity of a track with its effective index. -/
def Track.entity (index : Nat) (track : Track) : Entity :=
  { kind := .track
    index
    track := index
    fields := hostFields track.extra
      |>.insert "index" (.ofIndex index)
      |>.insert "name" (.string track.name)
      |>.insert "muted" (.bool track.muted)
      |>.insert "soloed" (.bool track.soloed)
      |>.insert "selected" (.bool track.selected)
      |>.insertSome "volume_db" (track.volume.map Value.number)
      |>.insertSome "pan" (track.pan.map Value.number)
      |>.insert "fx" (.array (track.effects.map fun effect => .string effect.name))
      |>.insert "clip_count" (.ofIndex track.clips.length) }

/-- The entity of a clip at its place on a track. -/
def Clip.entity (track place : Nat) (clip : Clip) : Entity :=
  let index := clip.index.getD place
  { kind := .clip
    index
    track
    fields := hostFields clip.extra
      |>.insert "index" (.ofIndex index)
      |>.insert "track" (.ofIndex track)
      |>.insert "position" (.number clip.position)
      |>.insert "length" (.number clip.length)
      |>.insert "selected" (.bool clip.selected) }

/-- The entity of an effect at its place in the chain of a track. -/
def Effect.entity (track place : Nat) (effect : Effect) : Entity :=
  { kind := .effect
    index := place
    track
    fields := Fields.ofList [("index", .ofIndex place), ("track", .ofIndex track),
      ("name", .string effect.name), ("enabled", .bool effect.enabled)] }

namespace Snapshot

/-- The tracks as entities. -/
def trackEntities (snapshot : Snapshot) : List Entity :=
  snapshot.indexedTracks.map fun (index, track) => track.entity index

/-- The clips of all tracks as entities. -/
def clipEntities (snapshot : Snapshot) : List Entity :=
  snapshot.indexedTracks.flatMap fun (index, track) =>
    track.clips.mapIdx fun place clip => clip.entity index place

/-- The effects of a track as entities. -/
def effectEntities (snapshot : Snapshot) (index : Nat) : List Entity :=
  match snapshot.track? index with
  | some track => track.effects.mapIdx fun place effect => effect.entity index place
  | none => []

end Snapshot

end Studio.Session
