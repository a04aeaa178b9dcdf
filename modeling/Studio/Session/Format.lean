import Studio.Json.Members
import Studio.Json.Writer
import Studio.Json.Reader
import Studio.Session.Snapshot

/-!
# Snapshots as JSON

A snapshot is an object with a list of tracks, bare or as the value of `state` in an enclosing
object. Fields that are left out have default values, and fields of tracks and clips that are not
known are kept. A snapshot and an effect may also be written as the list of their fields. Written
snapshots have the known fields in a fixed order, the others behind them.
-/

namespace Studio.Session

open Json (record? field? fieldOr? optional? list? unknownMembers memberSome)

/-- The fields of an effect in order. -/
def Effect.fieldNames : List String := ["name", "enabled"]

/-- An effect from an object, or from the list of its fields. -/
def Effect.ofJson? (value : Json) : Option Effect := do
  let members ← record? Effect.fieldNames value
  let name ← field? members "name" Json.asString?
  let enabled ← fieldOr? members "enabled" true Json.asBool?
  pure ⟨name, enabled⟩

/-- The known fields of clips. -/
def Clip.fieldNames : List String := ["index", "position", "length", "selected"]

/-- A clip from an object. -/
def Clip.ofJson? : Json → Option Clip
  | .object members => do
    pure {
      index := ← fieldOr? members "index" none (optional? Json.asIndex?)
      position := ← fieldOr? members "position" 0 Json.asFloat?
      length := ← fieldOr? members "length" 0 Json.asFloat?
      selected := ← fieldOr? members "selected" false Json.asBool?
      extra := unknownMembers Clip.fieldNames members }
  | _ => none

/-- The known fields of tracks. -/
def Track.fieldNames : List String :=
  ["index", "name", "muted", "soloed", "selected", "volume_db", "pan", "fx", "clips"]

/-- A track from an object. -/
def Track.ofJson? : Json → Option Track
  | .object members => do
    pure {
      index := ← fieldOr? members "index" none (optional? Json.asIndex?)
      name := ← fieldOr? members "name" "" Json.asString?
      muted := ← fieldOr? members "muted" false Json.asBool?
      soloed := ← fieldOr? members "soloed" false Json.asBool?
      selected := ← fieldOr? members "selected" false Json.asBool?
      volume := ← fieldOr? members "volume_db" none (optional? Json.asFloat?)
      pan := ← fieldOr? members "pan" none (optional? Json.asFloat?)
      effects := ← fieldOr? members "fx" [] (list? Effect.ofJson?)
      clips := ← fieldOr? members "clips" [] (list? Clip.ofJson?)
      extra := unknownMembers Track.fieldNames members }
  | _ => none

namespace Snapshot

/-- The value in which the tracks are: that of `state`, where no tracks are beside it. -/
def unwrap : Json → Json
  | .object members =>
    match Fields.get? "state" members, Fields.get? "tracks" members with
    | some inner, none => inner
    | _, _ => .object members
  | value => value

/-- A snapshot from an object, or from the list of its fields. -/
def ofBare? (value : Json) : Option Snapshot :=
  if value matches .null then some {}
  else do
    let members ← record? ["tracks"] value
    pure ⟨← fieldOr? members "tracks" [] (list? Track.ofJson?)⟩

/-- A snapshot from its JSON value, if that has the form of one. -/
def ofJson? (value : Json) : Option Snapshot :=
  ofBare? (unwrap value)

/-- What is wrong with the text of a snapshot. -/
inductive TextFault where
  | json (fault : Json.Fault)
  | shape
deriving DecidableEq, Repr

/-- A snapshot from its JSON text. -/
def parse (source : String) : Except TextFault Snapshot :=
  match Json.parse source with
  | .error fault => .error (.json fault)
  | .ok value =>
    match ofJson? value with
    | some snapshot => .ok snapshot
    | none => .error .shape

end Snapshot

/-- An effect as an object. -/
def Effect.toJson (effect : Effect) : Json :=
  .object [("name", .string effect.name), ("enabled", .bool effect.enabled)]

/-- A clip as an object. -/
def Clip.toJson (clip : Clip) : Json :=
  .object (memberSome "index" (clip.index.map Json.nat) ++
    [("position", .ofFloat clip.position), ("length", .ofFloat clip.length),
      ("selected", .bool clip.selected)] ++ clip.extra)

/-- A track as an object. -/
def Track.toJson (track : Track) : Json :=
  .object (memberSome "index" (track.index.map Json.nat) ++
    [("name", .string track.name), ("muted", .bool track.muted), ("soloed", .bool track.soloed),
      ("selected", .bool track.selected)] ++
    memberSome "volume_db" (track.volume.map Json.ofFloat) ++
    memberSome "pan" (track.pan.map Json.ofFloat) ++
    [("fx", .listOf Effect.toJson track.effects), ("clips", .listOf Clip.toJson track.clips)] ++
    track.extra)

/-- A snapshot as an object. -/
def Snapshot.toJson (snapshot : Snapshot) : Json :=
  .object [("tracks", .listOf Track.toJson snapshot.tracks)]

end Studio.Session
