import Studio.Json.Basic

/-!
# Actions

An action is a flat record that describes one operation for the host of the session: its kind, and
fields by name. The kinds that this library gives a meaning are listed here. Main statement:
`target?_set_track` says that the field of the track decides the target of every action that does
not create one.
-/

namespace Studio

/-- A record of one operation for the host. -/
structure Action where
  kind : String
  fields : List (String × Json) := []
deriving Inhabited

namespace Action

namespace Kind

def createTrack : String := "create_track"
def createClipAtBar : String := "create_clip_at_bar"
def createClip : String := "create_clip"
def addMidi : String := "add_midi"
def addTrackFx : String := "add_track_fx"
def addInstrument : String := "add_instrument"
def setTrackVolume : String := "set_track_volume"
def setTrackPan : String := "set_track_pan"
def setTrackMute : String := "set_track_mute"
def setTrackSolo : String := "set_track_solo"
def setTrackName : String := "set_track_name"
def setTrackSelected : String := "set_track_selected"
def deleteTrack : String := "delete_track"
def deleteClip : String := "delete_clip"
def arpeggio : String := "arpeggio"
def chord : String := "chord"
def progression : String := "progression"
def drumBeat : String := "drum_beat"
def drumPattern : String := "drum_pattern"

end Kind

/-- Set a field. -/
def set (name : String) (value : Json) (action : Action) : Action :=
  { action with fields := Fields.insert name value action.fields }

/-- Set a field if there is a value. -/
def setSome (name : String) (value : Option Json) (action : Action) : Action :=
  { action with fields := Fields.insertSome name value action.fields }

/-- The value of a field. -/
def get? (action : Action) (name : String) : Option Json :=
  Fields.get? name action.fields

/-- The text in a field. -/
def text? (action : Action) (name : String) : Option String :=
  (action.get? name).bind Json.asString?

/-- The number in a field. -/
def number? (action : Action) (name : String) : Option Float :=
  (action.get? name).bind Json.asFloat?

/-- Whether the action creates a track. -/
def isCreation (action : Action) : Bool :=
  action.kind == Kind.createTrack

/-- Whether the action attaches notes to a track. -/
def isAttach (action : Action) : Bool :=
  action.kind == Kind.addMidi

/-- The field that names the track an action is about. -/
def targetField (action : Action) : String :=
  if action.isCreation then "index" else "track"

/-- The track that an action creates or is about. -/
def target? (action : Action) : Option Nat :=
  (action.get? action.targetField).bind Json.asIndex?

/-- The notes an action carries. -/
def notes (action : Action) : List Json :=
  ((action.get? "notes").bind Json.asArray?).getD []

/-- Add notes behind those an action carries. -/
def appendNotes (notes : List Json) (action : Action) : Action :=
  action.set "notes" (.array (action.notes ++ notes))

/-- An action that attaches notes to a track. -/
def attaching (target : Nat) (notes : List Json) : Action :=
  ((⟨Kind.addMidi, []⟩ : Action).set "track" (.nat target)).appendNotes notes

/-- An action as an object, the kind in front of the fields. -/
def toJson (action : Action) : Json :=
  .object (("kind", .string action.kind) :: action.fields)

/-- The action that an object describes, if it names a kind. -/
def ofJson? : Json → Option Action
  | .object members =>
    match Fields.get? "kind" members with
    | some (.string kind) => some ⟨kind, Fields.erase "kind" members⟩
    | _ => none
  | _ => none

/-- A field that is set is found under its name, and the others under theirs. -/
@[simp] theorem get?_set (action : Action) (name other : String) (value : Json) :
    (action.set name value).get? other = if name = other then some value else action.get? other :=
  Fields.get?_insert name other value action.fields

/-- Setting a field leaves the kind of an action. -/
@[simp] theorem kind_set (action : Action) (name : String) (value : Json) :
    (action.set name value).kind = action.kind := rfl

/-- Setting a field makes no action create a track. -/
@[simp] theorem isCreation_set (action : Action) (name : String) (value : Json) :
    (action.set name value).isCreation = action.isCreation := rfl

/-- The field of the track decides the target of an action that creates none. -/
theorem target?_set_track (action : Action) (target : Nat) (h : action.isCreation = false)
    (bound : target < Number.indexBound) :
    (action.set "track" (.nat target)).target? = some target := by
  simp only [target?, targetField, isCreation_set, h, Bool.false_eq_true, if_false, get?_set,
    if_true, Json.nat, Option.bind_some]
  exact if_pos bound

/-- Notes are added behind those that are there. -/
theorem notes_appendNotes (action : Action) (more : List Json) :
    (action.appendNotes more).notes = action.notes ++ more := by
  simp [appendNotes, notes, Json.asArray?]

end Action

end Studio
