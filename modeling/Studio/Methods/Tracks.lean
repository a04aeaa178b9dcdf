import Studio.Script.Render
import Studio.Script.Target

/-!
# Methods on tracks

The methods of the structural scripts: creating and referring to tracks, clips, effects, the
properties of tracks, and collections of what the session holds. A method that applies to something
makes one action for each of its targets.
-/

namespace Studio.Methods.Tracks

open Studio.Action
open Studio.Script
open Studio.Session (Snapshot)

/-- The names of the methods. -/
def names : List String :=
  ["track", "new_clip", "add_midi", "add_fx", "set_volume", "set_pan", "set_mute", "set_solo",
    "set_name", "set_selected", "delete", "delete_clip", "get_tracks", "get_fx_chain"]

/-- An action on a track. -/
def actionOn (kind : String) (target : Target) : Action :=
  (⟨kind, []⟩ : Action).set "track" (.nat target.track)

/-- Make an action for every target of a call. -/
def forTargets (call : Call) (state : State) (make : Target → Action) : Except Fault State :=
  match state.targets call with
  | .error e => .error e
  | .ok (targets, state) => .ok (state.emitAll (targets.map make))

/-- Make an action for every target of a call that applies to tracks only. -/
def forTracks (call : Call) (state : State) (make : Target → Action) : Except Fault State :=
  match state.targets call with
  | .error e => .error e
  | .ok (targets, state) =>
    match (targets.filterMap Target.entity).find? fun entity => entity.kind ≠ .track with
    | some entity => call.invalid "target" (.tracksOnly call.name entity.kind.name)
    | none => .ok (state.emitAll (targets.map make))

/-- Set a property of every target. -/
def setProperty (call : Call) (state : State) (kind field : String) :
    Except Fault Json → Except Fault State
  | .error e => .error e
  | .ok value => forTracks call state fun target => (actionOn kind target).set field value

/-- Refer to a track by its number or its selection, or create one. -/
def track (snapshot : Snapshot) (call : Call) (state : State) : Except Fault State := do
  match ← call.count? (.inSlot "id" 0) with
  | some id => state.refer snapshot call id
  | none =>
    match ← call.bool? "selected" with
    | some true => state.referSelected snapshot call
    | _ =>
      let instrument ← call.string? "instrument"
      let name ← call.string? "name"
      let explicit ← call.count? "index"
      let action := (⟨Kind.createTrack, []⟩ : Action)
        |>.set "index" (.nat (state.newIndex explicit))
        |>.setSome "instrument" (instrument.map Json.string)
        |>.setSome "name" (name.map Json.string)
      pure ((state.create explicit).emit action)

/-- The length of a clip in bars unless one is given. -/
def defaultBars : Nat := 4

/-- The length of a clip in beats unless one is given. -/
def defaultBeats : Float := 4

/-- The first beat of a clip, under one name or the other. -/
def clipStart (call : Call) : Except Fault Float := do
  match ← call.number? "position" with
  | some position => pure position
  | none =>
    match ← call.number? "start" with
    | some start => pure start
    | none => throw (.missingArgument call.name "bar|position")

/-- Create a clip at a bar or at a beat. -/
def newClip (call : Call) (state : State) : Except Fault State := do
  match ← call.count? "bar" with
  | some bar =>
    if bar = 0 then call.invalid "bar" (.countedFromOne "bars")
    else
      let length := (← call.count? "length_bars").getD defaultBars
      forTargets call state fun target =>
        (actionOn Kind.createClipAtBar target)
          |>.set "bar" (.nat bar)
          |>.set "length_bars" (.nat length)
  | none =>
    let position ← clipStart call
    let length := (← call.number? "length").getD defaultBeats
    forTargets call state fun target =>
      (actionOn Kind.createClip target)
        |>.set "position" (.ofNumber position)
        |>.set "length" (.ofNumber length)

/-- Attach notes. -/
def addMidi (call : Call) (state : State) : Except Fault State := do
  let notes := (← call.array? "notes").getD []
  forTargets call state fun target =>
    (actionOn Kind.addMidi target).set "notes" (.array (itemsToJson notes))

/-- The kind of an effect to add, and its name. -/
def effectName (call : Call) : Except Fault (String × String) := do
  match ← call.string? (.inSlot "fxname" 0) with
  | some name => pure (Kind.addTrackFx, name)
  | none =>
    match ← call.string? "instrument" with
    | some instrument => pure (Kind.addInstrument, instrument)
    | none => throw (.missingArgument call.name "fxname|instrument")

/-- Add an effect or an instrument. -/
def addEffect (call : Call) (state : State) : Except Fault State := do
  let (kind, name) ← effectName call
  forTargets call state fun target => (actionOn kind target).set "fxname" (.string name)

/-- The field that says which clip is to be deleted: as the arguments say, else the clip that is the
target itself. -/
def clipField (clip : Option Nat) (position : Option Float) (bar : Option Nat) (target : Target) :
    Option (String × Json) :=
  match clip, position, bar, target.entity with
  | some clip, _, _, _ => some ("clip", .nat clip)
  | none, some position, _, _ => some ("position", .ofNumber position)
  | none, none, some bar, _ => some ("bar", .nat bar)
  | none, none, none, some entity =>
    if entity.kind = .clip then some ("clip", .nat entity.index) else none
  | none, none, none, none => none

/-- Delete clips. -/
def deleteClip (call : Call) (state : State) : Except Fault State := do
  let clip ← call.count? "clip"
  let position ← call.number? "position"
  let bar ← call.count? "bar"
  let (targets, state) ← state.targets call
  match targets.mapM fun target => (clipField clip position bar target).map fun (field, value) =>
      (actionOn Kind.deleteClip target).set field value with
  | some actions => pure (state.emitAll actions)
  | none => throw (.missingArgument call.name "clip|position|bar")

/-- Collect the effects of the track that is bound. -/
def collectEffects (snapshot : Snapshot) (call : Call) (state : State) : Except Fault State := do
  let track ← state.boundTrack call
  pure (state.storeCollection "fx_chain" (snapshot.effectEntities track))

/-- Carry out a call. -/
def apply (snapshot : Snapshot) (call : Call) (state : State) : Except Fault State :=
  match call.name with
  | "track" => track snapshot call state
  | "new_clip" => newClip call state
  | "add_midi" => addMidi call state
  | "add_fx" => addEffect call state
  | "set_volume" =>
    setProperty call state Kind.setTrackVolume "volume_db"
      ((call.number (.inSlot "volume_db" 0)).map Json.ofNumber)
  | "set_pan" =>
    setProperty call state Kind.setTrackPan "pan"
      ((call.number (.inSlot "pan" 0)).map Json.ofNumber)
  | "set_mute" =>
    setProperty call state Kind.setTrackMute "mute" ((call.bool (.inSlot "mute" 0)).map Json.bool)
  | "set_solo" =>
    setProperty call state Kind.setTrackSolo "solo" ((call.bool (.inSlot "solo" 0)).map Json.bool)
  | "set_name" =>
    setProperty call state Kind.setTrackName "name"
      ((call.string (.inSlot "name" 0)).map Json.string)
  | "set_selected" =>
    setProperty call state Kind.setTrackSelected "selected"
      ((call.bool (.inSlot "selected" 0)).map Json.bool)
  | "delete" => forTracks call state (actionOn Kind.deleteTrack)
  | "delete_clip" => deleteClip call state
  | "get_tracks" =>
    .ok ((state.storeCollection "tracks" snapshot.trackEntities).dropFiltered.unbind)
  | "get_fx_chain" => collectEffects snapshot call state
  | name => .error (.unknownMethod .daw name)

end Studio.Methods.Tracks
