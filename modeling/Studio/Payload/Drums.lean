import Studio.Music.Grid
import Studio.Payload.Description

/-!
# Notes of percussive content

Every pattern is laid out under the settings of the beat in front of it. A beat begins behind the
bars of the beat before it, if that had any pattern. The notes are in the order of their starts and
pitches.
-/

namespace Studio.Payload

open Studio.Action
open Studio.Music

/-- A number of a description among the naturals of 32 bits. -/
def word (action : Action) (field : String) (default : Nat) : Nat :=
  match action.number? field with
  | some x => (Number.truncateInto 0 0xFFFFFFFF x).toNat
  | none => default

/-- The settings that a beat gives. -/
def beatSettings (action : Action) : GridSettings :=
  let default : GridSettings := {}
  { subdivision := word action "subdivision" default.subdivision
    swing := (action.number? "swing").getD default.swing
    bars := word action "bars" default.bars }

/-- The hits of a pattern. -/
def patternNotes (settings : GridSettings) (action : Action) : Except Fault (List Note) := do
  let drum ← requiredText action "drum"
  let pitch ← match drumPitch? drum with
    | some pitch => pure pitch
    | none => throw (.unknownDrum drum)
  let grid ← requiredText action "grid"
  let v ← velocity action
  gridNotes grid pitch v settings

/-- The hits of the actions, beats and patterns, where `start` is the beat at which the settings
begin and `used` says whether a pattern was laid out under them. -/
def hitsFrom (settings : GridSettings) (start : Float) (used : Bool) :
    List Action → Except Fault (List Note)
  | [] => .ok []
  | action :: rest =>
    if action.kind = Kind.drumBeat then
      hitsFrom (beatSettings action) (if used then start + settings.beats else start) false rest
    else if action.kind = Kind.drumPattern then
      match patternNotes settings action with
      | .error e => .error e
      | .ok notes =>
        match hitsFrom settings start true rest with
        | .error e => .error e
        | .ok more => .ok (notes.map (Note.delay start) ++ more)
    else hitsFrom settings start used rest

/-- The notes of percussive content. -/
def percussion (actions : List Action) : Except Fault (List Note) :=
  match hitsFrom {} 0 false actions with
  | .error e => .error e
  | .ok notes => .ok (notes.mergeSort Note.precedes)

end Studio.Payload
