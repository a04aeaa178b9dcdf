import Studio.Music.Chord
import Studio.Music.Layout
import Studio.Script.Render
import Studio.Script.Target

/-!
# Methods of harmonic content

Arpeggios, chords and progressions, alone or several as one choice. Every method makes actions that
describe what is to be played.
-/

namespace Studio.Methods.Chords

open Studio.Action
open Studio.Music (Chord Direction)
open Studio.Script
open Studio.Text (trim)

/-- The names of the methods. -/
def names : List String :=
  ["arpeggio", "chord", "progression", "composition", "add_arpeggio", "add_chord",
    "add_progression", "choice"]

/-- The beats of an arpeggio, of a chord and of each chord of a progression unless they are
given. -/
def defaultLength : Float := 4

/-- The arguments that the methods share. -/
structure Common where
  length : Float
  times : Nat
  velocity : Nat
  octave : Nat

/-- The most repetitions. -/
def timesLimit : Nat := 256

/-- The highest octave. -/
def octaveLimit : Nat := 9

/-- The velocity of a call, 100 unless it is given. -/
def velocity (call : Call) : Except Fault Nat := do
  let v := (← call.count? "velocity").getD 100
  if v = 0 || v > 127 then call.invalid "velocity" (.velocity v) else pure v

/-- Read the arguments that the methods share. -/
def common (call : Call) (length : Float) : Except Fault Common := do
  let length := (← call.number? "length").getD length
  if length ≤ 0 then call.invalid "length" .notPositive
  else
    let times := (← call.count? "repeat").getD 1
    if times = 0 || times > timesLimit then
      call.invalid "repeat" (.notBetween 1 timesLimit)
    else
      let v ← velocity call
      let octave := (← call.count? "octave").getD 4
      if octave > octaveLimit then
        call.invalid "octave" (.above (Float.ofNat octave) octaveLimit)
      else pure ⟨length, times, v, octave⟩

/-- Set the fields for the arguments that the methods share. -/
def Common.setFields (common : Common) (action : Action) : Action :=
  action
    |>.set "length" (.ofNumber common.length)
    |>.set "repeat" (.nat common.times)
    |>.set "velocity" (.nat common.velocity)
    |>.set "octave" (.nat common.octave)

/-- A chord symbol must have pitches in its octave. -/
def checkSymbol (call : Call) (param symbol : String) (octave : Nat) : Except Fault Unit :=
  match Chord.resolve symbol octave with
  | .error e => call.invalid param (.music e)
  | .ok _ => .ok ()

/-- The chord of a symbol and its bass, if it has one. -/
def splitSymbol (symbol : String) : String × Option String :=
  match Text.splitOnce '/' symbol.toList with
  | some (chord, bass) => (trim (String.ofList chord), some (trim (String.ofList bass)))
  | none => (trim symbol, none)

/-- Set the fields for a chord symbol. -/
def setSymbol (symbol : String) (action : Action) : Action :=
  action
    |>.set "chord" (.string (splitSymbol symbol).1)
    |>.setSome "bass" ((splitSymbol symbol).2.map Json.string)

/-- The action of an arpeggio. -/
def arpeggio (call : Call) : Except Fault Action := do
  let common ← common call defaultLength
  let symbol ← call.string (.inSlot "symbol" 0)
  checkSymbol call "symbol" symbol common.octave
  let direction := (← call.string? "direction").getD "up"
  if (Direction.ofName? direction).isNone then call.invalid "direction" (.direction direction)
  else
    let duration ← call.number? "note_duration"
    if duration.any (· ≤ 0) then call.invalid "note_duration" .notPositive
    else
      pure (common.setFields (setSymbol symbol ⟨Kind.arpeggio, []⟩)
        |>.set "direction" (.string direction)
        |>.setSome "note_duration" (duration.map Json.ofNumber))

/-- The action of a chord. -/
def chord (call : Call) : Except Fault Action := do
  let common ← common call defaultLength
  let symbol ← call.string (.inSlot "symbol" 0)
  checkSymbol call "symbol" symbol common.octave
  let inversion := (← call.count? "inversion").getD 0
  if inversion > 3 then call.invalid "inversion" .inversion
  else
    let action := common.setFields (setSymbol symbol ⟨Kind.chord, []⟩)
    pure (action.set "inversion" (.nat inversion))

/-- The symbols of the chords of a progression. -/
def symbols (call : Call) (octave : Nat) : List Value → Except Fault (List String)
  | [] => .ok []
  | item :: rest => do
    match item.asString? with
    | none => throw (.typeMismatch call.name "chords" .string item.kind)
    | some symbol =>
      checkSymbol call "chords" symbol octave
      let more ← symbols call octave rest
      pure (trim symbol :: more)

/-- The action of a progression. -/
def progression (call : Call) : Except Fault Action := do
  let items ← call.array (.inSlot "chords" 0)
  if items.isEmpty then call.invalid "chords" .noChord
  else
    let common ← common call (defaultLength * Float.ofNat items.length)
    let symbols ← symbols call common.octave items
    pure (common.setFields
      ((⟨Kind.progression, []⟩ : Action).set "chords" (.listOf Json.string symbols)))

/-- The actions of a call to a method other than a choice. -/
def describe (call : Call) : Except Fault (List Action) :=
  match call.name with
  | "arpeggio" | "add_arpeggio" => (arpeggio call).map ([·])
  | "chord" | "add_chord" => (chord call).map ([·])
  | "progression" | "add_progression" => (progression call).map ([·])
  | "composition" => .ok []
  | name => .error (.unknownMethod .arranger name)

/-- The actions of the calls in a choice. -/
def chosen (call : Call) : List Value → Except Fault (List Action)
  | [] => .ok []
  | item :: rest => do
    match item.asFunction? with
    | none => throw (.typeMismatch call.name "calls" .function item.kind)
    | some function =>
      let actions ← describe function.call
      let more ← chosen call rest
      pure (actions ++ more)

/-- The actions of several calls. -/
def choice (call : Call) : Except Fault (List Action) := do
  chosen call (← call.array (.inSlot "calls" 1))

/-- Carry out a call. -/
def apply (call : Call) (state : State) : Except Fault State :=
  (if call.name = "choice" then choice call else describe call).map state.emitAll

end Studio.Methods.Chords
