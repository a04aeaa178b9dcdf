import Studio.Methods.Chords
import Studio.Music.Grid

/-!
# Methods of percussive content

Patterns of single drums, and beats that group patterns under common settings.
-/

namespace Studio.Methods.Drums

open Studio.Action
open Studio.Music (drums drumPitch? checkGrid)
open Studio.Script

/-- The names of the methods. -/
def names : List String := ["pattern", "beat"]

/-- The most cells of a bar. -/
def subdivisionLimit : Nat := 64

/-- The most bars of a beat. -/
def barsLimit : Nat := 1024

/-- A number between two bounds, both included. -/
def isBetween (least most x : Float) : Bool :=
  least ≤ x && x ≤ most

/-- The action of a pattern. -/
def pattern (call : Call) : Except Fault Action := do
  let drum ← call.string (.inSlot "drum" 0)
  if (drumPitch? drum).isNone then
    call.invalid "drum" (.unknownDrum drum (drums.map Prod.fst))
  else
    let grid ← call.string (.inSlot "grid" 1)
    if (Text.trimList grid.toList).isEmpty then call.invalid "grid" .emptyGrid
    else
      match checkGrid grid with
      | .error e => call.invalid "grid" (.music e)
      | .ok () =>
        let v ← Chords.velocity call
        let humanize := (← call.number? "humanize").getD 0
        if !isBetween 0 1 humanize then call.invalid "humanize" (.notBetween 0 1)
        else
          pure ((⟨Kind.drumPattern, []⟩ : Action)
            |>.set "drum" (.string drum)
            |>.set "grid" (.string grid)
            |>.set "velocity" (.nat v)
            |>.set "humanize" (.ofNumber humanize))

/-- The actions of the patterns of a beat. -/
def patterns (call : Call) : List Value → Except Fault (List Action)
  | [] => .ok []
  | item :: rest => do
    match item.asFunction? with
    | none => throw (.typeMismatch call.name "patterns" .function item.kind)
    | some function =>
      if function.call.name ≠ "pattern" then
        call.invalid "patterns" (.notPattern function.call.name)
      else
        let action ← pattern function.call
        let more ← patterns call rest
        pure (action :: more)

/-- A count between one and a limit. -/
def countUpTo (call : Call) (param : String) (default limit : Nat) : Except Fault Nat := do
  let n := (← call.count? param).getD default
  if n = 0 || n > limit then call.invalid param (.notBetween 1 limit) else pure n

/-- The actions of a beat: its settings, and its patterns. -/
def beat (call : Call) : Except Fault (List Action) := do
  let items ← call.array (.inSlot "patterns" 0)
  if items.isEmpty then call.invalid "patterns" .noPattern
  else
    let bars ← countUpTo call "bars" 1 barsLimit
    let tempo ← call.number? "tempo"
    if tempo.any (· ≤ 0) then call.invalid "tempo" .notPositive
    else
      let swing := (← call.number? "swing").getD 0
      if !isBetween 0 100 swing then call.invalid "swing" (.notBetween 0 100)
      else
        let subdivision ← countUpTo call "subdivision" 16 subdivisionLimit
        let patterns ← patterns call items
        let settings := (⟨Kind.drumBeat, []⟩ : Action)
          |>.set "bars" (.nat bars)
          |>.setSome "tempo" (tempo.map Json.ofNumber)
          |>.set "swing" (.ofNumber swing)
          |>.set "subdivision" (.nat subdivision)
        pure (settings :: patterns)

/-- Carry out a call. -/
def apply (call : Call) (state : State) : Except Fault State :=
  match call.name with
  | "pattern" => (pattern call).map fun action => state.emit action
  | "beat" => (beat call).map state.emitAll
  | name => .error (.unknownMethod .drummer name)

end Studio.Methods.Drums
