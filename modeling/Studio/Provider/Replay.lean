import Studio.Json.Shape
import Studio.Provider.Basic
import Studio.Text.Blank

/-!
# Replaying answers

A replay table holds answers by key: a text, or an object with an output or an error and a delay. A
whole reply comes after the delay; a stream has an event for every line and one for the end, each
after the delay.
-/

namespace Studio.Provider

open Json (Reader Record Field readTextAs readOpt readNat readRecord readChosen readMap readText)

/-- An answer of a table: a text or the report of an error, and a delay. -/
structure Scripted where
  outcome : Except String String
  delay : Nat := 0

/-- Answers by key. -/
abbrev Replay := Fields Scripted

namespace Scripted

/-- The fields of an answer that is written as an object. -/
structure Written where
  output : Option String := none
  error : Option String := none
  delay : Nat := 0

/-- The answer that is written; an error wins over an output. -/
def Written.scripted (written : Written) : Scripted :=
  ⟨match written.error with
    | some report => .error report
    | none => .ok (written.output.getD ""), written.delay⟩

/-- The record of an answer. -/
def Written.record : Record Written where
  title := "ScriptEntry"
  blank := {}
  fields := [
    ⟨"output", false, (readOpt (readTextAs "a string")).map fun value answer =>
      { answer with output := value }⟩,
    ⟨"error", false, (readOpt (readTextAs "a string")).map fun value answer =>
      { answer with error := value }⟩,
    ⟨"delay_ms", false, (readNat "u64" Number.indexBound).map fun value answer =>
      { answer with delay := value }⟩]

/-- Reads an answer: a text, or an object. -/
def reader : Reader Scripted :=
  readChosen (.noAlternative "ScriptEntry") fun
    | .string _ => some ((readTextAs "a string").map fun text => ⟨.ok text, 0⟩)
    | .object _ => some ((readRecord Written.record).map Written.scripted)
    | _ => none

/-- The outcome of an answer as that of a call. -/
def result (answer : Scripted) : Except Fault String :=
  answer.outcome.mapError .scripted

/-- The events of an answer: a piece for every line, and the end. -/
def stream (delay : Nat) (text : String) : Stream :=
  let pieces := (Text.linesInclusive text.toList).map fun line =>
    StreamEvent.delta (String.ofList line)
  (pieces ++ [StreamEvent.completed text none]).map fun event => ⟨delay, .ok event⟩

end Scripted

namespace Replay

/-- Reads a table from its text; of two answers for one key the later counts. -/
def parse (source : String) : Except Fault Replay :=
  (readText (readMap .ok Fields.insert Scripted.reader) source.toList).mapError (.json source)

/-- The answer to a call. -/
def answer (table : Replay) (call : Call) : Except Fault Scripted :=
  match Fields.get? call.key table with
  | some answer => .ok answer
  | none => .error (.unscripted call.key)

/-- The provider that answers from a table. -/
def provider (table : Replay) : Provider where
  name := "scripted"
  reply call := match table.answer call with
    | .error fault => .now (.error fault)
    | .ok answer => ⟨answer.delay, answer.result.map fun text => ⟨call.model, text, none⟩⟩
  stream call := .now (do
    let answer ← table.answer call
    let text ← answer.result
    pure (Scripted.stream answer.delay text))

end Replay

end Studio.Provider
