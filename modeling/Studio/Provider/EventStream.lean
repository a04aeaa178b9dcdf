import Studio.Json.Reader
import Studio.Provider.Fault
import Studio.Provider.Response
import Studio.Text.Utf8

/-!
# Decoding event streams

The live service streams lines of bytes, some of which carry an event. Bytes come in chunks that may
end anywhere, so the decoder keeps what follows the last line end until more comes. A line that
reports an error or cannot be read ends the decoding of a chunk; the lines behind it are kept.
-/

namespace Studio.Provider

/-- What the events of a stream said so far. -/
structure Heard where
  /-- The pieces of text, joined. -/
  text : String := ""
  /-- Whether the end was announced. -/
  completed : Bool := false
deriving DecidableEq, Repr

namespace Heard

/-- The report in an event about an error. -/
def errorReport (event : Json) : String :=
  let inside (value : Option Json) : Option Json :=
    (value.bind (Json.get? "error")).bind (Json.get? "message")
  let report :=
    (inside (some event)).or (inside (event.get? "response")) |>.or (event.get? "message")
  (report.bind Json.asString?).getD "unknown provider error"

/-- The end of a stream: the text of the response, if it has one, else the text that was heard. -/
def ending (heard : Heard) : Option Json → Except Fault StreamEvent
  | none => .ok (.completed heard.text none)
  | some value =>
    match Response.ofJson? value with
    | some response => .ok (.completed (response.text?.getD heard.text) response.usage)
    | none => .error .shape

/-- Take in an event. -/
def event (heard : Heard) (value : Json) : Heard × Except Fault (Option StreamEvent) :=
  let kind := ((value.get? "type").bind Json.asString?).getD ""
  if kind = "response.output_text.delta" || kind = "response.custom_tool_call_input.delta" then
    let piece := ((value.get? "delta").bind Json.asString?).getD ""
    if piece.isEmpty then (heard, .ok none)
    else ({ heard with text := heard.text ++ piece }, .ok (some (.delta piece)))
  else if kind = "response.completed" then
    ({ heard with completed := true }, (heard.ending (value.get? "response")).map some)
  else if kind = "error" || kind = "response.failed" then
    (heard, .error (.remote (errorReport value)))
  else (heard, .ok none)

/-- The text behind the mark of a line that carries an event. -/
def payload? (line : List UInt8) : Option (List Char) :=
  (Text.dropStart? "data:".toList (Text.dropBlankEnd (Text.Utf8.decode line))).map Text.trimList

/-- Take in a line. -/
def line (heard : Heard) (line : List UInt8) : Heard × Except Fault (Option StreamEvent) :=
  match payload? line with
  | none => (heard, .ok none)
  | some data =>
    if data.isEmpty || data = "[DONE]".toList then (heard, .ok none)
    else
      match Json.parse (String.ofList data) with
      | .error fault => (heard, .error (.json (String.ofList data) fault))
      | .ok value => heard.event value

/-- How the reading of lines ends: with the events of all lines, or at a fault with the lines behind
it. -/
inductive Outcome where
  | read (events : List StreamEvent)
  | stopped (fault : Fault) (behind : List (List UInt8))

/-- Put an event in front of those of an outcome. -/
def Outcome.cons (event : Option StreamEvent) : Outcome → Outcome
  | .read events => .read (event.toList ++ events)
  | .stopped fault behind => .stopped fault behind

/-- Take in lines up to the first fault. -/
def lines (heard : Heard) : List (List UInt8) → Heard × Outcome
  | [] => (heard, .read [])
  | first :: rest =>
    match heard.line first with
    -- The events in front of the fault are lost, though their text was heard.
    | (heard, .error fault) => (heard, .stopped fault rest)
    | (heard, .ok event) =>
      let (heard, outcome) := heard.lines rest
      (heard, outcome.cons event)

end Heard

/-- The byte that ends a line. -/
def lineEnd : UInt8 := 10

/-- The lines of bytes, each with its end, and what follows the last line end. -/
def splitLines : List UInt8 → List (List UInt8) × List UInt8
  | [] => ([], [])
  | byte :: bytes =>
    let (lines, rest) := splitLines bytes
    if byte = lineEnd then ([byte] :: lines, rest)
    else match lines with
      | [] => ([], byte :: rest)
      | line :: more => ((byte :: line) :: more, rest)

/-- A decoder: the bytes that are kept, and what was heard. -/
structure Decoder where
  kept : List UInt8 := []
  heard : Heard := {}
deriving DecidableEq, Repr

namespace Decoder

/-- Take in a chunk of bytes: the events of the lines that it completes, or the first fault. -/
def push (decoder : Decoder) (chunk : List UInt8) : Decoder × Except Fault (List StreamEvent) :=
  let (lines, rest) := splitLines (decoder.kept ++ chunk)
  match decoder.heard.lines lines with
  | (heard, .read events) => (⟨rest, heard⟩, .ok events)
  | (heard, .stopped fault behind) => (⟨behind.flatten ++ rest, heard⟩, .error fault)

end Decoder

/-- Splitting loses nothing. -/
theorem flatten_splitLines (bytes : List UInt8) :
    (splitLines bytes).1.flatten ++ (splitLines bytes).2 = bytes := by
  induction bytes with
  | nil => rfl
  | cons byte bytes ih =>
    rcases h : splitLines bytes with ⟨lines, rest⟩
    simp only [h] at ih
    by_cases hb : byte = lineEnd
    · simp [splitLines, h, hb, ih]
    · cases lines <;> simp_all [splitLines]

/-- What follows the last line end has no line end. -/
theorem lineEnd_not_mem_rest (bytes : List UInt8) : lineEnd ∉ (splitLines bytes).2 := by
  induction bytes with
  | nil => simp [splitLines]
  | cons byte bytes ih =>
    rcases h : splitLines bytes with ⟨lines, rest⟩
    rw [h] at ih
    by_cases hb : byte = lineEnd
    · simpa [splitLines, h, hb] using ih
    · cases lines with
      | nil => simpa [splitLines, h, hb, Ne.symm hb, eq_comm] using ih
      | cons line more => simpa [splitLines, h, hb] using ih

end Studio.Provider
