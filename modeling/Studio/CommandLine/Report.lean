import Studio.Number.Fixed
import Studio.Request.Conductor

/-!
# What the program prints

The lines for the outcome of a command: results on the standard output, and warnings, notices and
errors beside them.
-/

namespace Studio.CommandLine

/-- What a command leaves: its exit code and what it prints. -/
structure Report where
  code : Nat := 0
  output : String := ""
  /-- The messages beside the output. -/
  messages : List String := []
deriving DecidableEq, Repr

namespace Report

/-- A report of one line. -/
def line (text : String) : Report := { output := text ++ "\n" }

/-- A report of lines. -/
def lines (texts : List String) : Report :=
  { output := String.join (texts.map (· ++ "\n")) }

/-- A report of messages. -/
def beside (messages : List String) : Report := { messages }

/-- A report that a command failed. -/
def failure (message : String) : Report := { code := 1, messages := ["Error: " ++ message] }

/-- What two reports leave together; a failure stays one. -/
def append (first second : Report) : Report :=
  ⟨max first.code second.code, first.output ++ second.output, first.messages ++ second.messages⟩

instance : Append Report := ⟨append⟩

end Report

/-- A text with blanks behind it up to a width. -/
def padRight (width : Nat) (text : String) : String :=
  text ++ String.ofList (List.replicate (width - text.length) ' ')

/-- A text with blanks in front of it up to a width. -/
def padLeft (width : Nat) (text : String) : String :=
  String.ofList (List.replicate (width - text.length) ' ') ++ text

/-- The names of capabilities, or a dash. -/
def names (capabilities : List Capability) : String :=
  if capabilities.isEmpty then "-" else Text.joinWith ", " (capabilities.map Capability.name)

/-- The word for a tier. -/
def tierWord : Request.Tier → String
  | .keywords => "Keywords"
  | .fallback => "Fallback"
  | .keywordsAfterFault => "KeywordsAfterFallbackError"

/-- Actions as an indented list. -/
def actionsText (actions : List Action) : String :=
  (Json.listOf Action.toJson actions).prettyText

/-- The line for a note. -/
def noteLine (note : Music.Note) : String :=
  "  pitch " ++ padLeft 3 (Number.intText note.pitch) ++
    "  vel " ++ padLeft 3 (Number.intText note.velocity) ++
    "  start " ++ padLeft 7 (Number.fixedText 3 note.start) ++
    "  dur " ++ Number.fixedText 3 note.duration

/-- The lines for notes; none when there is no note. -/
def noteLines (notes : List Music.Note) : List String :=
  if notes.isEmpty then []
  else (Number.intText notes.length ++ " notes:") :: notes.map noteLine

/-- The line for a set of a keyword table. -/
def keywordLine (capability : Capability) (set : Request.KeywordSet) : String :=
  padRight 10 capability.name ++ " " ++ Number.intText set.keywords.length ++ " keywords, " ++
    Number.intText set.hints.length ++ " hints"

/-- The messages about what is missing from a result. -/
def warnings (result : Request.Result) : List String :=
  (result.failures.map fun failure => "warning: " ++ failure.message) ++
    result.unattached.map fun capability =>
      "warning: " ++ capability.name ++ " content had no track to attach to"

/-- The lines for a classification behind those for what the keywords say. -/
def classificationLine : Except Request.Fault Request.Classification → String
  | .ok classification =>
    "selected: " ++ names classification.capabilities ++ " (" ++ tierWord classification.tier ++ ")"
  | .error fault => fault.message

/-- The report on an interpreted script and its notes. -/
def interpretationReport (interpretation : Script.Interpretation)
    (notes : Except Music.Fault (List Music.Note)) : Report :=
  .line (actionsText interpretation.actions) ++
    .beside (interpretation.notices.map fun notice => "notice: " ++ notice.toJson.text) ++
    match notes with
    | .ok notes => .lines (noteLines notes)
    | .error fault => .failure fault.message

/-- The report on the answer to a request. -/
def answerReport (live : Bool) (answer : Request.Answer) : Report :=
  .lines (answer.shown.map fun action => action.toJson.text) ++
    match answer.outcome with
    | .ok result =>
      (if live then {} else .line (actionsText result.actions)) ++ .beside (warnings result)
    | .error fault =>
      if fault.isUserFacing then .line fault.message else .failure fault.message

end Studio.CommandLine
