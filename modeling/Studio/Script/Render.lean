import Studio.Script.Value
import Studio.Text.Blank
import Studio.Json.Writer
import Studio.Text.Quoted

/-!
# Writing scripts

The text of a call is its source form: the arguments in order, and every value as its JSON text.
Calls and comparisons that are handed over as values have no JSON form of their own; they are
written as strings that hold their source form.
-/

namespace Studio.Script

open Studio.Text (joinWith quoted)

/-- The source form of a literal. -/
def Literal.text : Literal → String
  | .string text => quoted text
  | .number x => (Json.ofNumber x).text
  | .bool true => "true"
  | .bool false => "false"

/-- The source form of the left-hand side of a comparison. -/
def Predicate.path (p : Predicate) : String :=
  let root := match p.root with
    | some name => name ++ "."
    | none => ""
  let element := match p.index with
    | some index => "[" ++ Number.intText index ++ "]"
    | none => ""
  root ++ p.property ++ element

/-- The source form of a comparison. -/
def Predicate.text (p : Predicate) : String :=
  p.path ++ " " ++ p.comparison.sign ++ " " ++ p.literal.text

mutual

/-- The JSON form of a value. -/
def Value.toJson : Value → Json
  | .string text => .string text
  | .number x => .ofNumber x
  | .bool flag => .bool flag
  | .array items => .array (itemsToJson items)
  | .reference name => .string ("@" ++ name)
  | .invocation receiver call =>
    .string ((match receiver with
      | some name => name ++ "."
      | none => "") ++ call.text)
  | .predicate p => .string p.text
  | .none => .null

/-- The JSON forms of a list of values. -/
def itemsToJson : List Value → List Json
  | [] => []
  | item :: rest => item.toJson :: itemsToJson rest

/-- The source form of a call. -/
def Call.text : Call → String
  | ⟨name, arguments⟩ => name ++ "(" ++ argumentsText arguments ++ ")"

/-- The source form of arguments. -/
def argumentsText : List Argument → String
  | [] => ""
  | [argument] => argument.text
  | argument :: rest => argument.text ++ ", " ++ argumentsText rest

/-- The source form of an argument. -/
def Argument.text : Argument → String
  | ⟨name, value⟩ =>
    (match name with
      | some name => name ++ "="
      | none => "") ++ value.toJson.text

end

/-- The source form of a statement. -/
def Statement.text (statement : Statement) : String :=
  joinWith "." (statement.calls.map Call.text)

/-- The source form of a script, a statement to a line. -/
def Program.text (program : Program) : String :=
  joinWith "\n" (program.map Statement.text)

end Studio.Script
