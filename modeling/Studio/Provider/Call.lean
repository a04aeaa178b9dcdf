import Studio.Json.Members

/-!
# Calls of a provider

A call names a model, says what to do, and constrains the form of the answer. `Role.ofName?_name`
says that roles are told apart by their names.
-/

namespace Studio.Provider

open Json (record? field? list? tagged? isBare choice?)

/-- Who says something. -/
inductive Role where
  | developer
  | user
  | assistant
deriving DecidableEq, Repr

namespace Role

/-- All roles. -/
def all : List Role := [.developer, .user, .assistant]

/-- The word for a role. -/
def name : Role → String
  | .developer => "developer"
  | .user => "user"
  | .assistant => "assistant"

/-- The role that a word stands for. -/
def ofName? (word : String) : Option Role :=
  all.find? fun role => role.name = word

/-- A role is found by its name. -/
theorem ofName?_name (role : Role) : ofName? role.name = some role := by
  cases role <;> decide

end Role

/-- Something that is said. -/
structure Message where
  role : Role
  content : String

namespace Message

/-- A message as an object. -/
def toJson (message : Message) : Json :=
  .object [("role", .string message.role.name), ("content", .string message.content)]

/-- A message from an object, or from the list of its fields. -/
def ofJson? (value : Json) : Option Message := do
  let members ← record? ["role", "content"] value
  let role ← field? members "role" fun word => (choice? word).bind Role.ofName?
  let content ← field? members "content" Json.asString?
  pure ⟨role, content⟩

end Message

/-- The form that an answer must have: any text, a text of a grammar, or a value of a schema. -/
inductive OutputFormat where
  | text
  | grammar (tool description language definition : String)
  | schema (name : String) (shape : Json)

namespace OutputFormat

/-- The name of the tool or schema. -/
def key? : OutputFormat → Option String
  | .text => none
  | .grammar tool .. => some tool
  | .schema name _ => some name

/-- A format as an object. -/
def toJson : OutputFormat → Json
  | .text => .object [("type", .string "text")]
  | .grammar tool description language definition =>
    .object [("type", .string "grammar"), ("tool_name", .string tool),
      ("description", .string description), ("syntax", .string language),
      ("definition", .string definition)]
  | .schema name shape =>
    .object [("type", .string "json_schema"), ("name", .string name), ("schema", shape)]

/-- A format from an object, or from a list that begins with its type. -/
def ofJson? (value : Json) : Option OutputFormat := do
  let (tag, rest) ← tagged? value
  match ← tag.asString? with
  | "text" => if isBare rest then some .text else none
  | "grammar" =>
    let members ← record? ["tool_name", "description", "syntax", "definition"] rest
    pure (.grammar (← field? members "tool_name" Json.asString?)
      (← field? members "description" Json.asString?) (← field? members "syntax" Json.asString?)
      (← field? members "definition" Json.asString?))
  | "json_schema" =>
    let members ← record? ["name", "schema"] rest
    pure (.schema (← field? members "name" Json.asString?) (← field? members "schema" some))
  | _ => none

end OutputFormat

/-- A call of a provider. -/
structure Call where
  model : String
  instructions : String
  input : List Message
  output : OutputFormat

namespace Call

/-- The key for answers of any text. -/
def textKey : String := "text"

/-- The key under which a call is answered. -/
def key (call : Call) : String :=
  call.output.key?.getD textKey

/-- A call from an object, or from the list of its fields. -/
def ofJson? (value : Json) : Option Call := do
  let members ← record? ["model", "instructions", "input", "output"] value
  pure {
    model := ← field? members "model" Json.asString?
    instructions := ← field? members "instructions" Json.asString?
    input := ← field? members "input" (list? Message.ofJson?)
    output := ← field? members "output" OutputFormat.ofJson? }

end Call

end Studio.Provider
