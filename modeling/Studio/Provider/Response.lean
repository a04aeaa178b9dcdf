import Studio.Provider.Reply
import Studio.Text.Blank

/-!
# Responses of the live service

A response lists items of output: messages with parts, inputs of tools, and items of other kinds,
which are passed over. Its text is the first input of a tool that is not empty, else that of all
messages.
-/

namespace Studio.Provider

open Json (record? field? fieldOr? optional? list? tagged? isBare)

/-- A part of a message. -/
inductive Part where
  | text (content : String)
  | other
deriving DecidableEq, Repr

/-- The text of a part. -/
def Part.text? : Part → Option String
  | .text content => some content
  | .other => none

/-- The word or number that stands for parts with text. -/
def isTextTag : Json → Option Bool
  | .string word => some (word = "output_text")
  | .integer (.ofNat n) => some (n = 0)
  | _ => none

/-- A part from an object, or from a list that begins with its type. -/
def Part.ofJson? (value : Json) : Option Part := do
  let (tag, rest) ← tagged? value
  if ← isTextTag tag then
    let members ← record? ["text"] rest
    pure (.text (← field? members "text" Json.asString?))
  else if isBare rest then some .other
  else none

/-- An item of output. -/
inductive Item where
  | message (parts : List Part)
  | toolInput (text : String)
  | other
deriving DecidableEq, Repr

namespace Item

/-- An item from an object, or from a list that begins with its type. -/
def ofJson? (value : Json) : Option Item := do
  let (tag, rest) ← tagged? value
  match ← tag.asString? with
  | "message" =>
    let members ← record? ["content"] rest
    pure (.message (← fieldOr? members "content" [] (list? Part.ofJson?)))
  | "custom_tool_call" =>
    let members ← record? ["input"] rest
    pure (.toolInput (← fieldOr? members "input" "" Json.asString?))
  | _ => if isBare rest then some .other else none

/-- The input of a tool, if it is not empty. -/
def toolInput? : Item → Option String
  | .toolInput text => if text.isEmpty then none else some text
  | _ => none

/-- The texts of a message. -/
def texts : Item → List String
  | .message parts => parts.filterMap Part.text?
  | _ => []

end Item

/-- A response of the service. -/
structure Response where
  model : String
  output : List Item
  usage : Option Usage
  /-- The report of an error. -/
  error : Option String

namespace Response

/-- The names of the fields in order. -/
def fieldNames : List String := ["model", "output", "usage", "error"]

/-- The report of an error, from an object or from the list of its fields. -/
def errorOfJson? (value : Json) : Option String := do
  let members ← record? ["message"] value
  fieldOr? members "message" "" Json.asString?

/-- A response from an object, or from the list of all its fields. -/
def ofJson? (value : Json) : Option Response := do
  let members ← record? fieldNames value
  if value matches .array _ then guard (members.length = fieldNames.length)
  pure {
    model := ← fieldOr? members "model" "" Json.asString?
    output := ← fieldOr? members "output" [] (list? Item.ofJson?)
    usage := ← fieldOr? members "usage" none (optional? Usage.ofJson?)
    error := ← fieldOr? members "error" none (optional? errorOfJson?) }

/-- The text of a response, if it is not empty. -/
def text? (response : Response) : Option String :=
  match response.output.findSome? Item.toolInput? with
  | some text => some text
  | none =>
    let text := Text.joinWith "" (response.output.flatMap Item.texts)
    if text.isEmpty then none else some text

end Response

end Studio.Provider
