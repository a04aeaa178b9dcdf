import Studio.Json.Basic

/-!
# Taking values apart

Decoders for values that were read before their shape is known: lists, optional values, and records
of named fields, which may also be written as the list of their fields in order.
-/

namespace Studio.Json

/-- A value or `null`. -/
def optional? {α : Type} (decode : Json → Option α) : Json → Option (Option α)
  | .null => some none
  | value => (decode value).map some

/-- A list of values of one form. -/
def list? {α : Type} (decode : Json → Option α) (value : Json) : Option (List α) :=
  value.asArray?.bind fun items => items.mapM decode

/-- A field that must be given. -/
def field? {α : Type} (members : List (String × Json)) (name : String) (decode : Json → Option α) :
    Option α :=
  (Fields.get? name members).bind decode

/-- A field that may be left out, with the value it has then. -/
def fieldOr? {α : Type} (members : List (String × Json)) (name : String) (default : α)
    (decode : Json → Option α) : Option α :=
  match Fields.get? name members with
  | some value => decode value
  | none => some default

/-- The fields of a record: the members of an object, or the items of a list in the order of
`names`. -/
def record? (names : List String) : Json → Option (List (String × Json))
  | .object members => some members
  | .array items => if items.length ≤ names.length then some (names.zip items) else none
  | _ => none

/-- The tag of a value and the rest of it: the member `type` of an object, or the first item of a
list. -/
def tagged? : Json → Option (Json × Json)
  | .object members =>
    (Fields.get? "type" members).map fun tag => (tag, .object (Fields.erase "type" members))
  | .array (tag :: rest) => some (tag, .array rest)
  | _ => none

/-- Whether a value is what follows a tag that stands alone: any members, or no items. -/
def isBare : Json → Bool
  | .object _ => true
  | .array items => items.isEmpty
  | _ => false

/-- The word for one of several choices, which may also be the one member of an object. -/
def choice? : Json → Option String
  | .string word => some word
  | .object [(word, .null)] => some word
  | _ => none

/-- The members whose names are not among `known`. -/
def unknownMembers (known : List String) (members : List (String × Json)) : List (String × Json) :=
  members.filter fun (name, _) => !known.contains name

/-- A member for a value, if there is one. -/
def memberSome (name : String) : Option Json → List (String × Json)
  | some value => [(name, value)]
  | none => []

end Studio.Json
