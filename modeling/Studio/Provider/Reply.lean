import Studio.Json.Members

/-!
# Replies of a provider

A reply is a text with an account of its cost, given as a whole or piece by piece.
-/

namespace Studio.Provider

open Json (record? fieldOr?)

/-- What a reply cost, in tokens. -/
structure Usage where
  input : Nat
  output : Nat
  total : Nat
deriving DecidableEq, Repr

namespace Usage

/-- The names of the fields in order. -/
def fieldNames : List String := ["input_tokens", "output_tokens", "total_tokens"]

/-- An account as an object. -/
def toJson (usage : Usage) : Json :=
  .object [("input_tokens", .nat usage.input), ("output_tokens", .nat usage.output),
    ("total_tokens", .nat usage.total)]

/-- An account from an object, or from the list of its fields. -/
def ofJson? (value : Json) : Option Usage := do
  let members ← record? fieldNames value
  pure ⟨← fieldOr? members "input_tokens" 0 Json.asIndex?,
    ← fieldOr? members "output_tokens" 0 Json.asIndex?,
    ← fieldOr? members "total_tokens" 0 Json.asIndex?⟩

end Usage

/-- A whole reply. -/
structure Reply where
  model : String
  text : String
  usage : Option Usage := none
deriving DecidableEq, Repr

/-- A piece of a reply, or its end with the whole text. -/
inductive StreamEvent where
  | delta (text : String)
  | completed (text : String) (usage : Option Usage)
deriving DecidableEq, Repr

end Studio.Provider
