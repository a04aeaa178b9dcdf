import Studio.Fields
import Studio.Number.Binary

/-!
# JSON values

Integers and floating-point numbers are kept apart, as the format's readers and writers do. The
members of an object are a list: values that are read or built member by member hold them in
ascending order of their names, and values that are only written may hold them in the order of the
writing.
-/

namespace Studio

/-- A JSON value. -/
inductive Json where
  | null
  | bool (flag : Bool)
  | integer (n : Int)
  | float (x : Float)
  | single (x : Float32)
  | string (text : String)
  | array (items : List Json)
  | object (members : List (String × Json))
deriving Inhabited

namespace Json

/-- A natural number. -/
def nat (n : Nat) : Json := .integer n

/-- An optional value, where nothing is `null`. -/
def opt {α : Type} (encode : α → Json) : Option α → Json
  | some a => encode a
  | none => .null

/-- A list of values. -/
def listOf {α : Type} (encode : α → Json) (items : List α) : Json :=
  .array (items.map encode)

/-- An object from members in any order. -/
def ofMembers (members : List (String × Json)) : Json :=
  .object (Fields.ofList members)

/-- A double: `null` when it is not finite. -/
def ofFloat (x : Float) : Json :=
  if x.isFinite then .float x else .null

/-- A single-precision number: `null` when it is not finite. -/
def ofSingle (x : Float32) : Json :=
  if x.isFinite then .single x else .null

/-- The number rule of the library: a double of integral value and a magnitude below `9 · 10^15`
becomes an integer, another finite double stays one, and all else is `null`. -/
def ofNumber (x : Float) : Json :=
  match Number.asInteger? x with
  | some n => .integer n
  | none => ofFloat x

/-- The member of an object. -/
def get? (name : String) : Json → Option Json
  | .object members => Fields.get? name members
  | _ => none

/-- The text of a string. -/
def asString? : Json → Option String
  | .string text => some text
  | _ => none

/-- The items of an array. -/
def asArray? : Json → Option (List Json)
  | .array items => some items
  | _ => none

/-- The value of a number as a double. -/
def asFloat? : Json → Option Float
  | .integer n => some (Float.ofInt n)
  | .float x => some x
  | .single x => some x.toFloat
  | _ => none

/-- The value of a number that is an index. -/
def asIndex? : Json → Option Nat
  | .integer (.ofNat n) => if n < Number.indexBound then some n else none
  | _ => none

/-- The value of a truth value. -/
def asBool? : Json → Option Bool
  | .bool flag => some flag
  | _ => none

end Json

end Studio
