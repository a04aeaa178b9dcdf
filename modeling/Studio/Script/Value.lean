import Studio.Json.Basic

/-!
# Values and calls of scripts

A script is a list of statements, each a chain of method-style calls. The arguments of a call are
values, among them further calls and comparisons that are not carried out where they are written.
-/

namespace Studio.Script

/-- How a comparison relates a property to its literal. -/
inductive Comparison where
  | equal
  | unequal
  | less
  | greater
  | atMost
  | atLeast
deriving DecidableEq, Repr

/-- The sign of a comparison. -/
def Comparison.sign : Comparison → String
  | .equal => "=="
  | .unequal => "!="
  | .less => "<"
  | .greater => ">"
  | .atMost => "<="
  | .atLeast => ">="

/-- Whether a comparison needs an order and not only equality. -/
def Comparison.isOrdering : Comparison → Bool
  | .equal | .unequal => false
  | _ => true

/-- Whether a comparison holds of two things in the given order. -/
def Comparison.holds : Comparison → Ordering → Bool
  | .equal, order => order == .eq
  | .unequal, order => order != .eq
  | .less, order => order == .lt
  | .greater, order => order == .gt
  | .atMost, order => order != .gt
  | .atLeast, order => order != .lt

/-- The right-hand side of a comparison. -/
inductive Literal where
  | string (text : String)
  | number (x : Float)
  | bool (flag : Bool)

/-- A comparison of a property with a literal: the variable it is a property of, when one is
written, the property, and the element of it that is meant, when it is a list. -/
structure Predicate where
  root : Option String
  property : String
  index : Option Nat
  comparison : Comparison
  literal : Literal

mutual

/-- The value of an argument. -/
inductive Value where
  | string (text : String)
  | number (x : Float)
  | bool (flag : Bool)
  | array (items : List Value)
  /-- The name of a method, or of a property. -/
  | reference (name : String)
  /-- A call that is handed over, with the variable it is to be made on, when one is written. -/
  | invocation (receiver : Option String) (call : Call)
  | predicate (p : Predicate)
  | none

/-- An argument of a call: its name, unless it is known by its position, and its value. -/
structure Argument where
  name : Option String
  value : Value

/-- A call: the name of a method, and the arguments in the order of the writing. -/
structure Call where
  name : String
  arguments : List Argument

end

instance : Inhabited Value := ⟨.none⟩

/-- A statement: a chain of at least one call. -/
structure Statement where
  first : Call
  more : List Call

/-- The calls of a statement in order. -/
def Statement.calls (statement : Statement) : List Call :=
  statement.first :: statement.more

/-- A script. -/
abbrev Program := List Statement

/-- The number of calls in a script. -/
def Program.callCount (program : Program) : Nat :=
  program.foldr (fun statement n => statement.calls.length + n) 0

/-- The kinds of values. -/
inductive ValueKind where
  | string
  | number
  | bool
  | array
  | function
  | predicate
  | none
deriving DecidableEq, Repr

/-- The word for a kind. -/
def ValueKind.name : ValueKind → String
  | .string => "string"
  | .number => "number"
  | .bool => "bool"
  | .array => "array"
  | .function => "function"
  | .predicate => "predicate"
  | .none => "none"

/-- A method that was handed over: the call it amounts to, the variable it is to be made on, and
whether it was written as a call. -/
structure Function where
  receiver : Option String
  call : Call
  written : Bool

namespace Value

/-- The kind of a value. -/
def kind : Value → ValueKind
  | .string _ => .string
  | .number _ => .number
  | .bool _ => .bool
  | .array _ => .array
  | .reference _ | .invocation .. => .function
  | .predicate _ => .predicate
  | .none => .none

/-- The text of a string. -/
def asString? : Value → Option String
  | .string text => some text
  | _ => Option.none

/-- The double of a number. -/
def asNumber? : Value → Option Float
  | .number x => some x
  | _ => Option.none

/-- The flag of a truth value. -/
def asBool? : Value → Option Bool
  | .bool flag => some flag
  | _ => Option.none

/-- The items of an array. -/
def asArray? : Value → Option (List Value)
  | .array items => some items
  | _ => Option.none

/-- The method that is handed over; the bare name of a method amounts to a call without
arguments. -/
def asFunction? : Value → Option Function
  | .reference name => some ⟨Option.none, ⟨name, []⟩, false⟩
  | .invocation receiver call => some ⟨receiver, call, true⟩
  | _ => Option.none

/-- The comparison of a predicate. -/
def asPredicate? : Value → Option Predicate
  | .predicate p => some p
  | _ => Option.none

mutual

/-- The property that a JSON value stands for. Objects have no form as properties. -/
def ofJson : Json → Value
  | .null | .object _ => .none
  | .bool flag => .bool flag
  | .integer n => .number (Float.ofInt n)
  | .float x => .number x
  | .single x => .number x.toFloat
  | .string text => .string text
  | .array items => .array (ofItems items)

/-- The properties that a list of JSON values stands for. -/
def ofItems : List Json → List Value
  | [] => []
  | item :: rest => ofJson item :: ofItems rest

end

/-- The number of an index. -/
def ofIndex (n : Nat) : Value :=
  .number (Float.ofNat n)

end Value

/-- The order of two numbers, if they have one. -/
def compareNumbers (a b : Float) : Option Ordering :=
  if a < b then some .lt
  else if a == b then some .eq
  else if b < a then some .gt
  else none

/-- Whether a property satisfies a comparison. Texts are in the order of their characters; truth
values can only be equal or not; a property of another kind than the literal satisfies nothing. -/
def Predicate.test (p : Predicate) (property : Value) : Bool :=
  match property, p.literal with
  | .string a, .string b => p.comparison.holds (compare a b)
  | .number a, .number b => (compareNumbers a b).any p.comparison.holds
  | .bool a, .bool b => !p.comparison.isOrdering && p.comparison.holds (compare a b)
  | _, _ => false

end Studio.Script
