import Studio.Script.Fault
import Studio.Number.Binary

/-!
# Arguments of calls

A parameter is given by its name or, where it has a slot, by its position among the arguments
without names. The name counts first, and the value `none` counts as no value. A value of the wrong
kind is a fault, and so is a missing value where one is required.
-/

namespace Studio.Script

/-- A parameter: its name, and its slot among the positional arguments when it has one. -/
structure Param where
  name : String
  slot : Option Nat

instance : Coe String Param := ⟨fun name => ⟨name, none⟩⟩

/-- A parameter that may be given by its position. -/
def Param.inSlot (name : String) (slot : Nat) : Param := ⟨name, some slot⟩

/-- The largest count a script may give. -/
def countLimit : Nat := 4294967295

namespace Call

/-- The value of the first argument with a name. -/
def named? (call : Call) (name : String) : Option Value :=
  (call.arguments.find? fun argument => argument.name = some name).map Argument.value

/-- The value of the argument at a position among those without names. -/
def positional? (call : Call) (slot : Nat) : Option Value :=
  ((call.arguments.filter fun argument => argument.name.isNone)[slot]?).map Argument.value

/-- The value given for a parameter. -/
def param? (call : Call) (param : Param) : Option Value :=
  match (call.named? param.name).or (param.slot.bind call.positional?) with
  | some .none => none
  | value => value

/-- Whether a parameter is given. -/
def has (call : Call) (param : Param) : Bool :=
  (call.param? param).isSome

/-- The fault of an argument. -/
def invalid {α : Type} (call : Call) (param : String) (flaw : Flaw) : Except Fault α :=
  .error (.invalidArgument call.name param flaw)

/-- The value of a parameter, if given, as something of a kind. -/
def typed {α : Type} (call : Call) (param : Param) (expected : ValueKind)
    (extract : Value → Option α) : Except Fault (Option α) :=
  match call.param? param with
  | none => .ok none
  | some value =>
    match extract value with
    | some a => .ok (some a)
    | none => .error (.typeMismatch call.name param.name expected value.kind)

/-- The value of a parameter that must be given. -/
def required {α : Type} (call : Call) (param : Param) : Except Fault (Option α) → Except Fault α
  | .error e => .error e
  | .ok (some a) => .ok a
  | .ok none => .error (.missingArgument call.name param.name)

/-- A text, if given. -/
def string? (call : Call) (param : Param) : Except Fault (Option String) :=
  call.typed param .string Value.asString?

/-- A text. -/
def string (call : Call) (param : Param) : Except Fault String :=
  call.required param (call.string? param)

/-- A number, if given. -/
def number? (call : Call) (param : Param) : Except Fault (Option Float) :=
  call.typed param .number Value.asNumber?

/-- A number. -/
def number (call : Call) (param : Param) : Except Fault Float :=
  call.required param (call.number? param)

/-- A truth value, if given. -/
def bool? (call : Call) (param : Param) : Except Fault (Option Bool) :=
  call.typed param .bool Value.asBool?

/-- A truth value. -/
def bool (call : Call) (param : Param) : Except Fault Bool :=
  call.required param (call.bool? param)

/-- A list, if given. -/
def array? (call : Call) (param : Param) : Except Fault (Option (List Value)) :=
  call.typed param .array Value.asArray?

/-- A list. -/
def array (call : Call) (param : Param) : Except Fault (List Value) :=
  call.required param (call.array? param)

/-- A method that is handed over. -/
def function (call : Call) (param : Param) : Except Fault Function :=
  call.required param (call.typed param .function Value.asFunction?)

/-- A comparison. -/
def predicate (call : Call) (param : Param) : Except Fault Predicate :=
  call.required param (call.typed param .predicate Value.asPredicate?)

/-- A count, if given: an integral number from zero to `countLimit`. -/
def count? (call : Call) (param : Param) : Except Fault (Option Nat) :=
  match call.number? param with
  | .error e => .error e
  | .ok none => .ok none
  | .ok (some x) =>
    if x < 0 || !Number.isIntegral x then call.invalid param.name (.notNatural x)
    else if x > Float.ofNat countLimit then call.invalid param.name (.above x countLimit)
    else .ok (some (Number.toIndex x))

/-- A count. -/
def count (call : Call) (param : Param) : Except Fault Nat :=
  call.required param (call.count? param)

end Call

end Studio.Script
