/-!
# What a floating-point number stands for

A double is read as a signed multiple of a power of two, an infinity, or no number. From that exact
reading come the questions the rest of the library asks about a double: whether it is an integer,
which integer remains when its fraction is cut off, and where it falls in a range of integers.
-/

namespace Studio.Number

/-- A finite non-negative binary value `significand · 2^exponent`, where `narrowBelow` says that the
gap to the value below is half the gap to the value above. -/
structure Binary where
  significand : Nat
  exponent : Int
  narrowBelow : Bool
deriving DecidableEq, Repr

/-- The exact reading of a floating-point number. -/
inductive Reading where
  | finite (negative : Bool) (magnitude : Binary)
  | infinite (negative : Bool)
  | notANumber
deriving DecidableEq, Repr

/-- The magnitude encoded by an exponent field and a fraction field of `width` bits, where the least
exponent is `least`. -/
def Binary.ofFields (width : Nat) (least : Int) (field fraction : Nat) : Binary :=
  if field = 0 then ⟨fraction, least, false⟩
  else ⟨Nat.pow 2 width + fraction, least + (field - 1 : Nat), fraction == 0 && field != 1⟩

/-- The reading of a double. -/
def readDouble (x : Float) : Reading :=
  let bits := x.toBits.toNat
  let negative := bits / 0x8000000000000000 == 1
  let field := bits / 0x10000000000000 % 0x800
  let fraction := bits % 0x10000000000000
  if field = 0x7FF then if fraction = 0 then .infinite negative else .notANumber
  else .finite negative (Binary.ofFields 52 (-1074) field fraction)

/-- The reading of a single-precision number. -/
def readSingle (x : Float32) : Reading :=
  let bits := x.toBits.toNat
  let negative := bits / 0x80000000 == 1
  let field := bits / 0x800000 % 0x100
  let fraction := bits % 0x800000
  if field = 0xFF then if fraction = 0 then .infinite negative else .notANumber
  else .finite negative (Binary.ofFields 23 (-149) field fraction)

/-- The single-precision number nearest to a double; a tie goes to the even significand. -/
def toSingle (x : Float) : Float32 :=
  .ofModel <| .pack <| match x.toModel.unpack with
    | .finite sign significand exponent _ => .round .binary32 sign significand exponent
    | special => special

/-- The greatest integer that is not above the value. -/
def Binary.floor (b : Binary) : Nat :=
  if 0 ≤ b.exponent then b.significand * Nat.pow 2 b.exponent.toNat
  else b.significand / Nat.pow 2 (-b.exponent).toNat

/-- Whether the value is an integer. -/
def Binary.isIntegral (b : Binary) : Bool :=
  0 ≤ b.exponent || b.significand % Nat.pow 2 (-b.exponent).toNat == 0

/-- Whether a double is an integer; infinities are none. -/
def isIntegral (x : Float) : Bool :=
  match readDouble x with
  | .finite _ b => b.isIntegral
  | _ => false

/-- The integer that remains when the fraction of a finite double is cut off. -/
def truncate? (x : Float) : Option Int :=
  match readDouble x with
  | .finite negative b => some (if negative then -(b.floor : Int) else b.floor)
  | _ => none

/-- The integer nearest to the double without its fraction among those from `least` to `most`; what
is no number counts as zero. -/
def truncateInto (least most : Int) (x : Float) : Int :=
  match readDouble x with
  | .finite negative b => max least (min most (if negative then -(b.floor : Int) else b.floor))
  | .infinite true => least
  | .infinite false => most
  | .notANumber => 0

/-- One more than the largest index. -/
def indexBound : Nat := 0x10000000000000000

/-- The index after another; the largest index is its own successor. -/
def nextIndex (n : Nat) : Nat :=
  min (n + 1) (indexBound - 1)

/-- The index nearest to a double without its fraction. -/
def toIndex (x : Float) : Nat :=
  (truncateInto 0 (indexBound - 1 : Nat) x).toNat

/-- The integer a double is written as: it is one, and its magnitude is below `9 · 10^15`. -/
def asInteger? (x : Float) : Option Int :=
  match readDouble x with
  | .finite negative b =>
    if b.isIntegral && b.floor < 9000000000000000 then
      some (if negative then -(b.floor : Int) else b.floor)
    else none
  | _ => none

/-- The place of a double in the order in which every double has a place of its own: numbers by
size, the negative zero before the other, and what is no number at the two ends. -/
def orderKey (x : Float) : Int :=
  let bits := x.toBits.toNat
  if bits < 0x8000000000000000 then bits else -(bits - 0x8000000000000000 : Nat) - 1

/-- Truncation stays within the range it is given. -/
theorem truncateInto_mem {least most : Int} (x : Float) (h : least ≤ 0) (h' : 0 ≤ most) :
    least ≤ truncateInto least most x ∧ truncateInto least most x ≤ most := by
  unfold truncateInto
  split <;> omega

end Studio.Number
