import Studio.Text.Blank

/-!
# Reading decimals

A decimal text becomes the nearest floating-point number, ties going to the even significand.
Exponents far outside the range of the format are decided by the number of digits alone, so that no
huge power of ten is computed.
-/

namespace Studio.Number

open Studio.Text

/-- Whether the character is one of the ten digits. -/
def isDigit (c : Char) : Bool :=
  '0' ≤ c && c ≤ '9'

/-- The value of a digit. -/
def digitValue (c : Char) : Nat :=
  c.toNat - '0'.toNat

/-- The natural number that the digits denote. -/
def ofDigits (digits : List Char) : Nat :=
  digits.foldl (fun n c => 10 * n + digitValue c) 0

/-- A decimal text in parts: its sign, and the magnitude `digits · 10^exponent`. -/
structure DecimalText where
  negative : Bool
  digits : Nat
  exponent : Int

/-- Where a magnitude falls outside what any format can tell from zero or infinity. -/
inductive Extreme where
  | vanishing
  | overflowing
  | within

/-- Decide by the digit count whether the magnitude is beyond all formats. -/
def DecimalText.extreme (d : DecimalText) : Extreme :=
  let top := (Nat.toDigits 10 d.digits).length + d.exponent
  if d.digits = 0 || top < -400 then .vanishing
  else if top > 400 then .overflowing
  else .within

/-- The nearest double. -/
def DecimalText.toDouble (d : DecimalText) : Float :=
  let magnitude := match d.extreme with
    | .vanishing => Float.ofBits 0
    | .overflowing => Float.ofBits 0x7FF0000000000000
    | .within => Float.ofScientific d.digits (d.exponent < 0) d.exponent.natAbs
  if d.negative then -magnitude else magnitude

/-- The nearest single-precision number. -/
def DecimalText.toSingle (d : DecimalText) : Float32 :=
  let magnitude := match d.extreme with
    | .vanishing => Float32.ofBits 0
    | .overflowing => Float32.ofBits 0x7F800000
    | .within => Float32.ofScientific d.digits (d.exponent < 0) d.exponent.natAbs
  if d.negative then -magnitude else magnitude

/-- Split a sign off a text; without one it is positive. -/
def splitSign : List Char → Bool × List Char
  | '-' :: rest => (true, rest)
  | '+' :: rest => (false, rest)
  | text => (false, text)

/-- The exponent part of a decimal text, if it is well formed: nothing, or a letter, an optional
sign and digits. -/
def readExponent : List Char → Option Int
  | [] => some 0
  | c :: rest =>
    let (negative, digits) := splitSign rest
    if (c = 'e' || c = 'E') && !digits.isEmpty && digits.all isDigit then
      some (if negative then -(ofDigits digits : Int) else ofDigits digits)
    else none

/-- A decimal with an optional sign, point and exponent and at least one digit outside the
exponent. -/
def readDecimal? (text : List Char) : Option DecimalText :=
  let (negative, rest) := splitSign text
  let whole := rest.takeWhile isDigit
  let rest := rest.dropWhile isDigit
  let (fraction, rest) := match rest with
    | '.' :: more => (more.takeWhile isDigit, more.dropWhile isDigit)
    | _ => ([], rest)
  if whole.isEmpty && fraction.isEmpty then none
  else (readExponent rest).map fun e =>
    ⟨negative, ofDigits (whole ++ fraction), e - fraction.length⟩

/-- A single-precision number: a decimal, or a word for an infinity or for no number in any
letter case. -/
def readSingle? (text : List Char) : Option Float32 :=
  let (negative, word) := splitSign text
  let word := String.ofList (word.map Char.toLower)
  if word = "inf" || word = "infinity" then
    some (Float32.ofBits (if negative then 0xFF800000 else 0x7F800000))
  else if word = "nan" then some (Float32.ofBits 0x7FC00000)
  else (readDecimal? text).map DecimalText.toSingle

/-- Why a text is no natural number below a bound. -/
inductive NaturalFault where
  | notADigit
  | tooLarge
deriving DecidableEq, Repr

/-- Go on reading digits after the number `n`; the first fault from the left counts. -/
def readDigitsBelow (bound n : Nat) : List Char → Except NaturalFault Nat
  | [] => .ok n
  | c :: rest =>
    if !isDigit c then .error .notADigit
    else if 10 * n + digitValue c < bound then readDigitsBelow bound (10 * n + digitValue c) rest
    else .error .tooLarge

/-- A natural number below `bound`, written with digits after an optional plus sign. -/
def readNatural (bound : Nat) (text : List Char) : Except NaturalFault Nat :=
  let digits := match text with
    | '+' :: rest => rest
    | _ => text
  if digits.isEmpty then .error .notADigit else readDigitsBelow bound 0 digits

end Studio.Number
