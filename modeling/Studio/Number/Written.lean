import Studio.Number.Shortest

/-!
# How decimals are laid out

The digits of a decimal are written positionally or with an exponent. A `Layout` holds the decisions
a format makes about that; the formats of this library are values of it.
-/

namespace Studio.Number

/-- The decisions of a number format. -/
structure Layout where
  /-- The least decimal exponent that is written positionally. -/
  least : Int
  /-- The first decimal exponent that is no longer written positionally. -/
  bound : Int
  /-- Whether an integer written positionally ends in a point and a zero. -/
  pointed : Bool
  /-- Which decimal is written for a value halfway between two of them. -/
  tie : Tie

/-- The characters of a natural number. -/
def natChars (n : Nat) : List Char :=
  Nat.toDigits 10 n

/-- The characters of an integer. -/
def intChars : Int → List Char
  | .ofNat n => natChars n
  | .negSucc n => '-' :: natChars (n + 1)

/-- An integer in decimal. -/
def intText (n : Int) : String :=
  String.ofList (intChars n)

/-- The digits laid out without an exponent, where the point comes after `before` of them. -/
def Layout.positional (layout : Layout) (digits : List Char) (before : Int) : List Char :=
  if before ≤ 0 then '0' :: '.' :: List.replicate (-before).toNat '0' ++ digits
  else if digits.length ≤ before.toNat then
    digits ++ List.replicate (before.toNat - digits.length) '0' ++
      (if layout.pointed then ['.', '0'] else [])
  else digits.take before.toNat ++ '.' :: digits.drop before.toNat

/-- The digits laid out with an exponent: one digit before the point, and a signed exponent. -/
def scientific (digits : List Char) (exponent : Int) : List Char :=
  let fraction := match digits.drop 1 with
    | [] => []
    | more => '.' :: more
  let sign := if exponent < 0 then ['-'] else ['+']
  digits.take 1 ++ fraction ++ 'e' :: sign ++ natChars exponent.natAbs

/-- A decimal as the layout writes it. -/
def Layout.write (layout : Layout) (d : Decimal) : List Char :=
  let digits := natChars d.digits
  let exponent := d.exponent + digits.length - 1
  if d.digits = 0 then if layout.pointed then ['0', '.', '0'] else ['0']
  else if layout.least ≤ exponent && exponent < layout.bound then
    layout.positional digits (exponent + 1)
  else scientific digits exponent

/-- A signed magnitude as the layout writes it. -/
def Layout.signed (layout : Layout) (negative : Bool) (b : Binary) : List Char :=
  let digits := layout.write (b.shortest layout.tie)
  if negative then '-' :: digits else digits

/-- Diagnostics write every finite number positionally and integers without a point; a tie goes
up. -/
def plainLayout : Layout := ⟨-2000, 2000, false, .up⟩

/-- A double as diagnostics show it. -/
def plainText (x : Float) : String :=
  match readDouble x with
  | .finite negative b => String.ofList (plainLayout.signed negative b)
  | .infinite true => "-inf"
  | .infinite false => "inf"
  | .notANumber => "NaN"

end Studio.Number
