import Studio.Number.Binary

/-!
# The fewest digits that read back

A binary value stands for the interval of reals that round to it. `Binary.shortest` finds the
decimal with the fewest digits in that interval, and of two such decimals the one nearer to the
value, by exact arithmetic on natural numbers. Where both are equally near, the caller says which
one is taken.
-/

namespace Studio.Number

/-- The decimal `digits · 10^exponent`. -/
structure Decimal where
  digits : Nat
  exponent : Int
deriving DecidableEq, Repr

/-- Which of two neighbouring decimals is taken when a value lies halfway between them. -/
inductive Tie where
  /-- The one whose last digit is even. -/
  | toEven
  /-- The greater one. -/
  | up
deriving DecidableEq, Repr

/-- Whether the lower one of two neighbouring decimals, which has the given digits, is taken when a
value lies halfway between them. -/
def Tie.takesLower (tie : Tie) (digits : Nat) : Bool :=
  match tie with
  | .toEven => digits % 2 == 0
  | .up => false

/-- The comparison of `a · 10^i` with `b · 2^j`. -/
def compareScaled (a : Nat) (i : Int) (b : Nat) (j : Int) : Ordering :=
  compare (a * Nat.pow 10 i.toNat * Nat.pow 2 (-j).toNat)
    (b * Nat.pow 2 j.toNat * Nat.pow 10 (-i).toNat)

namespace Binary

/-- Whether a decimal lies in the interval of reals that round to the value, to nearest with ties to
the even significand. -/
def readsBack (b : Binary) (d : Decimal) : Bool :=
  let low := if b.narrowBelow then 4 * b.significand - 1 else 4 * b.significand - 2
  let high := 4 * b.significand + 2
  let closed := b.significand % 2 == 0
  let atLow := compareScaled d.digits d.exponent low (b.exponent - 2)
  let atHigh := compareScaled d.digits d.exponent high (b.exponent - 2)
  (atLow == .gt || (closed && atLow == .eq)) && (atHigh == .lt || (closed && atHigh == .eq))

/-- The first `k`, counting up from `start` for at most `steps`, with the value below `10^k`. -/
def scaleFrom (b : Binary) : Nat → Int → Int
  | 0, start => start
  | steps + 1, start =>
    if compareScaled 1 start b.significand b.exponent == .gt then start
    else scaleFrom b steps (start + 1)

/-- The least `k` with the value below `10^k`, for a value that is not zero. The search starts from
an estimate by binary logarithms that is at most four too low. -/
def scale (b : Binary) : Int :=
  scaleFrom b 8 (((b.significand.log2 : Int) + b.exponent) * 30103 / 100000 - 3)

/-- The greatest multiple of `10^e` that is not above the value, divided by `10^e`. -/
def quotient (b : Binary) (e : Int) : Nat :=
  (b.significand * Nat.pow 2 b.exponent.toNat * Nat.pow 10 (-e).toNat) /
    (Nat.pow 2 (-b.exponent).toNat * Nat.pow 10 e.toNat)

/-- The decimal on the grid `10^e` that reads back to the value and lies nearer to it. -/
def onGrid (tie : Tie) (b : Binary) (e : Int) : Option Decimal :=
  let below : Decimal := ⟨b.quotient e, e⟩
  let above : Decimal := ⟨b.quotient e + 1, e⟩
  match b.readsBack below, b.readsBack above with
  | true, true =>
    match compareScaled (2 * b.quotient e + 1) e (2 * b.significand) b.exponent with
    | .lt => some above
    | .eq => if tie.takesLower (b.quotient e) then some below else some above
    | .gt => some below
  | true, false => some below
  | false, true => some above
  | false, false => none

/-- The first hit on the grids `10^e`, `10^(e-1)`, …; after the last of them the exact value. -/
def searchFrom (tie : Tie) (b : Binary) : Nat → Int → Decimal
  | 0, _ =>
    ⟨b.significand * Nat.pow 2 b.exponent.toNat * Nat.pow 5 (-b.exponent).toNat, min 0 b.exponent⟩
  | grids + 1, e => (b.onGrid tie e).getD (searchFrom tie b grids (e - 1))

/-- Move the trailing zeros of the digits, at most `steps` of them, into the exponent. -/
def stripZeros : Nat → Decimal → Decimal
  | 0, d => d
  | steps + 1, d =>
    if d.digits % 10 == 0 && d.digits != 0 then stripZeros steps ⟨d.digits / 10, d.exponent + 1⟩
    else d

/-- The decimal with the fewest digits that reads back to the value. -/
def shortest (tie : Tie) (b : Binary) : Decimal :=
  if b.significand = 0 then ⟨0, 0⟩
  else stripZeros 800 (searchFrom tie b 17 (b.scale - 1))

end Binary

end Studio.Number
