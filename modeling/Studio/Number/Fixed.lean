import Studio.Number.Written

/-!
# Numbers with a fixed number of places

A double is rounded to a number of decimal places; a tie goes to the even neighbour. Main statement:
`roundDiv_error` says that rounding is off by half a unit at most.
-/

namespace Studio.Number

/-- The quotient of two naturals, rounded to the nearest; a tie goes to the even neighbour. -/
def roundDiv (num den : Nat) : Nat :=
  let quotient := num / den
  let twice := 2 * (num % den)
  if den < twice || (twice == den && quotient % 2 == 1) then quotient + 1 else quotient

/-- A binary value in units of `10^-places`, rounded to the nearest. -/
def Binary.rounded (places : Nat) (b : Binary) : Nat :=
  if 0 ≤ b.exponent then b.significand * Nat.pow 2 b.exponent.toNat * Nat.pow 10 places
  else roundDiv (b.significand * Nat.pow 10 places) (Nat.pow 2 (-b.exponent).toNat)

/-- Digits with zeros in front up to a width. -/
def zeroPadded (width n : Nat) : List Char :=
  let digits := natChars n
  List.replicate (width - digits.length) '0' ++ digits

/-- A double with a fixed number of decimal places, at least one. -/
def fixedText (places : Nat) (x : Float) : String :=
  match readDouble x with
  | .finite negative b =>
    let n := b.rounded places
    let unit := Nat.pow 10 places
    String.ofList ((if negative then ['-'] else []) ++ natChars (n / unit) ++
      '.' :: zeroPadded places (n % unit))
  | .infinite true => "-inf"
  | .infinite false => "inf"
  | .notANumber => "NaN"

/-- Rounding is off by half a unit at most. -/
theorem roundDiv_error (num den : Nat) (h : 0 < den) :
    2 * (roundDiv num den * den) ≤ 2 * num + den ∧
      2 * num ≤ 2 * (roundDiv num den * den) + den := by
  have hsplit := Nat.div_add_mod num den
  have hlt := Nat.mod_lt num h
  simp only [roundDiv]
  generalize num / den = q at *
  generalize num % den = r at *
  split
  · next hc =>
    simp only [Bool.or_eq_true, decide_eq_true_eq, Bool.and_eq_true, beq_iff_eq] at hc
    have : (q + 1) * den = den * q + den := by rw [Nat.add_mul, Nat.mul_comm, Nat.one_mul]
    omega
  · next hc =>
    simp only [Bool.or_eq_true, decide_eq_true_eq, Bool.and_eq_true, beq_iff_eq, not_or] at hc
    have : q * den = den * q := Nat.mul_comm _ _
    omega

end Studio.Number
