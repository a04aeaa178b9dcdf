import Studio.Proofs.Number.Signs

/-!
# Sums and products of integers

As long as the result has at most 53 bits, doubles that are natural numbers are added and multiplied
as these numbers are (`ofNat_add`, `ofNat_mul`).
-/

namespace Studio.Number

open Float.Model
open Float.Model.UnpackedFloat (Sign roundWithAccuracy decreaseExponent)

section

variable {n k : Nat}

/-- A number of at most 53 bits has its first bit among them. -/
theorem log2_le (hpos : 0 < n) (hlt : n < 2 ^ 53) : n.log2 ≤ 52 :=
  Nat.le_of_lt_succ ((Nat.log2_lt (Nat.ne_of_gt hpos)).2 hlt)

/-- The double of a natural number unpacks to that number, moved up to full width. -/
theorem unpack_ofNat (hpos : 0 < n) (hlt : n < 2 ^ 53) : (Float.ofNat n).toModel.unpack =
    .finite .positive (n * 2 ^ (52 - n.log2)) (-(52 - n.log2 : Nat)) (wide_of_lt hpos hlt).pos := by
  rw [ofNat_eq_toFloat hpos hlt]
  exact (wide_of_lt hpos hlt).unpack_pack .positive

/-- A number with zeros behind it is rounded to the number. -/
theorem roundWithAccuracy_natural (hpos : 0 < n) (hlt : n < 2 ^ 53) (h : 52 - n.log2 ≤ k) :
    Float.ofModel (.pack (roundWithAccuracy .binary64 .positive (n * 2 ^ k) (-(k : Int)) .exact)) =
      Float.ofNat n := by
  have hzeros : n * 2 ^ k = n * 2 ^ (52 - n.log2) * 2 ^ (k - (52 - n.log2)) := by
    rw [Nat.mul_assoc, ← Nat.pow_add]
    congr 2
    omega
  have hexponent : -(k : Int) = -(52 - n.log2 : Nat) - (k - (52 - n.log2) : Nat) := by omega
  rw [hzeros, hexponent, (wide_of_lt hpos hlt).round_shifted, ofNat_eq_toFloat hpos hlt]
  rfl

/-- A natural number that was moved up is normalized to its double. -/
theorem normalize_natural (hpos : 0 < n) (hlt : n < 2 ^ 53) (h : 52 - n.log2 ≤ k) :
    Float.ofModel (.pack (.normalize .binary64 ((n * 2 ^ k : Nat) : Int) (-(k : Int)) .positive)) =
      Float.ofNat n := by
  have hlog := log2_le hpos hlt
  have hcompare : compare ((n * 2 ^ k : Nat) : Int) 0 = .gt :=
    Int.compare_eq_gt.2 (Int.natCast_pos.2 (Nat.mul_pos hpos (Nat.two_pow_pos k)))
  have htarget : Format.targetExponent .binary64 (totalExponent (n * 2 ^ k) (-(k : Int))) =
      -(52 - n.log2 : Nat) := by
    show max (((n * 2 ^ k).log2 : Int) + 1 + -(k : Int) - 53) (-1074) = _
    rw [log2_scaled hpos]
    omega
  have hshift : (-(k : Int) - -(52 - n.log2 : Nat)).toNat = 0 := by omega
  rw [UnpackedFloat.normalize, hcompare]
  dsimp only [Int.toNat_natCast]
  rw [UnpackedFloat.round, htarget, decreaseExponent, hshift]
  dsimp only
  rw [Nat.shiftLeft_zero, Int.natCast_zero, Int.sub_zero]
  exact roundWithAccuracy_natural hpos hlt h

/-- Bringing a significand to a smaller exponent puts zeros behind it. -/
theorem decreaseExponent_shifted {k' : Nat} (n : Nat) (h : k ≤ k') :
    decreaseExponent (n * 2 ^ k) (-(k : Int)) (-(k' : Int)) = (n * 2 ^ k', -(k' : Int)) := by
  have hshift : (-(k : Int) - -(k' : Int)).toNat = k' - k := by omega
  rw [decreaseExponent, hshift]
  refine Prod.ext ?_ ?_
  · show (n * 2 ^ k) <<< (k' - k) = _
    rw [Nat.shiftLeft_eq, Nat.mul_assoc, ← Nat.pow_add]
    congr 2
    omega
  · show -(k : Int) - ((k' - k : Nat) : Int) = _
    omega

end

variable {a b : Nat}

/-- Sums of at most 53 bits are exact. -/
theorem ofNat_add (h : a + b < 2 ^ 53) : Float.ofNat a + Float.ofNat b = Float.ofNat (a + b) := by
  rcases Nat.eq_zero_or_pos a with rfl | ha
  · rw [Nat.zero_add]
    exact (Unsigned.ofNat b).zero_add
  rcases Nat.eq_zero_or_pos b with rfl | hb
  · exact (Unsigned.ofNat a).add_zero
  have hla := log2_le ha (by omega)
  have hlb := log2_le hb (by omega)
  have hmono : a.log2 ≤ (a + b).log2 := (Nat.le_log2 (by omega)).2
    (Nat.le_trans (Nat.log2_self_le (Nat.ne_of_gt ha)) (Nat.le_add_right a b))
  have hmin : min (-((52 - a.log2 : Nat) : Int)) (-((52 - b.log2 : Nat) : Int)) =
      -((52 - min a.log2 b.log2 : Nat) : Int) := by omega
  have hmantissa (m k : Nat) : Sign.positive.apply (m * 2 ^ k : Nat) = ((m * 2 ^ k : Nat) : Int) :=
    rfl
  rw [add_eq, unpack_ofNat ha (by omega), unpack_ofNat hb (by omega), UnpackedFloat.add]
  dsimp only
  rw [hmin, decreaseExponent_shifted a (by omega), decreaseExponent_shifted b (by omega)]
  dsimp only
  rw [hmantissa, hmantissa, ← Int.natCast_add, ← Nat.add_mul]
  exact normalize_natural (by omega) h (by omega)

/-- Products of at most 53 bits are exact. -/
theorem ofNat_mul (ha : a < 2 ^ 53) (hb : b < 2 ^ 53) (h : a * b < 2 ^ 53) :
    Float.ofNat a * Float.ofNat b = Float.ofNat (a * b) := by
  rw [mul_eq]
  rcases Nat.eq_zero_or_pos a with rfl | hpa
  · rw [Nat.zero_mul, unpack_zero]
    rcases Nat.eq_zero_or_pos b with rfl | hpb
    · rfl
    · rw [unpack_ofNat hpb hb]
      rfl
  rcases Nat.eq_zero_or_pos b with rfl | hpb
  · rw [Nat.mul_zero, unpack_zero, unpack_ofNat hpa ha]
    rfl
  have hlog : a.log2 + b.log2 ≤ (a * b).log2 := by
    refine (Nat.le_log2 (Nat.ne_of_gt (Nat.mul_pos hpa hpb))).2 ?_
    rw [Nat.pow_add]
    exact Nat.mul_le_mul (Nat.log2_self_le (Nat.ne_of_gt hpa))
      (Nat.log2_self_le (Nat.ne_of_gt hpb))
  have hla := log2_le hpa ha
  have hlb := log2_le hpb hb
  have hmantissa : a * 2 ^ (52 - a.log2) * (b * 2 ^ (52 - b.log2)) =
      a * b * 2 ^ (52 - a.log2 + (52 - b.log2)) := by
    rw [Nat.pow_add]
    ring
  have hexponent : -((52 - a.log2 : Nat) : Int) + -((52 - b.log2 : Nat) : Int) =
      -((52 - a.log2 + (52 - b.log2) : Nat) : Int) := by omega
  rw [unpack_ofNat hpa ha, unpack_ofNat hpb hb, UnpackedFloat.mul, hmantissa, hexponent]
  exact roundWithAccuracy_natural (Nat.mul_pos hpa hpb) h (by omega)

end Studio.Number
