import Studio.Proofs.Number.Exactness

/-!
# Finite doubles

A double of at most 64 bits before the point is finite, however its significand is rounded
(`isFinite_ofInt`), and so is the negative of a finite double (`isFinite_neg`).
-/

namespace Studio.Number

open Float.Model
open Float.Model.UnpackedFloat (Sign ExtendedMantissa packComponents roundWithAccuracy
  shiftToTargetExponent unpackExponent_packComponents)

/-- The number is zero, or its exponent is one that a double may have. -/
def Fits : UnpackedFloat → Prop
  | .zero _ => True
  | .finite _ _ e _ => e ≤ 971
  | _ => False

/-- A number that fits also does with the other sign. -/
theorem Fits.neg {u : UnpackedFloat} (h : Fits u) : Fits u.neg := by
  cases u with
  | zero sign => trivial
  | finite sign m e hm => exact h
  | infinity sign => exact h.elim
  | notANumber => exact h.elim

/-- A field of exponents that is not all ones makes a finite number. -/
theorem isFinite_unpack {b : BitVec (Format.numBits .binary64)}
    (h : @UnpackedFloat.unpackExponent .binary64 b ≠ -1#11) :
    (UnpackedFloat.unpack .binary64 b).isFinite = true := by
  unfold UnpackedFloat.unpack
  dsimp only
  rw [if_neg h]
  split
  · split <;> rfl
  · rfl

/-- What fits is finite when it is packed into bits. -/
theorem isFinite_pack {u : UnpackedFloat} (h : Fits u) :
    (Float.ofModel (.pack u)).isFinite = true := by
  show (UnpackedFloat.unpack .binary64 (UnpackedFloat.pack .binary64 u)).isFinite = true
  refine isFinite_unpack ?_
  cases u with
  | zero sign =>
      show UnpackedFloat.unpackExponent (packComponents .binary64 sign 0 0) ≠ _
      rw [unpackExponent_packComponents]
      decide
  | finite sign m e hm =>
      have hbias : e + ((Format.exponentBias .binary64 : Nat) : Int) + ((52 : Nat) : Int) =
          e + 1075 := by
        show e + ((1023 : Nat) : Int) + _ = _
        omega
      have he : e ≤ 971 := h
      have hfield : BitVec.ofNat 11 (e + 1075).toNat ≠ -1#11 := by
        intro hones
        have hones := congrArg BitVec.toNat hones
        rw [BitVec.toNat_ofNat, Nat.mod_eq_of_lt (by omega)] at hones
        have : (e + 1075).toNat = 2047 := hones
        omega
      simp only [UnpackedFloat.pack, hbias]
      rw [if_neg]
      · split <;> rw [unpackExponent_packComponents]
        · exact hfield
        · decide
      · show ¬ 2 ^ 11 ≤ _
        omega
  | infinity sign => exact h.elim
  | notANumber => exact h.elim

/-- A finite double fits. -/
theorem fits_unpack {x : Float} (h : x.isFinite = true) :
    Fits (UnpackedFloat.unpack .binary64 x.toBits.toBitVec) := by
  have hfinite : (UnpackedFloat.unpack .binary64 x.toBits.toBitVec).isFinite = true := h
  unfold UnpackedFloat.unpack at hfinite ⊢
  dsimp only at hfinite ⊢
  generalize @UnpackedFloat.unpackExponent .binary64 x.toBits.toBitVec = field at *
  have hbias : ((Format.exponentBias .binary64 : Nat) : Int) + ((52 : Nat) : Int) = 1075 := rfl
  split
  · next hones =>
    rw [if_pos hones] at hfinite
    split at hfinite <;> cases hfinite
  · next hones =>
    have hfield : field.toNat < 2047 := by
      have hne : field.toNat ≠ 2047 := fun h => hones (BitVec.eq_of_toNat_eq h)
      have hlt : field.toNat < 2 ^ 11 := field.isLt
      omega
    split
    · next hzero =>
      split
      · trivial
      · subst hzero
        show ((0 : Nat) : Int) - (((1023 : Nat) : Int) + ((52 : Nat) : Int)) + 1 ≤ 971
        decide
    · show (_ : Int) ≤ (971 : Int)
      omega

/-- The negative of a finite double is finite. -/
theorem isFinite_neg {x : Float} (h : x.isFinite = true) : (-x).isFinite = true :=
  isFinite_pack (fits_unpack h).neg

/-! ### Rounding -/

/-- Bits that are shifted out make a significand no larger. -/
theorem mantissa_shiftRight_le (em : ExtendedMantissa) (k : Nat) :
    (em >>> k).mantissa ≤ em.mantissa := by
  show (Nat.repeat ExtendedMantissa.shiftRightOne k em).mantissa ≤ _
  induction k with
  | zero => exact Nat.le_refl _
  | succ k ih => exact Nat.le_trans (Nat.div_le_self _ 2) ih

/-- Rounding makes a significand larger by one at most. -/
theorem roundedMantissa_le (em : ExtendedMantissa) : em.roundedMantissa ≤ em.mantissa + 1 := by
  have hparity := Nat.mod_lt em.mantissa (y := 2) (by decide)
  obtain ⟨m, _ | _, _ | _⟩ := em
  all_goals
    simp only [ExtendedMantissa.roundedMantissa, ExtendedMantissa.accuracy,
      UnpackedFloat.Accuracy.roundToNearestEven]
    omega

/-- Shifting makes a significand no larger, and an exponent only as large as the digits ask for. -/
theorem shiftToTargetExponent_le (m : Nat) (e : Int) :
    (shiftToTargetExponent .binary64 m e .exact).1.mantissa ≤ m ∧
      (shiftToTargetExponent .binary64 m e .exact).2 ≤
        max e (max (m.log2 + e - 52) (-1074)) := by
  have htarget : Format.targetExponent .binary64 (totalExponent m e) =
      max (m.log2 + 1 + e - 53) (-1074) := rfl
  refine ⟨mantissa_shiftRight_le _ _, ?_⟩
  simp only [shiftToTargetExponent, UnpackedFloat.shiftToExponent, htarget]
  omega

/-- A number below a power of two is no longer than that. -/
theorem log2_le_of_lt {n k : Nat} (h : n < 2 ^ (k + 1)) : n.log2 ≤ k := by
  cases n with
  | zero => exact Nat.zero_le k
  | succ n => exact Nat.le_of_lt_succ ((Nat.log2_lt (Nat.succ_ne_zero n)).2 h)

/-- A significand of moderate length fits once it is rounded. -/
theorem fits_roundWithAccuracy {m : Nat} {e : Int} (sign : Sign) (hm : m + 1 < 2 ^ 201)
    (he : e ≤ 0) : Fits (roundWithAccuracy .binary64 sign m e .exact) := by
  obtain ⟨hfirst, hexponent⟩ := shiftToTargetExponent_le m e
  simp only [roundWithAccuracy]
  generalize shiftToTargetExponent .binary64 m e .exact = shifted at *
  obtain ⟨em, e₁⟩ := shifted
  dsimp only at hfirst hexponent ⊢
  have hrounded : em.roundedMantissa ≤ m + 1 :=
    (roundedMantissa_le em).trans (Nat.succ_le_succ hfirst)
  -- Rounding up may add a digit, and then the significand is shifted once more.
  have hlog : m.log2 ≤ 200 := log2_le_of_lt ((Nat.lt_succ_self m).trans hm)
  have hlog' : em.roundedMantissa.log2 ≤ 200 := log2_le_of_lt (hrounded.trans_lt hm)
  obtain ⟨-, hsecond⟩ := shiftToTargetExponent_le em.roundedMantissa e₁
  split
  · trivial
  · show _ ≤ (971 : Int)
    omega

/-! ### Integers -/

/-- The double of a natural number of 64 bits is finite. -/
theorem isFinite_ofNat {n : Nat} (h : n < 2 ^ 64) : (Float.ofNat n).isFinite = true := by
  by_cases hsmall : n < 2 ^ 53
  · rcases Nat.eq_zero_or_pos n with rfl | hpos
    · rfl
    · rw [ofNat_eq_toFloat hpos hsmall]
      refine isFinite_pack (show _ ≤ (971 : Int) from ?_)
      exact (wide_of_lt hpos hsmall).most
  · have hpos : n ≠ 0 := by
      rintro rfl
      exact hsmall (by decide)
    have hslow : Float.ofNat n = .ofModel (.pack (UnpackedFloat.ofScientific .binary64 n 0)) := by
      show Float.ofScientific n false 0 = _
      rw [Float.ofScientific, dif_neg fun h => hsmall h.1]
      rfl
    rw [hslow]
    refine isFinite_pack ?_
    unfold UnpackedFloat.ofScientific
    rw [dif_neg hpos, if_neg (by simp), if_neg, if_pos (Int.le_refl 0)]
    · have hbits : Format.mantissaBits .binary64 = 53 := rfl
      simp only [UnpackedFloat.mul, hbits, Nat.shiftLeft_eq, Int.toNat_zero, Nat.pow_zero]
      exact fits_roundWithAccuracy _ (by omega) (by decide)
    · have hbits : (2 : Int) ^ Format.exponentBits .binary64 = 2048 := rfl
      omega

/-- An integer of at most 64 bits is a finite double. -/
theorem isFinite_ofInt {n : Int} (h : n.natAbs < 2 ^ 64) : (Float.ofInt n).isFinite = true := by
  cases n with
  | ofNat n => exact isFinite_ofNat h
  | negSucc n => exact isFinite_neg (isFinite_ofNat h)

end Studio.Number
