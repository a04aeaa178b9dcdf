import Studio.Proofs.Number.Exactness
import Studio.Script.Value

/-!
# Doubles in order

A double is a rational number, lies beyond all of them, or is no number (`value?`). Comparing two
doubles compares their values (`compareNumbers_eq`): the order that the machine finds from sign,
exponent and significand is that of the values, as every reading is `Canonical`.
-/

namespace Studio.Number

open Float.Model
open Float.Model.UnpackedFloat (Sign unpackSign unpackExponent unpackMantissa)

/-! ### Values -/

/-- The value of a magnitude. -/
def Binary.value (b : Binary) : ℚ :=
  b.significand * 2 ^ b.exponent

/-- The value of a reading, if it is a number: a rational one, or one beyond all of these. -/
def Reading.value? : Reading → Option (WithBot (WithTop ℚ))
  | .finite negative b => some ((if negative then -b.value else b.value : ℚ) : WithTop ℚ)
  | .infinite true => some ⊥
  | .infinite false => some ⊤
  | .notANumber => none

/-- The value of a double, if it is a number. -/
def value? (x : Float) : Option (WithBot (WithTop ℚ)) :=
  (readDouble x).value?

namespace Binary

/-- The magnitudes that doubles have: the significand has its full width, unless the exponent is the
least one. -/
structure Canonical (b : Binary) : Prop where
  high : b.significand < 2 ^ 53
  least : -1074 ≤ b.exponent
  low : b.exponent = -1074 ∨ 2 ^ 52 ≤ b.significand

/-- The fields of a double make a canonical number. -/
theorem canonical_ofFields {field fraction : Nat} (h : fraction < 2 ^ 52) :
    (ofFields 52 (-1074) field fraction).Canonical := by
  unfold ofFields
  split
  · exact ⟨by dsimp only; omega, by simp, .inl rfl⟩
  · refine ⟨?_, ?_, .inr ?_⟩ <;> simp only [Nat.pow_eq] <;> omega

/-- A number without a significand is zero. -/
theorem value_eq_zero {b : Binary} (h : b.significand = 0) : b.value = 0 := by
  rw [value, h, Nat.cast_zero, zero_mul]

/-- A number with a significand is positive. -/
theorem value_pos {b : Binary} (h : 0 < b.significand) : 0 < b.value := by
  unfold value
  positivity

/-- A larger exponent outweighs any significand. -/
theorem value_lt_of_exponent_lt {a b : Binary} (ha : a.Canonical) (hb : b.Canonical)
    (h : a.exponent < b.exponent) : a.value < b.value := by
  have hlow : 2 ^ 52 ≤ b.significand := hb.low.resolve_left (by have := ha.least; omega)
  calc (a.significand : ℚ) * 2 ^ a.exponent
      < 2 ^ 53 * 2 ^ a.exponent := by
        have hhigh := ha.high
        gcongr
        exact_mod_cast hhigh
    _ = 2 ^ 52 * 2 ^ (a.exponent + 1) := by
        rw [zpow_add₀ two_ne_zero]
        ring
    _ ≤ 2 ^ 52 * 2 ^ b.exponent := by
        gcongr
        · norm_num
        · exact h
    _ ≤ b.significand * 2 ^ b.exponent := by
        gcongr
        exact_mod_cast hlow

/-- Of two numbers with one exponent, that with the smaller significand is less. -/
theorem value_lt_of_significand_lt {a b : Binary} (hexponent : a.exponent = b.exponent)
    (h : a.significand < b.significand) : a.value < b.value := by
  rw [value, value, hexponent]
  gcongr

/-- Magnitudes are in the order of their exponents, and of their significands where these agree. -/
theorem cmp_value {a b : Binary} (ha : a.Canonical) (hb : b.Canonical) :
    cmp a.value b.value =
      (compare a.exponent b.exponent).then (compare a.significand b.significand) := by
  rcases lt_trichotomy a.exponent b.exponent with he | he | he
  · rw [compare_lt_iff_lt.2 he]
    exact (cmp_eq_lt_iff _ _).2 (value_lt_of_exponent_lt ha hb he)
  · rw [compare_eq_iff_eq.2 he]
    rcases lt_trichotomy a.significand b.significand with hs | hs | hs
    · rw [compare_lt_iff_lt.2 hs]
      exact (cmp_eq_lt_iff _ _).2 (value_lt_of_significand_lt he hs)
    · rw [compare_eq_iff_eq.2 hs]
      exact (cmp_eq_eq_iff _ _).2 (by rw [value, value, he, hs])
    · rw [compare_gt_iff_gt.2 hs]
      exact (cmp_eq_gt_iff _ _).2 (value_lt_of_significand_lt he.symm hs)
  · rw [compare_gt_iff_gt.2 he]
    exact (cmp_eq_gt_iff _ _).2 (value_lt_of_exponent_lt hb ha he)

end Binary

/-! ### Bits -/

/-- The reading in terms of the fields that unpacking looks at. -/
theorem readDouble_eq (x : Float) :
    readDouble x =
      let bits := x.toBits.toBitVec
      let negative := Sign.ofBitVec (@unpackSign .binary64 bits) == .negative
      let exponent := @unpackExponent .binary64 bits
      let mantissa := @unpackMantissa .binary64 bits
      if exponent = -1#11 then if mantissa = 0#52 then .infinite negative else .notANumber
      else .finite negative (Binary.ofFields 52 (-1074) exponent.toNat mantissa.toNat) := by
  have hnegative : (x.toBits.toNat / 0x8000000000000000 == 1) =
      (Sign.ofBitVec (@unpackSign .binary64 x.toBits.toBitVec) == .negative) := by
    have hone (sign : BitVec 1) : (sign.toNat == 1) = (Sign.ofBitVec sign == .negative) := by
      revert sign
      decide
    rw [← hone, toNat_unpackSign]
    rfl
  have hexponent : x.toBits.toNat / 0x10000000000000 % 0x800 =
      (@unpackExponent .binary64 x.toBits.toBitVec).toNat :=
    (toNat_unpackExponent _).symm
  have hmantissa : x.toBits.toNat % 0x10000000000000 =
      (@unpackMantissa .binary64 x.toBits.toBitVec).toNat :=
    (toNat_unpackMantissa _).symm
  simp only [readDouble, hnegative, hexponent, hmantissa, ← BitVec.toNat_inj]
  rfl

/-- What a double unpacks to has a certain reading. -/
inductive Unpacks : UnpackedFloat → Reading → Prop
  | notANumber : Unpacks .notANumber .notANumber
  | infinite (sign : Sign) : Unpacks (.infinity sign) (.infinite (sign == .negative))
  | zero (sign : Sign) {b : Binary} (h : b.significand = 0) :
      Unpacks (.zero sign) (.finite (sign == .negative) b)
  | finite (sign : Sign) {b : Binary} {m : Nat} {e : Int} (hpos : 0 < m)
      (canonical : b.Canonical) (hm : m = b.significand) (he : e = b.exponent) :
      Unpacks (.finite sign m e hpos) (.finite (sign == .negative) b)

/-- What a double unpacks to is what is read of it. -/
theorem unpacks (x : Float) : Unpacks x.toModel.unpack (readDouble x) := by
  rw [readDouble_eq]
  show Unpacks (UnpackedFloat.unpack .binary64 x.toBits.toBitVec) _
  generalize x.toBits.toBitVec = bits
  have hcanonical := @Binary.canonical_ofFields (@unpackExponent .binary64 bits).toNat _
    (@unpackMantissa .binary64 bits).isLt
  unfold UnpackedFloat.unpack
  dsimp only
  split
  · split
    · exact .infinite _
    · exact .notANumber
  · split
    · next hzero =>
      rw [hzero] at hcanonical ⊢
      split
      · next hnone => exact .zero _ (by rw [hnone]; rfl)
      · exact .finite _ _ hcanonical rfl rfl
    · next hzero =>
      -- A significand of full width, the first bit of which is not written.
      have hne : (@unpackExponent .binary64 bits).toNat ≠ 0 := fun h =>
        hzero (BitVec.eq_of_toNat_eq h)
      refine .finite _ _ hcanonical ?_ ?_
      · rw [Binary.ofFields, if_neg hne, BitVec.toNat_append,
          ← Nat.shiftLeft_add_eq_or_of_lt (BitVec.isLt _)]
        rfl
      · rw [Binary.ofFields, if_neg hne]
        show _ - ((1023 : Int) + 52) =
          -1074 + (((@unpackExponent .binary64 bits).toNat - 1 : Nat) : Int)
        omega

/-! ### The order -/

/-- Rational numbers compare alike among the infinities. -/
theorem cmp_coe (p q : ℚ) :
    cmp ((p : WithTop ℚ) : WithBot (WithTop ℚ)) ((q : WithTop ℚ) : WithBot (WithTop ℚ)) =
      cmp p q :=
  (WithBot.coe_strictMono.comp WithTop.coe_strictMono).cmp_map_eq p q

/-- The machine compares values. -/
theorem Unpacks.compare_eq {u v : UnpackedFloat} {r s : Reading} (hu : Unpacks u r)
    (hv : Unpacks v s) : u.compare v = r.value?.bind fun x => s.value?.map (cmp x) := by
  cases hu with
  | notANumber => simp [UnpackedFloat.compare, Reading.value?]
  | infinite sign =>
    cases hv with
    | notANumber => simp [UnpackedFloat.compare, Reading.value?]
    | infinite sign' => cases sign <;> cases sign' <;> rfl
    | zero | finite => cases sign <;> rfl
  | zero sign h =>
    cases hv with
    | notANumber => simp [UnpackedFloat.compare, Reading.value?]
    | infinite sign' => cases sign' <;> rfl
    | zero sign' h' =>
      simp only [Reading.value?, Binary.value_eq_zero h, Binary.value_eq_zero h', neg_zero,
        ite_self, Option.bind_some, Option.map_some, cmp_self_eq_eq]
      rfl
    | finite sign' hpos canonical hm he =>
      have hvalue := Binary.value_pos (hm ▸ hpos)
      simp only [Reading.value?, Binary.value_eq_zero h, neg_zero, ite_self, Option.bind_some,
        Option.map_some, cmp_coe]
      cases sign' with
      | negative => exact congrArg some ((cmp_eq_gt_iff _ _).2 (neg_neg_of_pos hvalue)).symm
      | positive => exact congrArg some ((cmp_eq_lt_iff _ _).2 hvalue).symm
  | finite sign hpos canonical hm he =>
    cases hv with
    | notANumber => simp [UnpackedFloat.compare, Reading.value?]
    | infinite sign' => cases sign <;> cases sign' <;> rfl
    | zero sign' h =>
      have hvalue := Binary.value_pos (hm ▸ hpos)
      simp only [Reading.value?, Binary.value_eq_zero h, neg_zero, ite_self, Option.bind_some,
        Option.map_some, cmp_coe]
      cases sign with
      | negative => exact congrArg some ((cmp_eq_lt_iff _ _).2 (neg_neg_of_pos hvalue)).symm
      | positive => exact congrArg some ((cmp_eq_gt_iff _ _).2 hvalue).symm
    | finite sign' hpos' canonical' hm' he' =>
      have hvalue := Binary.value_pos (hm ▸ hpos)
      have hvalue' := Binary.value_pos (hm' ▸ hpos')
      have hcmp := Binary.cmp_value canonical canonical'
      rw [← hm, ← he, ← hm', ← he'] at hcmp
      simp only [Reading.value?, Option.bind_some, Option.map_some, cmp_coe]
      cases sign <;> cases sign'
      · -- Of two negative numbers the one of greater magnitude is the smaller one.
        refine congrArg some ?_
        show _ = cmp (-_) (-_)
        rw [StrictAnti.cmp_map_eq (fun _ _ => neg_lt_neg), ← cmp_swap, hcmp]
      · exact congrArg some ((cmp_eq_lt_iff _ _).2 ((neg_neg_of_pos hvalue).trans hvalue')).symm
      · exact congrArg some ((cmp_eq_gt_iff _ _).2 ((neg_neg_of_pos hvalue').trans hvalue)).symm
      · exact congrArg some hcmp.symm

/-- One double is less than another just when both have values and the first is less. -/
theorem lt_iff_cmp {a b : Float} :
    a < b ↔ ((value? a).bind fun x => (value? b).map (cmp x)) = some .lt := by
  show decide (a.toModel < b.toModel) = true ↔ _
  rw [decide_eq_true_eq]
  show (a.toModel.unpack.compare b.toModel.unpack == some .lt) = true ↔ _
  rw [beq_iff_eq, (unpacks a).compare_eq (unpacks b)]
  rfl

/-- Two doubles are equal just when both have values and these are equal. -/
theorem beq_iff_cmp {a b : Float} :
    (a == b) = true ↔ ((value? a).bind fun x => (value? b).map (cmp x)) = some .eq := by
  show (a.toModel.unpack.compare b.toModel.unpack == some .eq) = true ↔ _
  rw [beq_iff_eq, (unpacks a).compare_eq (unpacks b)]
  rfl

/-- Two doubles are compared by their values; what is no number has no place in the order. -/
theorem compareNumbers_eq (a b : Float) :
    Script.compareNumbers a b = (value? a).bind fun x => (value? b).map (cmp x) := by
  unfold Script.compareNumbers
  simp only [lt_iff_cmp, beq_iff_cmp]
  cases value? a with
  | none => simp
  | some x =>
    cases value? b with
    | none => simp
    | some y =>
      rcases lt_trichotomy x y with h | h | h
      · simp [(cmp_eq_lt_iff _ _).2 h]
      · simp [(cmp_eq_eq_iff _ _).2 h]
      · simp [(cmp_eq_gt_iff _ _).2 h, (cmp_eq_lt_iff _ _).2 h]

end Studio.Number
