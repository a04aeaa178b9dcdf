import Mathlib
import Studio.Number.Reading
import Studio.Number.Written

/-!
# Integers as doubles

An integer below `2^53` is a double without rounding: what `Float.ofInt` makes of it reads as the
integer again (`asInteger?_ofInt`), and its decimal digits read as that double (`toDouble_decimal`).
The doubles in question have significands of full width (`Wide`). Packing such a double into bits
and unpacking it gives it back (`Wide.unpack_pack`), and rounding does not change it
(`Wide.round_shifted`). The library's own lemmas on the fields of floats, such as
`unpackSign_packComponents`, come only with all of Mathlib.
-/

namespace Studio.Number

open Float.Model
open Float.Model.UnpackedFloat (Sign ExtendedMantissa packComponents unpackSign unpackExponent
  unpackMantissa roundWithAccuracy shiftToTargetExponent)

/-! ### Fields of bits -/

/-- The bits of a double are its sign, its exponent and its significand in this order. -/
theorem toNat_packComponents (sign : Sign) (exponent : BitVec 11) (mantissa : BitVec 52) :
    (packComponents .binary64 sign exponent mantissa).toNat =
      sign.toBitVec.toNat * 2 ^ 63 + exponent.toNat * 2 ^ 52 + mantissa.toNat := by
  show ((sign.toBitVec ++ exponent) ++ mantissa).toNat = _
  rw [BitVec.toNat_append, BitVec.toNat_append, ← Nat.shiftLeft_add_eq_or_of_lt mantissa.isLt,
    ← Nat.shiftLeft_add_eq_or_of_lt exponent.isLt, Nat.shiftLeft_eq, Nat.shiftLeft_eq]
  omega

/-- The significand is the lowest 52 bits. -/
theorem toNat_unpackMantissa (bits : BitVec 64) :
    (@unpackMantissa .binary64 bits).toNat = bits.toNat % 2 ^ 52 := by
  rw [UnpackedFloat.unpackMantissa_def, BitVec.extractLsb'_toNat, Nat.shiftRight_zero]

/-- The exponent is the eleven bits above these. -/
theorem toNat_unpackExponent (bits : BitVec 64) :
    (@unpackExponent .binary64 bits).toNat = bits.toNat / 2 ^ 52 % 2 ^ 11 := by
  rw [UnpackedFloat.unpackExponent_def, BitVec.extractLsb'_toNat, Nat.shiftRight_eq_div_pow]

/-- The sign is the uppermost bit. -/
theorem toNat_unpackSign (bits : BitVec 64) :
    (@unpackSign .binary64 bits).toNat = bits.toNat / 2 ^ 63 := by
  rw [UnpackedFloat.unpackSign_def, BitVec.extractLsb'_toNat, Nat.shiftRight_eq_div_pow]
  show bits.toNat / 2 ^ 63 % 2 ^ 1 = _
  have hlt := bits.isLt
  omega

/-! ### Significands of full width -/

/-- Doubling a number some times makes it longer by as many bits. -/
theorem log2_scaled {n : Nat} (hpos : 0 < n) (k : Nat) : (n * 2 ^ k).log2 = n.log2 + k := by
  obtain ⟨hlow, hhigh⟩ := (Nat.log2_eq_iff (Nat.ne_of_gt hpos)).1 rfl
  refine (Nat.log2_eq_iff (Nat.ne_of_gt (Nat.mul_pos hpos (Nat.two_pow_pos k)))).2 ⟨?_, ?_⟩
  · rw [Nat.pow_add]
    exact Nat.mul_le_mul_right _ hlow
  · rw [Nat.add_right_comm, Nat.pow_add]
    exact Nat.mul_lt_mul_of_pos_right hhigh (Nat.two_pow_pos k)

/-- A significand of 53 bits, with an exponent that a double may have. -/
structure Wide (m : Nat) (e : Int) : Prop where
  low : 2 ^ 52 ≤ m
  high : m < 2 ^ 53
  least : -1074 ≤ e
  most : e ≤ 971

namespace Wide

variable {m : Nat} {e : Int}

/-- A significand of full width is positive. -/
theorem pos (h : Wide m e) : 0 < m :=
  Nat.lt_of_lt_of_le (Nat.two_pow_pos 52) h.low

/-- A significand that is moved up has as many bits more. -/
theorem log2_shifted (h : Wide m e) (k : Nat) : (m * 2 ^ k).log2 = 52 + k := by
  have hlog : m.log2 = 52 := (Nat.log2_eq_iff (Nat.ne_of_gt h.pos)).2 ⟨h.low, h.high⟩
  rw [log2_scaled h.pos, hlog]

/-- Zeros that are shifted out leave no trace. -/
theorem shiftRight_exact (m k : Nat) :
    (⟨m * 2 ^ k, false, false⟩ : ExtendedMantissa) >>> k = ⟨m, false, false⟩ := by
  show Nat.repeat ExtendedMantissa.shiftRightOne k ⟨m * 2 ^ k, false, false⟩ = _
  induction k generalizing m with
  | zero => simp [Nat.repeat]
  | succ k ih =>
      have hm : m * 2 ^ (k + 1) = m * 2 * 2 ^ k := by
        rw [Nat.pow_succ, Nat.mul_assoc, Nat.mul_comm 2]
      rw [Nat.repeat, hm, ih]
      simp [ExtendedMantissa.shiftRightOne]

/-- A significand that is moved up is moved back without loss. -/
theorem shift_shifted (h : Wide m e) (k : Nat) :
    shiftToTargetExponent .binary64 (m * 2 ^ k) (e - k) .exact = (⟨m, false, false⟩, e) := by
  have htarget : Format.targetExponent .binary64 (totalExponent (m * 2 ^ k) (e - k)) = e := by
    have hleast := h.least
    show max (totalExponent (m * 2 ^ k) (e - k) - 53) (-1074) = e
    rw [totalExponent, h.log2_shifted]
    omega
  have hk : (e - (e - (k : Int))).toNat = k := by omega
  rw [shiftToTargetExponent, htarget, UnpackedFloat.shiftToExponent, hk,
    ExtendedMantissa.ofMantissaAndAccuracy, shiftRight_exact, Int.sub_add_cancel]

/-- Rounding changes nothing, also when the significand has zeros behind its 53 bits. -/
theorem round_shifted (h : Wide m e) (sign : Sign) (k : Nat) :
    roundWithAccuracy .binary64 sign (m * 2 ^ k) (e - k) .exact = .finite sign m e h.pos := by
  have hagain := h.shift_shifted 0
  rw [Nat.pow_zero, Nat.mul_one, Int.natCast_zero, Int.sub_zero] at hagain
  have hrounded : ExtendedMantissa.roundedMantissa ⟨m, false, false⟩ = m := rfl
  simp only [roundWithAccuracy, h.shift_shifted]
  show (if h : _ then _ else _) = _
  simp [hrounded, hagain, Nat.ne_of_gt h.pos]

/-- The bits: a sign, an exponent, and the significand without its first bit. -/
theorem pack_eq (h : Wide m e) (sign : Sign) :
    UnpackedFloat.pack .binary64 (.finite sign m e h.pos) =
      packComponents .binary64 sign (BitVec.ofNat 11 (e + 1075).toNat) (BitVec.ofNat 52 m) := by
  have hbias : e + ((Format.exponentBias .binary64 : Nat) : Int) + ((52 : Nat) : Int) =
      e + 1075 := by
    show e + ((1023 : Nat) : Int) + _ = _
    omega
  have hlog := h.log2_shifted 0
  have hmost := h.most
  rw [Nat.pow_zero, Nat.mul_one] at hlog
  simp only [UnpackedFloat.pack, hbias]
  rw [if_neg, if_pos]
  · rw [hlog]
    rfl
  · show ¬ 2 ^ 11 ≤ _
    omega

/-- The field of the exponent is neither that of zero nor that of infinity. -/
theorem exponentField (h : Wide m e) :
    (BitVec.ofNat 11 (e + 1075).toNat).toNat = (e + 1075).toNat ∧
      1 ≤ (e + 1075).toNat ∧ (e + 1075).toNat ≤ 2046 := by
  obtain ⟨-, -, hleast, hmost⟩ := h
  rw [BitVec.toNat_ofNat, Nat.mod_eq_of_lt]
  all_goals omega

/-- What is stored of a significand is all but its first bit. -/
theorem significandField (h : Wide m e) : (BitVec.ofNat 52 m).toNat = m - 2 ^ 52 := by
  obtain ⟨hlow, hhigh, -, -⟩ := h
  rw [BitVec.toNat_ofNat]
  omega

/-- What is packed is unpacked again. -/
theorem unpack_pack (h : Wide m e) (sign : Sign) :
    UnpackedFloat.unpack .binary64 (UnpackedFloat.pack .binary64 (.finite sign m e h.pos)) =
      .finite sign m e h.pos := by
  obtain ⟨hfield, hleast, hmost⟩ := h.exponentField
  have hne {b : BitVec 11} (hb : b.toNat ≠ (e + 1075).toNat) :
      BitVec.ofNat 11 (e + 1075).toNat ≠ b := by
    rintro rfl
    exact hb hfield
  have hones : BitVec.ofNat 11 (e + 1075).toNat ≠ -1#11 := by
    refine hne ?_
    show 2047 ≠ _
    omega
  have hzero : BitVec.ofNat 11 (e + 1075).toNat ≠ 0#11 := by
    refine hne ?_
    show 0 ≠ _
    omega
  have hsignificand : (1#1 ++ BitVec.ofNat 52 m).toNat = m := by
    have hlow := h.low
    rw [BitVec.toNat_append, ← Nat.shiftLeft_add_eq_or_of_lt (BitVec.isLt _), h.significandField,
      BitVec.toNat_ofNat, Nat.shiftLeft_eq]
    omega
  rw [h.pack_eq]
  simp only [UnpackedFloat.unpack, UnpackedFloat.unpackMantissa_packComponents,
    UnpackedFloat.unpackExponent_packComponents, UnpackedFloat.unpackSign_packComponents,
    Sign.ofBitVec_toBitVec]
  rw [if_neg hones, if_neg hzero]
  congr 1
  rw [hfield]
  show _ - (((1023 : Nat) : Int) + ((52 : Nat) : Int)) = _
  omega

/-- The double with a sign and a significand of full width. -/
def toFloat (h : Wide m e) (sign : Sign) : Float :=
  .ofModel (.pack (.finite sign m e h.pos))

/-- A double with a significand of full width is read as it was made. -/
theorem readDouble_toFloat (h : Wide m e) (sign : Sign) : ∃ narrow,
    readDouble (h.toFloat sign) = .finite (sign == .negative) ⟨m, e, narrow⟩ := by
  have hbits : (h.toFloat sign).toBits.toNat =
      sign.toBitVec.toNat * 2 ^ 63 + (e + 1075).toNat * 2 ^ 52 + (m - 2 ^ 52) := by
    show (UnpackedFloat.pack .binary64 (.finite sign m e h.pos)).toNat = _
    rw [h.pack_eq, toNat_packComponents, h.exponentField.1, h.significandField]
  obtain ⟨-, hfirst, hlast⟩ := h.exponentField
  have hlow := h.low
  have hhigh := h.high
  have hnegative : ((h.toFloat sign).toBits.toNat / 0x8000000000000000 == 1) =
      (sign == .negative) := by
    have hquotient : (h.toFloat sign).toBits.toNat / 0x8000000000000000 =
        sign.toBitVec.toNat := by
      rw [hbits]
      omega
    rw [hquotient]
    cases sign <;> rfl
  have hfield : (h.toFloat sign).toBits.toNat / 0x10000000000000 % 0x800 = (e + 1075).toNat := by
    rw [hbits]
    omega
  have hfraction : (h.toFloat sign).toBits.toNat % 0x10000000000000 = m - 2 ^ 52 := by
    rw [hbits]
    omega
  have hsignificand : 2 ^ 52 + (m - 2 ^ 52) = m := by omega
  have hexponent : -1074 + (((e + 1075).toNat - 1 : Nat) : Int) = e := by omega
  refine ⟨m - 2 ^ 52 == 0 && (e + 1075).toNat != 1, ?_⟩
  simp only [readDouble, hfield, hfraction, hnegative, Binary.ofFields]
  rw [if_neg (by omega), if_neg (by omega)]
  simp only [Nat.pow_eq, hsignificand, hexponent]

/-- A double is negated by its sign. -/
theorem neg_toFloat (h : Wide m e) (sign : Sign) : -h.toFloat sign = h.toFloat (-sign) := by
  show Float.ofModel (.pack (UnpackedFloat.neg (UnpackedFloat.unpack .binary64
    (UnpackedFloat.pack .binary64 (.finite sign m e h.pos))))) = _
  rw [h.unpack_pack]
  rfl

/-- One has a significand of full width. -/
theorem one : Wide (2 ^ 52) (-52) := by
  constructor <;> decide

/-- To multiply by one changes nothing. -/
theorem mul_one (h : Wide m e) :
    h.toFloat .positive * Float.ofBits 0x3FF0000000000000 = h.toFloat .positive := by
  have hone : Float.ofBits 0x3FF0000000000000 = one.toFloat .positive := rfl
  rw [hone]
  show Float.ofModel (.pack (UnpackedFloat.mul .binary64
    (UnpackedFloat.unpack .binary64 (UnpackedFloat.pack .binary64 (.finite .positive m e h.pos)))
    (UnpackedFloat.unpack .binary64
      (UnpackedFloat.pack .binary64 (.finite .positive _ _ one.pos))))) = _
  rw [h.unpack_pack, one.unpack_pack]
  exact congrArg (fun x => Float.ofModel (.pack x)) (h.round_shifted .positive 52)

end Wide

/-! ### Natural numbers -/

section

variable {n : Nat}

/-- A positive number of at most 53 bits, moved up to full width. -/
theorem wide_of_lt (hpos : 0 < n) (hlt : n < 2 ^ 53) :
    Wide (n * 2 ^ (52 - n.log2)) (-(52 - n.log2 : Nat)) := by
  have hlog : n.log2 ≤ 52 := Nat.le_of_lt_succ ((Nat.log2_lt (Nat.ne_of_gt hpos)).2 hlt)
  obtain ⟨hlow, hhigh⟩ := (Nat.log2_eq_iff (Nat.ne_of_gt hpos)).1 rfl
  have hpow (k : Nat) : 2 ^ (n.log2 + k) * 2 ^ (52 - n.log2) = 2 ^ (52 + k) := by
    rw [← Nat.pow_add]
    congr 1
    omega
  refine ⟨?_, ?_, by omega, by omega⟩
  · rw [← hpow 0]
    exact Nat.mul_le_mul_right _ hlow
  · rw [← hpow 1]
    exact Nat.mul_lt_mul_of_pos_right hhigh (Nat.two_pow_pos _)

/-- A natural number below the precision is rounded to itself, moved up to full width. -/
theorem round_natural (hpos : 0 < n) (hlt : n < 2 ^ 53) (sign : Sign) :
    UnpackedFloat.round .binary64 sign n 0 =
      .finite sign (n * 2 ^ (52 - n.log2)) (-(52 - n.log2 : Nat)) (wide_of_lt hpos hlt).pos := by
  have hlog : n.log2 ≤ 52 := Nat.le_of_lt_succ ((Nat.log2_lt (Nat.ne_of_gt hpos)).2 hlt)
  have htarget : Format.targetExponent .binary64 (totalExponent n 0) = -(52 - n.log2 : Nat) := by
    show max ((n.log2 : Int) + 1 + 0 - 53) (-1074) = _
    omega
  have hwide := (wide_of_lt hpos hlt).round_shifted sign 0
  rw [Nat.pow_zero, Nat.mul_one, Int.natCast_zero, Int.sub_zero] at hwide
  rw [UnpackedFloat.round, htarget, UnpackedFloat.decreaseExponent]
  simp only [Int.zero_sub, Int.neg_neg, Int.toNat_natCast, Nat.shiftLeft_eq]
  exact hwide

/-- A natural number of at most 53 bits is a double as it is. -/
theorem ofNat_eq_toFloat (hpos : 0 < n) (hlt : n < 2 ^ 53) :
    Float.ofNat n = (wide_of_lt hpos hlt).toFloat .positive := by
  have hfast : Float.ofNat n = n.toUInt64.toFloat * Float.ofBits 0x3FF0000000000000 := by
    show Float.ofScientific n false 0 = _
    rw [Float.ofScientific, dif_pos ⟨hlt, by omega⟩]
    rfl
  have hsmall : n.toUInt64.toNat = n := Nat.mod_eq_of_lt (by omega)
  have hexact : n.toUInt64.toFloat = (wide_of_lt hpos hlt).toFloat .positive := by
    have hcompare : compare (n : Int) 0 = .gt := by simpa [Int.compare_eq_gt] using hpos
    show Float.ofModel (.pack (.normalize .binary64 (n.toUInt64.toNat : Int) 0 .positive)) = _
    rw [hsmall, UnpackedFloat.normalize, hcompare]
    dsimp only [Int.toNat_natCast]
    rw [round_natural hpos hlt]
    rfl
  rw [hfast, hexact, Wide.mul_one]

/-- Zero is a whole number. -/
theorem floor_zero (e : Int) (narrow : Bool) :
    (⟨0, e, narrow⟩ : Binary).floor = 0 ∧ (⟨0, e, narrow⟩ : Binary).isIntegral = true := by
  simp [Binary.floor, Binary.isIntegral]

/-- What was moved up to full width is an integer. -/
theorem floor_shifted (n k : Nat) (narrow : Bool) :
    (⟨n * 2 ^ k, -(k : Int), narrow⟩ : Binary).floor = n ∧
      (⟨n * 2 ^ k, -(k : Int), narrow⟩ : Binary).isIntegral = true := by
  cases k with
  | zero => simp [Binary.floor, Binary.isIntegral]
  | succ k =>
      have hneg : ¬ (0 : Int) ≤ -((k + 1 : Nat) : Int) := by omega
      simp only [Binary.floor, Binary.isIntegral, hneg, if_false, Int.neg_neg, Int.toNat_natCast,
        Nat.pow_eq, Nat.mul_mod_left, beq_self_eq_true, Bool.or_true, and_true]
      exact Nat.mul_div_cancel _ (Nat.two_pow_pos _)

/-- A double of a small whole number is written as this number. -/
theorem asInteger?_toFloat (hpos : 0 < n) (hlt : n < 2 ^ 53) (hsmall : n < 9000000000000000)
    (sign : Sign) : asInteger? ((wide_of_lt hpos hlt).toFloat sign) = some (sign.apply n) := by
  obtain ⟨narrow, hread⟩ := (wide_of_lt hpos hlt).readDouble_toFloat sign
  obtain ⟨hfloor, hintegral⟩ := floor_shifted n (52 - n.log2) narrow
  simp only [asInteger?, hread, hfloor, hintegral, hsmall, decide_true, Bool.and_self, if_true]
  cases sign <;> rfl

end

/-! ### Integers -/

/-- An integer whose magnitude is below `9 · 10^15` is told from its double. -/
theorem asInteger?_ofInt {n : Int} (h : n.natAbs < 9000000000000000) :
    asInteger? (Float.ofInt n) = some n := by
  have hpositive {k : Nat} (hk : k + 1 < 9000000000000000) (sign : Sign) :=
    asInteger?_toFloat (Nat.succ_pos k) (Nat.lt_trans hk (by decide)) hk sign
  cases n with
  | ofNat n =>
      cases n with
      | zero =>
          show asInteger? (Float.ofNat 0) = some 0
          have hread : readDouble (Float.ofNat 0) = .finite false ⟨0, -1074, false⟩ := rfl
          obtain ⟨hfloor, hintegral⟩ := floor_zero (-1074) false
          simp only [asInteger?, hread, hfloor, hintegral]
          rfl
      | succ n =>
          show asInteger? (Float.ofNat (n + 1)) = _
          rw [ofNat_eq_toFloat (Nat.succ_pos n) (Nat.lt_trans h (by decide))]
          exact hpositive h .positive
  | negSucc n =>
      show asInteger? (-Float.ofNat (n + 1)) = _
      rw [ofNat_eq_toFloat (Nat.succ_pos n) (Nat.lt_trans h (by decide)), Wide.neg_toFloat]
      exact hpositive h .negative

/-- The double of such an integer has no fraction. -/
theorem isIntegral_ofInt {n : Int} (h : n.natAbs < 9000000000000000) :
    isIntegral (Float.ofInt n) = true := by
  have hinteger := asInteger?_ofInt h
  unfold asInteger? at hinteger
  unfold isIntegral
  split at hinteger
  · rw [Option.ite_none_right_eq_some, Bool.and_eq_true] at hinteger
    exact hinteger.1.1
  · cases hinteger

/-- An integer is where its double falls in a range that it is in. -/
theorem truncateInto_ofInt {n least most : Int} (h : n.natAbs < 9000000000000000)
    (hleast : least ≤ n) (hmost : n ≤ most) : truncateInto least most (Float.ofInt n) = n := by
  have hinteger := asInteger?_ofInt h
  unfold asInteger? at hinteger
  unfold truncateInto
  split at hinteger
  · next negative b hread =>
    split at hinteger
    · rw [hread]
      dsimp only
      rw [Option.some.inj hinteger]
      omega
    · cases hinteger
  · cases hinteger

/-- A natural number is the index that its double is read as. -/
theorem toIndex_ofInt {n : Nat} (h : n < 9000000000000000) : toIndex (Float.ofInt n) = n := by
  have hbound : (n : Int) ≤ (indexBound - 1 : Nat) := by
    unfold indexBound
    omega
  rw [toIndex, truncateInto_ofInt (by omega) (by omega) hbound, Int.toNat_natCast]

/-! ### Finite doubles -/

/-- A double is finite when it is read as a multiple of a power of two. -/
theorem isFinite_iff (x : Float) :
    x.isFinite = true ↔ ∃ negative magnitude, readDouble x = .finite negative magnitude := by
  have hfield : (@unpackExponent .binary64 x.toBits.toBitVec).toNat =
      x.toBits.toNat / 0x10000000000000 % 0x800 :=
    toNat_unpackExponent _
  have hones : @unpackExponent .binary64 x.toBits.toBitVec = -1#11 ↔
      x.toBits.toNat / 0x10000000000000 % 0x800 = 0x7FF := by
    rw [← hfield, ← BitVec.toNat_inj]
    rfl
  have hfinite : x.isFinite = (UnpackedFloat.unpack .binary64 x.toBits.toBitVec).isFinite := rfl
  rw [hfinite]
  unfold readDouble UnpackedFloat.unpack
  dsimp only
  cases decEq (x.toBits.toNat / 0x10000000000000 % 0x800) 0x7FF with
  | isTrue hall =>
      rw [if_pos (hones.2 hall), if_pos hall]
      split <;> split <;> simp [UnpackedFloat.isFinite]
  | isFalse hsome =>
      rw [if_neg (mt hones.1 hsome), if_neg hsome]
      refine iff_of_true ?_ ⟨_, _, rfl⟩
      split
      · split <;> rfl
      · rfl

/-! ### Digits -/

/-- The digits of a number are digits. -/
theorem isDigit_of_mem_natChars {n : Nat} {c : Char} (h : c ∈ natChars n) : isDigit c = true := by
  have hdigit := Nat.isDigit_of_mem_toDigits (by decide) (by decide) h
  simpa [isDigit, Char.isDigit, Char.le_def] using hdigit

/-- The digits of a number are read as the number. -/
theorem ofDigits_natChars (n : Nat) : ofDigits (natChars n) = n :=
  Nat.ofDigitChars_ten_toDigits

/-- A number has digits. -/
theorem natChars_ne_nil (n : Nat) : natChars n ≠ [] :=
  Nat.toDigits_ne_nil

/-- A number of at most sixteen digits is read as its double. -/
theorem toDouble_natural {n : Nat} (h : n < 10 ^ 16) (negative : Bool) :
    DecimalText.toDouble ⟨negative, n, 0⟩ =
      if negative then -Float.ofNat n else Float.ofNat n := by
  cases n with
  | zero => cases negative <;> rfl
  | succ n =>
      have hdigits := (Nat.length_toDigits_le_iff (by decide) (by decide)).2 h
      have hwithin : DecimalText.extreme ⟨negative, n + 1, 0⟩ = .within := by
        have hlow : ¬ ((Nat.toDigits 10 (n + 1)).length : Int) < -400 := by omega
        have hhigh : ¬ ((Nat.toDigits 10 (n + 1)).length : Int) > 400 := by omega
        simp [DecimalText.extreme, hlow, hhigh]
      simp only [DecimalText.toDouble, hwithin]
      rfl

/-- A number of more than four hundred digits is read as infinity. -/
theorem toDouble_of_le {n : Nat} (h : 10 ^ 400 ≤ n) :
    DecimalText.toDouble ⟨false, n, 0⟩ = Float.ofBits 0x7FF0000000000000 := by
  have hdigits := mt (Nat.length_toDigits_le_iff (by decide) (by decide)).1 (Nat.not_lt.2 h)
  have hpos : n ≠ 0 := Nat.ne_of_gt (Nat.lt_of_lt_of_le (Nat.pow_pos (by decide)) h)
  have hoverflowing : DecimalText.extreme ⟨false, n, 0⟩ = .overflowing := by
    have hlow : ¬ ((Nat.toDigits 10 n).length : Int) < -400 := by omega
    have hhigh : ((Nat.toDigits 10 n).length : Int) > 400 := by omega
    simp [DecimalText.extreme, hpos, hlow, hhigh]
  simp only [DecimalText.toDouble, hoverflowing]
  rfl

/-- The digits of an integer of at most sixteen of them are read as its double. -/
theorem toDouble_decimal {n : Int} (h : n.natAbs < 10 ^ 16) :
    DecimalText.toDouble ⟨n < 0, ofDigits (natChars n.natAbs), 0⟩ = Float.ofInt n := by
  rw [ofDigits_natChars, toDouble_natural h]
  cases n with
  | ofNat n => rfl
  | negSucc n => exact if_pos (decide_eq_true (Int.negSucc_lt_zero n))

end Studio.Number
