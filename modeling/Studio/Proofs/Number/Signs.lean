import Studio.Proofs.Number.Exactness
import Studio.Proofs.Number.Order

/-!
# Signs of doubles

What a double unpacks to is packed into the double again (`pack_unpack`). Natural numbers bear no
sign, and neither do sums, products and quotients of doubles without one (`Unsigned`). Adding zero
leaves such a double as it is (`Unsigned.add_zero`); the negative zero would lose its sign.
-/

namespace Studio.Number

open Float.Model
open Float.Model.UnpackedFloat (Sign unpackSign)

/-! ### Packing again -/

/-- A double is packed from what it unpacks to. -/
theorem pack_unpack (x : Float.Model) : Float.Model.pack x.unpack = x := by
  obtain ⟨bits, hvalid⟩ := x
  simp only [Float.Model.pack, Float.Model.unpack, UnpackedFloat.pack_unpack_of_valid hvalid]

/-! ### No sign -/

/-- Whether an unpacked number bears no sign. What is no number bears none. -/
def Plain : UnpackedFloat → Prop
  | .notANumber => True
  | .infinity sign | .zero sign | .finite sign .. => sign = .positive

/-- Whether a double bears no sign. -/
def Unsigned (x : Float) : Prop :=
  Plain x.toModel.unpack

namespace Plain

variable {u v : UnpackedFloat}

/-- A number without a sign is packed with a sign bit of zero. -/
theorem sign_pack (h : Plain u) : @unpackSign .binary64 (UnpackedFloat.pack .binary64 u) = 0#1 := by
  cases u with
  | notANumber => decide
  | infinity sign => cases h; decide
  | zero sign => cases h; decide
  | finite sign m e hpos =>
      cases h
      simp only [UnpackedFloat.pack]
      split
      · decide
      · split <;> rw [UnpackedFloat.unpackSign_packComponents] <;> rfl

/-- Bits with a sign bit of zero unpack to a number without a sign. -/
theorem unpack {bits : BitVec 64} (h : @unpackSign .binary64 bits = 0#1) :
    Plain (UnpackedFloat.unpack .binary64 bits) := by
  have hsign : Sign.ofBitVec (@unpackSign .binary64 bits) = .positive := by
    rw [h]
    rfl
  unfold UnpackedFloat.unpack
  dsimp only
  rw [hsign]
  split
  · split
    · rfl
    · trivial
  · split
    · split <;> rfl
    · rfl

/-- Packing puts no sign on a number. -/
theorem unsigned (h : Plain u) : Unsigned (.ofModel (.pack u)) :=
  unpack h.sign_pack

/-- Rounding a positive number gives none a sign. -/
theorem roundWithAccuracy (m : Nat) (e : Int) (accuracy : UnpackedFloat.Accuracy) :
    Plain (UnpackedFloat.roundWithAccuracy .binary64 .positive m e accuracy) := by
  simp only [UnpackedFloat.roundWithAccuracy]
  split <;> rfl

/-- Normalizing what is not negative gives none a sign. -/
theorem normalize {m : Int} (h : 0 ≤ m) (e : Int) :
    Plain (UnpackedFloat.normalize .binary64 m e .positive) := by
  unfold UnpackedFloat.normalize
  split
  · next hlt => exact absurd (Int.compare_eq_lt.1 hlt) (Int.not_lt.2 h)
  · rfl
  · exact roundWithAccuracy ..

/-- Sums of numbers without a sign bear none. -/
protected theorem add (hu : Plain u) (hv : Plain v) : Plain (.add .binary64 u v) := by
  cases u with
  | notANumber => trivial
  | infinity sign => cases hu; cases v <;> first | trivial | (cases hv; rfl)
  | zero sign => cases hu; cases v <;> first | trivial | (cases hv; rfl)
  | finite sign m e hpos =>
      cases v with
      | notANumber => trivial
      | infinity sign' => exact hv
      | zero sign' => exact hu
      | finite sign' m' e' hpos' =>
          cases hu
          cases hv
          exact normalize (Int.add_nonneg (Int.natCast_nonneg _) (Int.natCast_nonneg _)) _

/-- Products of numbers without a sign bear none. -/
protected theorem mul (hu : Plain u) (hv : Plain v) : Plain (.mul .binary64 u v) := by
  cases u <;> cases v <;> try trivial
  all_goals cases hu; cases hv
  all_goals first | rfl | exact roundWithAccuracy ..

/-- Quotients of numbers without a sign bear none. -/
protected theorem div (hu : Plain u) (hv : Plain v) : Plain (.div .binary64 u v) := by
  cases u <;> cases v <;> try trivial
  all_goals cases hu; cases hv
  all_goals first | rfl | exact roundWithAccuracy ..

/-- Zero behind a number without a sign changes nothing. -/
theorem add_zero (h : Plain u) : UnpackedFloat.add .binary64 u (.zero .positive) = u := by
  cases u <;> try rfl
  cases h
  rfl

/-- Zero in front of a number without a sign changes nothing. -/
theorem zero_add (h : Plain u) : UnpackedFloat.add .binary64 (.zero .positive) u = u := by
  cases u <;> try rfl
  cases h
  rfl

/-- A number without a sign is not below zero. -/
theorem compare_zero (h : Plain u) : u.compare (.zero .positive) ≠ some .lt := by
  cases u <;> cases h <;> exact nofun

/-- A decimal without a minus bears no sign. -/
theorem ofScientific (m : Nat) (e : Int) : Plain (.ofScientific .binary64 m e) := by
  unfold UnpackedFloat.ofScientific
  split
  · rfl
  · split
    · rfl
    · split
      · rfl
      · split
        · exact Plain.mul rfl rfl
        · exact Plain.div rfl rfl

end Plain

/-- The double of zero is the positive zero. -/
theorem unpack_zero : (Float.ofNat 0).toModel.unpack = .zero .positive := rfl

/-- A sum of doubles is packed from the sum of what they unpack to. -/
theorem add_eq (x y : Float) :
    x + y = .ofModel (.pack (.add .binary64 x.toModel.unpack y.toModel.unpack)) := rfl

/-- A product of doubles is packed from the product of what they unpack to. -/
theorem mul_eq (x y : Float) :
    x * y = .ofModel (.pack (.mul .binary64 x.toModel.unpack y.toModel.unpack)) := rfl

namespace Unsigned

variable {x y : Float}

/-- Sums of doubles without a sign bear none. -/
protected theorem add (hx : Unsigned x) (hy : Unsigned y) : Unsigned (x + y) :=
  (Plain.add hx hy).unsigned

/-- Products of doubles without a sign bear none. -/
protected theorem mul (hx : Unsigned x) (hy : Unsigned y) : Unsigned (x * y) :=
  (Plain.mul hx hy).unsigned

/-- Quotients of doubles without a sign bear none. -/
protected theorem div (hx : Unsigned x) (hy : Unsigned y) : Unsigned (x / y) :=
  (Plain.div hx hy).unsigned

/-- The double of a natural number bears no sign. -/
theorem ofNat (n : Nat) : Unsigned (.ofNat n) := by
  show Unsigned (Float.ofScientific n false 0)
  unfold Float.ofScientific
  split
  · have hword : Unsigned n.toUInt64.toFloat :=
      (Plain.normalize (Int.natCast_nonneg n.toUInt64.toNat) 0).unsigned
    have hone : Unsigned (Float.ofBits 0x3FF0000000000000) := rfl
    exact hword.mul hone
  · exact (Plain.ofScientific n 0).unsigned

/-- A double without a sign is not below zero. -/
theorem not_lt_zero (h : Unsigned x) : ¬ x < 0 := by
  show ¬ decide (x.toModel < (Float.ofNat 0).toModel) = true
  rw [decide_eq_true_eq]
  show ¬ (x.toModel.unpack.compare (Float.ofNat 0).toModel.unpack == some .lt) = true
  rw [unpack_zero, beq_iff_eq]
  exact h.compare_zero

/-- A double that bears no sign stays as it is when zero is added. -/
theorem add_zero (h : Unsigned x) : x + 0 = x := by
  show x + .ofNat 0 = x
  rw [add_eq, unpack_zero, Plain.add_zero h, pack_unpack]

/-- Adding a double without a sign to zero gives the double. -/
theorem zero_add (h : Unsigned x) : 0 + x = x := by
  show .ofNat 0 + x = x
  rw [add_eq, unpack_zero, Plain.zero_add h, pack_unpack]

end Unsigned

end Studio.Number
