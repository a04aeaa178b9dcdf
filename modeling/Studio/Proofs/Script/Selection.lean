import Mathlib.Data.String.Basic
import Studio.Proofs.Number.Order
import Studio.Proofs.Script.Invariants

/-!
# What filters leave

A filter leaves the entities that its predicate selects: `Predicate.Selects` says which these are,
without going through the comparison of values that the filter makes, and `holdsOf_eq_true` that the
two agree. `matching_eq` says when the predicate can be asked of the entities of a collection.
-/

namespace Studio.Script

open Studio.Session (Entity)

/-! ### What a predicate says -/

/-- How two things that have an order stand to each other. -/
def Comparison.Relates {α : Type} [LinearOrder α] (a b : α) : Comparison → Prop
  | .equal => a = b
  | .unequal => a ≠ b
  | .less => a < b
  | .greater => b < a
  | .atMost => a ≤ b
  | .atLeast => b ≤ a

/-- A property has the kind of the literal and stands to it as the comparison says. Texts are in
the order of their characters, numbers in that of their values, and truth values have none. -/
def Literal.Admits (comparison : Comparison) : Literal → Value → Prop
  | .string b, .string a => comparison.Relates a b
  | .number b, .number a =>
    ∃ x y, Number.value? a = some x ∧ Number.value? b = some y ∧ comparison.Relates x y
  | .bool b, .bool a => comparison = .equal ∧ a = b ∨ comparison = .unequal ∧ a ≠ b
  | _, _ => False

/-- The value that a predicate is about: a property of the entity, or the element of it that an
index picks out. -/
def Predicate.Names (p : Predicate) (entity : Entity) (value : Value) : Prop :=
  match p.index with
  | none => entity.field? p.property = some value
  | some index =>
    ∃ items, entity.field? p.property = some (.array items) ∧ items[index]? = some value

/-- The value that a predicate is about is there and stands to the literal as it says. -/
def Predicate.Selects (p : Predicate) (entity : Entity) : Prop :=
  ∃ value, p.Names entity value ∧ p.literal.Admits p.comparison value

/-- A comparison holds of the order of two things just when it relates them. -/
theorem Comparison.holds_cmp {α : Type} [LinearOrder α] (comparison : Comparison) (a b : α) :
    comparison.holds (cmp a b) = true ↔ comparison.Relates a b := by
  rcases lt_trichotomy a b with h | rfl | h
  · rw [(cmp_eq_lt_iff _ _).2 h]
    cases comparison <;> simp [holds, Relates, h, h.ne, h.le, h.not_gt]
  · rw [cmp_self_eq_eq]
    cases comparison <;> simp [holds, Relates]
  · rw [(cmp_eq_gt_iff _ _).2 h]
    cases comparison <;> simp [holds, Relates, h, h.ne', h.le, h.not_gt]

/-- A predicate tests a value by what its literal admits. -/
theorem test_eq_true {p : Predicate} {value : Value} :
    p.test value = true ↔ p.literal.Admits p.comparison value := by
  cases hliteral : p.literal with
  | string b =>
      cases value with
      | string a =>
          simp only [Predicate.test, hliteral, Literal.Admits]
          rw [← Comparison.holds_cmp, cmp_eq_compare]
      | _ => simp [Predicate.test, hliteral, Literal.Admits]
  | number b =>
      cases value with
      | number a =>
          simp only [Predicate.test, hliteral, Literal.Admits, Number.compareNumbers_eq]
          cases Number.value? a <;> cases Number.value? b <;> simp [Comparison.holds_cmp]
      | _ => simp [Predicate.test, hliteral, Literal.Admits]
  | bool b =>
      cases value with
      | bool a =>
          simp only [Predicate.test, hliteral, Literal.Admits]
          cases p.comparison <;> cases a <;> cases b <;> decide
      | _ => simp [Predicate.test, hliteral, Literal.Admits]

/-- The subject of a predicate is the value that it names. -/
theorem subject?_eq_some {p : Predicate} {entity : Entity} {value : Value} :
    p.subject? entity = some value ↔ p.Names entity value := by
  unfold Predicate.subject? Predicate.Names
  cases entity.field? p.property with
  | none => cases p.index <;> simp
  | some property =>
      cases p.index with
      | none => simp
      | some index => cases property <;> simp

/-- The entities that are left are those that the predicate selects. -/
theorem holdsOf_eq_true {p : Predicate} {entity : Entity} :
    p.holdsOf entity = true ↔ p.Selects entity := by
  simp only [Predicate.holdsOf, Option.any_eq_true, subject?_eq_some, test_eq_true,
    Predicate.Selects]

instance (p : Predicate) (entity : Entity) : Decidable (p.Selects entity) :=
  decidable_of_iff _ holdsOf_eq_true

/-! ### What a filter finds -/

section

variable {call : Call} {p : Predicate} {name : String} {entities found : List Entity}

/-- The entities that match are those that the predicate selects. -/
theorem eq_filter_of_matching (h : matching call p name entities = .ok found) :
    found = entities.filter (p.Selects ·) := by
  induction entities generalizing found with
  | nil => exact (Except.ok.inj h).symm
  | cons entity rest ih =>
      rw [matching] at h
      split at h
      · simp at h
      · split at h
        · simp at h
        · next more hmore =>
          obtain rfl := Except.ok.inj h
          simp only [List.filter_cons, ih hmore, holdsOf_eq_true, decide_eq_true_eq]

/-- A variable that names the visited entity leaves no other variable. -/
theorem filter_answersTo {entity : Entity} {roots : Option String}
    (h : ∀ root ∈ roots, (Binding.mk name entity).answersTo root = true) :
    (roots.filter fun root => !(Binding.mk name entity).answersTo root) = none := by
  rw [Option.filter_eq_none_iff]
  intro root hroot
  simp [h root hroot]

/-- A predicate can be asked of every entity for which its variable stands. -/
theorem matching_eq
    (h : ∀ entity ∈ entities, ∀ root ∈ p.root, (Binding.mk name entity).answersTo root = true) :
    matching call p name entities = .ok (entities.filter (p.Selects ·)) := by
  induction entities with
  | nil => rfl
  | cons entity rest ih =>
      rw [matching, filter_answersTo (h entity List.mem_cons_self),
        ih fun other hother => h other (List.mem_cons_of_mem _ hother)]
      simp only [List.filter_cons, holdsOf_eq_true, decide_eq_true_eq]

end

end Studio.Script
