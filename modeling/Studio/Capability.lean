/-!
# Capabilities

The three things a request can ask for: the structure of the session, harmonic content and
percussive content. Their order is the order in which they are listed, merged and reported.
-/

namespace Studio

/-- What a generator can do. -/
inductive Capability where
  | daw
  | arranger
  | drummer
deriving DecidableEq, Repr, Inhabited

namespace Capability

/-- All capabilities in order. -/
def all : List Capability := [.daw, .arranger, .drummer]

/-- The place of a capability in the order. -/
def rank : Capability → Nat
  | .daw => 0
  | .arranger => 1
  | .drummer => 2

instance : Ord Capability := ⟨fun a b => compare a.rank b.rank⟩

/-- The word for a capability. -/
def name : Capability → String
  | .daw => "daw"
  | .arranger => "arranger"
  | .drummer => "drummer"

/-- The capability that a word stands for. -/
def ofName? (word : String) : Option Capability :=
  all.find? fun capability => capability.name = word

/-- Whether the capability creates and arranges tracks. -/
def isStructural : Capability → Bool
  | .daw => true
  | _ => false

/-- Whether the capability fills tracks with notes. -/
def isContent (capability : Capability) : Bool :=
  !capability.isStructural

/-- A list of things of capabilities in their order; of equal ones the first stays first. -/
def sortBy {α : Type} (capability : α → Capability) (items : List α) : List α :=
  items.mergeSort fun a b => (capability a).rank ≤ (capability b).rank

/-- Every capability is listed. -/
theorem mem_all (capability : Capability) : capability ∈ all := by
  cases capability <;> simp [all]

/-- A capability is found by its name. -/
theorem ofName?_name (capability : Capability) : ofName? capability.name = some capability := by
  cases capability <;> decide

end Capability

end Studio
