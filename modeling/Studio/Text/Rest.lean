/-!
# What reading leaves of a text

A step reads something from the front of a text and returns what is left, with the proof that it is
shorter. Readers built from such steps end, since every further step works on a shorter text.
-/

namespace Studio.Text

/-- What is left of a text after something was read from its front. -/
abbrev Rest (s : List Char) := {r : List Char // r.length < s.length}

/-- The outcome of a reading step: a value and the rest, or a fault. -/
abbrev Step (ε : Type) (s : List Char) (α : Type) := Except ε (α × Rest s)

/-- What is left of a text after something, or nothing, was read from its front. -/
abbrev Tail (s : List Char) := {r : List Char // r.length ≤ s.length}

/-- The outcome of a step that may read nothing. -/
abbrev TailStep (ε : Type) (s : List Char) (α : Type) := Except ε (α × Tail s)

/-- The text behind its first character is a rest. -/
def Rest.behind {c : Char} (s : List Char) : Rest (c :: s) :=
  ⟨s, Nat.lt_succ_self _⟩

/-- The text behind its first character is a tail. -/
def Tail.behind {c : Char} (s : List Char) : Tail (c :: s) :=
  ⟨s, Nat.le_succ _⟩

/-- The whole text is a tail. -/
def Tail.whole (s : List Char) : Tail s :=
  ⟨s, Nat.le_refl _⟩

/-- What is left of a text is left of it with a character in front. -/
def Rest.cons {c : Char} {s : List Char} (r : Rest s) : Rest (c :: s) :=
  ⟨r.val, Nat.lt_succ_of_lt r.property⟩

/-- What is left of a rest is a rest. -/
def Rest.onward {s : List Char} (r : Rest s) (t : Tail r.val) : Rest s :=
  ⟨t.val, Nat.lt_of_le_of_lt t.property r.property⟩

/-- A rest is a tail. -/
def Rest.toTail {s : List Char} (r : Rest s) : Tail s :=
  ⟨r.val, Nat.le_of_lt r.property⟩

/-- What is left of a shorter text is left of a longer one. -/
def Rest.widen {s t : List Char} (h : s.length ≤ t.length) (r : Rest s) : Rest t :=
  ⟨r.val, Nat.lt_of_lt_of_le r.property h⟩

/-- The text behind the first character of a tail is shorter than the whole. -/
theorem length_behind_lt {s r : List Char} {c : Char} {t : Tail s} (ht : t.val = c :: r) :
    r.length < s.length := by
  have h := t.property
  rw [ht, List.length_cons] at h
  exact h

/-- The text behind the first character of a rest is no longer than the whole. -/
theorem length_behind_le {s t r : List Char} {c : Char} (ht : t = c :: r)
    (h : t.length < s.length) : r.length ≤ s.length := by
  rw [ht, List.length_cons] at h
  exact Nat.le_of_lt (Nat.lt_of_succ_lt h)

/-- A step on a shorter text is a step on a longer one. -/
def Step.widen {ε α : Type} {s t : List Char} (h : s.length ≤ t.length) : Step ε s α → Step ε t α
  | .ok (a, r) => .ok (a, r.widen h)
  | .error e => .error e

/-- A step on a rest is a step on the text. -/
def Step.after {ε α : Type} {s : List Char} (r : Rest s) (step : Step ε r.val α) : Step ε s α :=
  step.widen (Nat.le_of_lt r.property)

/-- A step behind the first character of a text is a step on the text. -/
def Step.cons {ε α : Type} {c : Char} {s : List Char} (step : Step ε s α) : Step ε (c :: s) α :=
  step.widen (Nat.le_succ _)

/-- Change the value that a step returns. -/
def Step.map {ε α β : Type} {s : List Char} (f : α → β) : Step ε s α → Step ε s β
  | .ok (a, r) => .ok (f a, r)
  | .error e => .error e

end Studio.Text
