/-!
# Splitting a list at an element

`splitFirst?` and `splitLast?` cut a list at the first and at the last element that satisfies a
test. The lemmas `splitFirst?_eq_some` and `splitLast?_eq_some` say what the parts are. Where a list
of two parts is cut at an element, `split_of_append` says which part the cut goes through.
-/

namespace Studio.Delivery

variable {α : Type} (test : α → Bool)

/-- The elements before the first one that satisfies the test, that one, and the elements behind
it. -/
def splitFirst? : List α → Option (List α × α × List α)
  | [] => none
  | a :: rest =>
    if test a then some ([], a, rest)
    else (splitFirst? rest).map fun (before, found, after) => (a :: before, found, after)

/-- The elements before the last one that satisfies the test, that one, and the elements behind
it. -/
def splitLast? : List α → Option (List α × α × List α)
  | [] => none
  | a :: rest =>
    match splitLast? rest with
    | some (before, found, after) => some (a :: before, found, after)
    | none => if test a then some ([], a, rest) else none

variable {test}

/-- A list that is split at the first that passes a test is put together again, and none passes in
front. -/
theorem splitFirst?_eq_some {items before after : List α} {found : α}
    (h : splitFirst? test items = some (before, found, after)) :
    items = before ++ found :: after ∧ test found = true ∧ ∀ a ∈ before, test a = false := by
  induction items generalizing before with
  | nil => simp [splitFirst?] at h
  | cons a rest ih =>
    simp only [splitFirst?] at h
    split at h
    · next ha =>
      simp only [Option.some.injEq, Prod.mk.injEq] at h
      simp [← h.1, ← h.2.1, ← h.2.2, ha]
    · next ha =>
      obtain ⟨⟨b, f, r⟩, hs, he⟩ := Option.map_eq_some_iff.1 h
      simp only [Prod.mk.injEq] at he
      obtain ⟨rfl, rfl, rfl⟩ := he
      obtain ⟨h1, h2, h3⟩ := ih hs
      exact ⟨by rw [h1, List.cons_append], h2, by simpa [ha] using h3⟩

/-- A list that is not split at the first has nothing that passes. -/
theorem splitFirst?_eq_none {items : List α} (h : splitFirst? test items = none) :
    ∀ a ∈ items, test a = false := by
  induction items with
  | nil => simp
  | cons a rest ih =>
    simp only [splitFirst?] at h
    split at h
    · simp at h
    · next ha => simpa [ha] using ih (Option.map_eq_none_iff.1 h)

/-- A list that is not split at the last has nothing that passes. -/
theorem splitLast?_eq_none {items : List α} (h : splitLast? test items = none) :
    ∀ a ∈ items, test a = false := by
  induction items with
  | nil => simp
  | cons a rest ih =>
    simp only [splitLast?] at h
    split at h
    · simp at h
    · next hr =>
      split at h
      · simp at h
      · next ha => simpa [ha] using ih hr

/-- A list that is split at the last that passes a test is put together again, and none passes
behind. -/
theorem splitLast?_eq_some {items before after : List α} {found : α}
    (h : splitLast? test items = some (before, found, after)) :
    items = before ++ found :: after ∧ test found = true ∧ ∀ a ∈ after, test a = false := by
  induction items generalizing before with
  | nil => simp [splitLast?] at h
  | cons a rest ih =>
    simp only [splitLast?] at h
    split at h
    · next b f r hr =>
      simp only [Option.some.injEq, Prod.mk.injEq] at h
      obtain ⟨rfl, rfl, rfl⟩ := h
      obtain ⟨h1, h2, h3⟩ := ih hr
      exact ⟨by rw [h1, List.cons_append], h2, h3⟩
    · next hr =>
      split at h
      · next ha =>
        simp only [Option.some.injEq, Prod.mk.injEq] at h
        obtain ⟨rfl, rfl, rfl⟩ := h
        exact ⟨rfl, ha, splitLast?_eq_none hr⟩
      · simp at h

/-- A list of two parts that is cut at an element is cut in the first part or in the second. -/
theorem split_of_append {first second before after : List α} {a : α}
    (h : first ++ second = before ++ a :: after) :
    (∃ rest, first = before ++ a :: rest ∧ after = rest ++ second) ∨
      ∃ front, before = first ++ front ∧ second = front ++ a :: after := by
  rcases List.append_eq_append_iff.1 h with ⟨front, hbefore, hsecond⟩ | ⟨rest, hfirst, hafter⟩
  · exact .inr ⟨front, hbefore, hsecond⟩
  · cases rest with
    | nil => exact .inr ⟨[], by simpa using hfirst.symm, hafter.symm⟩
    | cons b rest =>
        obtain ⟨rfl, hrest⟩ := List.cons.inj hafter
        exact .inl ⟨rest, hfirst, hrest⟩

/-- A list that is cut at an element is cut at its last one or in front of it. -/
theorem split_of_concat {items before after : List α} {last a : α}
    (h : items ++ [last] = before ++ a :: after) :
    (before = items ∧ a = last ∧ after = []) ∨
      ∃ rest, items = before ++ a :: rest ∧ after = rest ++ [last] := by
  rcases split_of_append h with hrest | ⟨front, rfl, hlast⟩
  · exact .inr hrest
  · cases front with
    | nil =>
        obtain ⟨rfl, rfl⟩ := List.cons.inj hlast
        exact .inl ⟨List.append_nil _, rfl, rfl⟩
    | cons b front => simp at hlast

end Studio.Delivery
