import Mathlib.Data.List.DropRight
import Studio.Text.Blank

/-!
# Cutting texts

Trimming a text takes the blanks off its two ends, and on either side of a character that is not
blank it goes on its own (`trimList_append_cons`). A text can be split at a character, and a leading
part of it cut off; a part occurs in it where cutting in some place leaves the part in front
(`contains_iff`).
-/

namespace Studio.Text

/-! ### Trimming -/

/-- Blanks are dropped up to a character that is none. -/
theorem dropBlank_append_cons {c : Char} (hc : isBlank c = false) (front back : List Char) :
    dropBlank (front ++ c :: back) = dropBlank front ++ c :: back := by
  induction front with
  | nil => simp [dropBlank, hc]
  | cons d front ih =>
      cases hd : isBlank d with
      | true => simpa [dropBlank, hd] using ih
      | false => simp [dropBlank, hd]

/-- Blanks at the end are dropped up to a character that is none. -/
theorem dropBlankEnd_append_cons {c : Char} (hc : isBlank c = false) (front back : List Char) :
    dropBlankEnd (front ++ c :: back) = front ++ c :: dropBlankEnd back := by
  have hreverse : (front ++ c :: back).reverse = back.reverse ++ c :: front.reverse := by simp
  rw [dropBlankEnd, hreverse, dropBlank_append_cons hc]
  simp [dropBlankEnd]

/-- Around a character that is not blank, either side is trimmed on its own. -/
theorem trimList_append_cons {c : Char} (hc : isBlank c = false) (front back : List Char) :
    trimList (front ++ c :: back) = dropBlank front ++ c :: dropBlankEnd back := by
  rw [trimList, dropBlank_append_cons hc, dropBlankEnd_append_cons hc]

/-- Blanks are dropped once and for all. -/
theorem dropBlank_dropBlank (s : List Char) : dropBlank (dropBlank s) = dropBlank s :=
  List.dropWhile_idempotent isBlank s

/-- Blanks at the end are dropped once and for all. -/
theorem dropBlankEnd_dropBlankEnd (s : List Char) :
    dropBlankEnd (dropBlankEnd s) = dropBlankEnd s := by
  rw [dropBlankEnd, dropBlankEnd, List.reverse_reverse, dropBlank_dropBlank]

/-- A text has a character that is not blank, or trimming on either side leaves nothing. -/
theorem blank_or_split (s : List Char) : (dropBlank s = [] ∧ dropBlankEnd s = []) ∨
    ∃ front c back, s = front ++ c :: back ∧ isBlank c = false := by
  by_cases h : ∃ c ∈ s, isBlank c = false
  · obtain ⟨c, hmem, hc⟩ := h
    obtain ⟨front, back, hs⟩ := List.append_of_mem hmem
    exact .inr ⟨front, c, back, hs, hc⟩
  · have hall : ∀ c ∈ s, isBlank c = true := by simpa using h
    refine .inl ⟨List.dropWhile_eq_nil_iff.2 hall, ?_⟩
    rw [dropBlankEnd, dropBlank, List.dropWhile_eq_nil_iff.2 (by simpa using hall),
      List.reverse_nil]

/-- To trim is to trim what is left without the blanks in front. -/
theorem trimList_dropBlank (s : List Char) : trimList (dropBlank s) = trimList s := by
  rw [trimList, trimList, dropBlank_dropBlank]

/-- To trim is to trim what is left without the blanks at the end. -/
theorem trimList_dropBlankEnd (s : List Char) : trimList (dropBlankEnd s) = trimList s := by
  rcases blank_or_split s with ⟨hfront, hback⟩ | ⟨front, c, back, rfl, hc⟩
  · rw [hback, trimList, trimList, hfront]
    rfl
  · rw [dropBlankEnd_append_cons hc, trimList_append_cons hc, trimList_append_cons hc,
      dropBlankEnd_dropBlankEnd]

/-- A text is trimmed once and for all. -/
theorem trimList_trimList (s : List Char) : trimList (trimList s) = trimList s := by
  show trimList (dropBlankEnd (dropBlank s)) = trimList s
  rw [trimList_dropBlankEnd, trimList_dropBlank]

/-- Trimming adds no character. -/
theorem trimList_subset (s : List Char) : trimList s ⊆ s := by
  intro c hc
  have hdropped : c ∈ dropBlank s := by
    have hmem : c ∈ (dropBlank (dropBlank s).reverse).reverse := hc
    rw [List.mem_reverse] at hmem
    exact List.mem_reverse.1 ((dropBlank_suffix _).subset hmem)
  exact (dropBlank_suffix s).subset hdropped

/-- What is trimmed on either side is blank. -/
theorem exists_blanks_trimList (text : List Char) : ∃ front back,
    text = front ++ (trimList text ++ back) ∧ (∀ c ∈ front, isBlank c = true) ∧
      ∀ c ∈ back, isBlank c = true := by
  let tail := dropBlank text
  refine ⟨text.takeWhile isBlank, (tail.reverse.takeWhile isBlank).reverse, ?_,
    fun c hc => List.mem_takeWhile_imp hc,
    fun c hc => List.mem_takeWhile_imp (List.mem_reverse.1 hc)⟩
  have hback : trimList text ++ (tail.reverse.takeWhile isBlank).reverse = tail := by
    rw [trimList, dropBlankEnd, ← List.reverse_append, dropBlank,
      List.takeWhile_append_dropWhile, List.reverse_reverse]
  rw [hback]
  exact List.takeWhile_append_dropWhile.symm

/-! ### Splitting -/

/-- Without the separator nothing is split. -/
theorem splitOnce_of_not_mem {separator : Char} {s : List Char} (h : separator ∉ s) :
    splitOnce separator s = none := by
  cases hsplit : splitOnce separator s with
  | none => rfl
  | some found =>
      refine absurd ?_ h
      rw [join_splitOnce hsplit]
      exact List.mem_append_right _ List.mem_cons_self

/-- A text that is not split has no separator. -/
theorem not_mem_of_splitOnce_eq_none {separator : Char} {s : List Char}
    (h : splitOnce separator s = none) : separator ∉ s := by
  intro hmem
  obtain ⟨before, after, rfl, hbefore⟩ := List.eq_append_cons_of_mem hmem
  rw [splitOnce_append hbefore] at h
  cases h

/-! ### Parts of texts -/

/-- A text that begins with a start is the start with the rest behind it. -/
theorem append_of_dropStart? {start s rest : List Char} (h : dropStart? start s = some rest) :
    s = start ++ rest := by
  fun_induction dropStart? start s with
  | case1 s => exact Option.some.inj h
  | case2 => cases h
  | case3 c start s ih => rw [ih h, List.cons_append]
  | case4 => cases h

/-- A start is dropped from a text that it was put in front of. -/
theorem dropStart?_append (start rest : List Char) :
    dropStart? start (start ++ rest) = some rest := by
  induction start with
  | nil => rfl
  | cons c start ih => rw [List.cons_append, dropStart?, if_pos rfl, ih]

/-- A text starts with what is a prefix of it. -/
theorem startsWith_iff {start text : List Char} :
    startsWith start text = true ↔ start <+: text := by
  rw [startsWith, Option.isSome_iff_exists]
  constructor
  · rintro ⟨rest, hrest⟩
    exact ⟨rest, (append_of_dropStart? hrest).symm⟩
  · rintro ⟨rest, rfl⟩
    exact ⟨rest, dropStart?_append start rest⟩

/-- A part occurs in a text where it begins the text or occurs behind its first character. -/
theorem contains_iff {part text : List Char} : contains part text = true ↔ part <:+: text := by
  induction text with
  | nil => rw [contains, List.isEmpty_iff, List.infix_nil]
  | cons c text ih => rw [contains, Bool.or_eq_true, startsWith_iff, ih, List.infix_cons_iff]

end Studio.Text
