import Mathlib.Data.List.TakeWhile
import Studio.Json.Scan
import Studio.Proofs.Number.Exactness

/-!
# Scanning what is written

`Reads step value rest` says that a reading step succeeds with a value and leaves a text. A string
is read as it was written, whatever its characters are (`reads_readString`). A text `Ends` a value
in front of it when it begins with a blank, a comma or a closing bracket.
-/

namespace Studio.Json

open Studio.Number (isDigit digitValue natChars)
open Studio.Text (Rest Tail)

/-- The step succeeds with the value and leaves the text `rest`. -/
def Reads {α : Type} {s : List Char} (step : Step s α) (value : α) (rest : List Char) : Prop :=
  ∃ h : rest.length < s.length, step = .ok (value, ⟨rest, h⟩)

section

variable {α : Type} {s t rest : List Char} {a b : α}

/-- A step that came through reads what it gives. -/
@[simp] theorem reads_ok {r : Rest s} :
    Reads (.ok (a, r) : Step s α) b rest ↔ b = a ∧ rest = r.val := by
  constructor
  · rintro ⟨h, he⟩
    cases he
    exact ⟨rfl, rfl⟩
  · rintro ⟨rfl, rfl⟩
    exact ⟨r.property, rfl⟩

/-- A step that failed reads nothing. -/
@[simp] theorem not_reads_error {fault : Fault} :
    ¬ Reads (.error fault : Step s α) a rest := by
  rintro ⟨_, he⟩
  cases he

/-- A step in a longer text reads the same. -/
@[simp] theorem reads_widen {h : s.length ≤ t.length} {step : Step s α} :
    Reads (step.widen h) a rest ↔ Reads step a rest := by
  cases step with
  | error fault => exact iff_of_false not_reads_error not_reads_error
  | ok found =>
      obtain ⟨b, r⟩ := found
      simp [Text.Step.widen, Rest.widen]

/-- A step behind one character reads what it reads without it. -/
@[simp] theorem reads_cons {c : Char} {step : Step s α} :
    Reads (Text.Step.cons (c := c) step) a rest ↔ Reads step a rest :=
  reads_widen

end

/-! ### Strings -/

/-- A digit below sixteen is read back from its character. -/
theorem hexValue?_digitChar {n : Nat} (h : n < 16) : hexValue? (Nat.digitChar n) = some n := by
  revert n
  decide

/-- A control character is read back from its code point. -/
theorem reads_readCodePoint {c : Char} (h : c.toNat < 0x20) (more : List Char) :
    Reads (readCodePoint ('0' :: '0' :: Nat.digitChar (c.toNat / 16) ::
      Nat.digitChar (c.toNat % 16) :: more)) c more := by
  have hzero : hexValue? '0' = some 0 := rfl
  have hhigh := hexValue?_digitChar (n := c.toNat / 16) (by omega)
  have hlow := hexValue?_digitChar (n := c.toNat % 16) (by omega)
  have hsum : ((0 * 16 + 0) * 16 + c.toNat / 16) * 16 + c.toNat % 16 = c.toNat := by omega
  have hsurrogate : ¬ 0xDC00 ≤ c.toNat ∧ ¬ 0xD800 ≤ c.toNat := by omega
  simp only [readCodePoint, readHex, hzero, hhigh, hlow, hsum]
  simp [hsurrogate.1, hsurrogate.2, Rest.cons, Rest.behind]

/-- A character is written with an escape that is read as the character, or as it is. -/
theorem escapedChar_cases (c : Char) :
    (∃ escape, escapedChar c = '\\' :: escape ∧ ∀ s, Reads (readEscape (escape ++ s)) c s) ∨
      (escapedChar c = [c] ∧ c ≠ '"' ∧ c ≠ '\\' ∧ ¬ c.toNat < 0x20) := by
  have hletter {d : Char} (hd : ∀ s, Reads (readEscape (d :: s)) c s) :
      ∃ escape, ['\\', d] = '\\' :: escape ∧ ∀ s, Reads (readEscape (escape ++ s)) c s :=
    ⟨[d], rfl, hd⟩
  unfold escapedChar
  split_ifs with hquote hslash hback hfeed hline hreturn htab hcontrol
  · exact .inl (hletter fun s => by simp [readEscape, Rest.behind, hquote])
  · exact .inl (hletter fun s => by simp [readEscape, Rest.behind, hslash])
  · exact .inl (hletter fun s => by simp [readEscape, Rest.behind, hback])
  · exact .inl (hletter fun s => by simp [readEscape, Rest.behind, hfeed])
  · exact .inl (hletter fun s => by simp [readEscape, Rest.behind, hline])
  · exact .inl (hletter fun s => by simp [readEscape, Rest.behind, hreturn])
  · exact .inl (hletter fun s => by simp [readEscape, Rest.behind, htab])
  · exact .inl ⟨_, rfl, fun s => reads_cons.2 (reads_readCodePoint hcontrol s)⟩
  · exact .inr ⟨rfl, hquote, hslash, hcontrol⟩

/-- One character of a string is read as it was written. -/
theorem reads_escapedChar {c : Char} {read s rest : List Char} {text : String}
    (h : Reads (readStringFrom (c :: read) s) text rest) :
    Reads (readStringFrom read (escapedChar c ++ s)) text rest := by
  rcases escapedChar_cases c with ⟨escape, hc, hescape⟩ | ⟨hc, hquote, hslash, hcontrol⟩
  · obtain ⟨_, hescape⟩ := hescape s
    rw [hc, List.cons_append, readStringFrom, if_neg (by decide), if_pos rfl, hescape]
    exact reads_widen.2 h
  · rw [hc, List.cons_append, List.nil_append, readStringFrom, if_neg hquote, if_neg hslash,
      if_neg hcontrol]
    exact reads_cons.2 h

/-- An escaped text is read back up to its closing quote. -/
theorem reads_readStringFrom (read text more : List Char) :
    Reads (readStringFrom read (text.flatMap escapedChar ++ '"' :: more))
      (String.ofList (read.reverse ++ text)) more := by
  induction text generalizing read with
  | nil =>
      rw [List.flatMap_nil, List.nil_append, List.append_nil, readStringFrom, if_pos rfl]
      exact reads_ok.2 ⟨rfl, rfl⟩
  | cons c text ih =>
      rw [List.flatMap_cons, List.append_assoc]
      refine reads_escapedChar ?_
      simpa using ih (c :: read)

/-- A string is read as it was written. -/
theorem reads_readString (text : String) (more : List Char) :
    Reads (readString (text.toList.flatMap escapedChar ++ '"' :: more)) text more := by
  have hread := reads_readStringFrom [] text.toList more
  rwa [List.reverse_nil, List.nil_append, String.ofList_toList] at hread

/-! ### The end of a value -/

/-- Whether a value ends in front of the character: at a blank, a comma or a closing bracket. -/
def endsValue (c : Char) : Bool :=
  isSpace c || c = ',' || c = ']' || c = '\x7d'

/-- The text shows that a value ended in front of it. -/
def Ends (more : List Char) : Prop :=
  ∀ c ∈ more.head?, endsValue c = true

/-- A number may end where the text does. -/
theorem Ends.nil : Ends [] := by
  intro c hc
  cases hc

/-- A number may end at a character that ends values. -/
theorem Ends.cons {c : Char} (h : endsValue c = true) (more : List Char) : Ends (c :: more) := by
  intro d hd
  cases hd
  exact h

/-- A number does not go on where a value ends. -/
structure NoNumeral (c : Char) : Prop where
  digit : isDigit c = false
  point : c ≠ '.'
  small : c ≠ 'e'
  large : c ≠ 'E'

/-- What ends a value goes on with no number. -/
theorem noNumeral_of_endsValue {c : Char} (h : endsValue c = true) : NoNumeral c := by
  simp only [endsValue, isSpace, Bool.or_eq_true, decide_eq_true_eq] at h
  rcases h with (((h | rfl) | rfl) | rfl)
  · rcases h with ((rfl | rfl) | rfl) | rfl
    all_goals constructor <;> decide
  all_goals constructor <;> decide

end Studio.Json
