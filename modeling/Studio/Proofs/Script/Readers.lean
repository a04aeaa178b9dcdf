import Mathlib.Data.List.TakeWhile
import Studio.Script.Parser

/-!
# Reading in front of more text

`Reads step value rest` says that a reading step succeeds with a value and leaves a text. The
readers of names, texts, numbers and comparisons look at most one step ahead, so what they read
stays the same when more text stands behind, as long as what they leave shows where the item ended.
A text shows it by its closing quote (`readString_append`), a name or a number by a character that
it cannot go on with (`readName_append`, `readNumber_append`).
-/

namespace Studio.Script

open Studio.Text (Rest)
open Studio.Number (isDigit)

/-- The step succeeds with the value and leaves the text `rest`. -/
def Reads {α : Type} {fits : List Char → Prop}
    (step : Except Stop (α × {r : List Char // fits r})) (value : α) (rest : List Char) : Prop :=
  ∃ h : fits rest, step = .ok (value, ⟨rest, h⟩)

/-- The optional step succeeds with the value and leaves the text `rest`. -/
def Finds {α : Type} {s : List Char} (step : Option (α × Rest s)) (value : α)
    (rest : List Char) : Prop :=
  ∃ h : rest.length < s.length, step = some (value, ⟨rest, h⟩)

section

variable {α β : Type} {s rest : List Char} {a : α}

/-- A step that came through reads what it gives. -/
@[simp] theorem reads_ok {fits : List Char → Prop} {r : {r : List Char // fits r}} {b : α} :
    Reads (.ok (a, r)) b rest ↔ b = a ∧ rest = r.val := by
  constructor
  · intro hread
    obtain ⟨h, he⟩ := hread
    cases he
    exact ⟨rfl, rfl⟩
  · intro hread
    obtain ⟨rfl, rfl⟩ := hread
    exact ⟨r.property, rfl⟩

/-- A step that stopped reads nothing. -/
@[simp] theorem not_reads_error {fits : List Char → Prop} {e : Stop} :
    ¬ Reads (.error e : Except Stop (α × {r : List Char // fits r})) a rest := by
  intro hread
  obtain ⟨_, he⟩ := hread
  cases he

/-- A step that stops for a cause reads nothing. -/
@[simp] theorem not_reads_stop {fits : List Char → Prop} {cause : Malformation} :
    ¬ Reads (stop cause s : Except Stop (α × {r : List Char // fits r})) a rest :=
  not_reads_error

/-- What is found is what the step gives. -/
@[simp] theorem finds_some {r : Rest s} {b : α} :
    Finds (some (a, r)) b rest ↔ b = a ∧ rest = r.val := by
  constructor
  · intro hread
    obtain ⟨h, he⟩ := hread
    cases he
    exact ⟨rfl, rfl⟩
  · intro hread
    obtain ⟨rfl, rfl⟩ := hread
    exact ⟨r.property, rfl⟩

/-- Where nothing is found, no result is. -/
@[simp] theorem not_finds_none : ¬ Finds (s := s) none a rest := by
  intro hread
  obtain ⟨_, he⟩ := hread
  cases he

/-- A step behind one character reads what it reads without it. -/
@[simp] theorem reads_cons {c : Char} {step : Step s α} :
    Reads (step.cons (c := c)) a rest ↔ Reads step a rest := by
  cases step with
  | error e => simp [Text.Step.cons, Text.Step.widen]
  | ok found =>
      obtain ⟨b, r⟩ := found
      simp [Text.Step.cons, Text.Step.widen, Rest.widen]

/-- A step whose result is changed reads the changed result. -/
@[simp] theorem reads_map {f : α → β} {b : β} {step : Step s α} :
    Reads (step.map f) b rest ↔ ∃ a, Reads step a rest ∧ b = f a := by
  cases step with
  | error e => simp [Text.Step.map]
  | ok found =>
      obtain ⟨a, r⟩ := found
      simp only [Text.Step.map, reads_ok]
      constructor
      · intro hread
        obtain ⟨rfl, rfl⟩ := hread
        exact ⟨a, ⟨rfl, rfl⟩, rfl⟩
      · intro hread
        obtain ⟨_, ⟨rfl, rfl⟩, rfl⟩ := hread
        exact ⟨rfl, rfl⟩

/-- A step reads one result and leaves one rest. -/
theorem Reads.unique {fits : List Char → Prop}
    {step : Except Stop (α × {r : List Char // fits r})} {b : α} {other : List Char}
    (h : Reads step a rest) (hother : Reads step b other) : a = b ∧ rest = other := by
  obtain ⟨_, rfl⟩ := h
  exact (reads_ok.1 hother).imp Eq.symm Eq.symm

/-- A step that reads something uses characters up. -/
theorem Reads.length_lt {step : Step s α} (h : Reads step a rest) : rest.length < s.length :=
  h.1

/-- Nothing is read from an empty text. -/
theorem Reads.ne_nil {step : Step s α} (h : Reads step a rest) : s ≠ [] :=
  List.ne_nil_of_length_pos (Nat.zero_lt_of_lt h.length_lt)

/-- Nothing is found in an empty text. -/
theorem Finds.ne_nil {step : Option (α × Rest s)} (h : Finds step a rest) : s ≠ [] :=
  List.ne_nil_of_length_pos (Nat.zero_lt_of_lt h.1)

/-- A step that may read nothing leaves no more than there was. -/
theorem Reads.length_le {step : Text.TailStep Stop s α} (h : Reads step a rest) :
    rest.length ≤ s.length :=
  h.1

end

/-! ### Skipping -/

/-- Where dropping stops inside a text, more behind it does not change where. -/
theorem dropWhile_append_of_ne_nil {p : Char → Bool} {s : List Char} (h : s.dropWhile p ≠ [])
    (more : List Char) : (s ++ more).dropWhile p = s.dropWhile p ++ more := by
  rw [List.dropWhile_append, if_neg (by simpa using h)]

/-- Where taking stops inside a text, more behind it is not taken. -/
theorem takeWhile_append_of_ne_nil {p : Char → Bool} {s : List Char} (h : s.dropWhile p ≠ [])
    (more : List Char) : (s ++ more).takeWhile p = s.takeWhile p := by
  rw [List.takeWhile_append, if_neg]
  intro hlength
  have hall := congrArg List.length (List.takeWhile_append_dropWhile (p := p) (l := s))
  rw [List.length_append, hlength] at hall
  exact h (List.length_eq_zero_iff.1 (by omega))

/-- Blanks that do not reach the end are skipped alike with more behind them. -/
theorem skipBlank_append {s : List Char} (h : skipBlank s ≠ []) (more : List Char) :
    skipBlank (s ++ more) = skipBlank s ++ more :=
  dropWhile_append_of_ne_nil h more

/-- Blanks of the line that do not reach the end are skipped alike with more behind them. -/
theorem skipInline_append {s : List Char} (h : skipInline s ≠ []) (more : List Char) :
    skipInline (s ++ more) = skipInline s ++ more :=
  dropWhile_append_of_ne_nil h more

/-- The character that comes after blanks also does with more behind it. -/
theorem skipBlank_append_of_cons {s rest : List Char} {c : Char} (h : skipBlank s = c :: rest)
    (more : List Char) : skipBlank (s ++ more) = c :: (rest ++ more) := by
  have hne : skipBlank s ≠ [] := by simp [h]
  rw [skipBlank_append hne, h, List.cons_append]

/-- The character that comes after blanks of the line also does with more behind it. -/
theorem skipInline_append_of_cons {s rest : List Char} {c : Char} (h : skipInline s = c :: rest)
    (more : List Char) : skipInline (s ++ more) = c :: (rest ++ more) := by
  have hne : skipInline s ≠ [] := by simp [h]
  rw [skipInline_append hne, h, List.cons_append]

/-- Characters that a test tells apart are different. -/
theorem ne_of_test {test : Char → Bool} {c d : Char} (hc : test c = true) (hd : test d = false) :
    c ≠ d := by
  intro heq
  rw [heq, hd] at hc
  exact Bool.false_ne_true hc

/-- The next character behind blanks is a comma or a closing bracket. -/
def Delimited (s : List Char) : Prop :=
  ∃ c rest, skipBlank s = c :: rest ∧ (c = ',' ∨ c = ')' ∨ c = ']')

/-- What delimits a value is not empty. -/
theorem Delimited.ne_nil {s : List Char} (h : Delimited s) : s ≠ [] := by
  intro heq
  subst heq
  obtain ⟨c, rest, hskip, -⟩ := h
  simp [skipBlank] at hskip

/-- What delimits a value is not just blank. -/
theorem Delimited.skipBlank_ne_nil {s : List Char} (h : Delimited s) : skipBlank s ≠ [] := by
  obtain ⟨c, rest, hskip, -⟩ := h
  simp [hskip]

/-- A character that is no blank and no delimiter cannot begin a delimited text. -/
theorem Delimited.head {c : Char} {s : List Char} (h : Delimited (c :: s))
    (hc : isBlank c = false) : c = ',' ∨ c = ')' ∨ c = ']' := by
  obtain ⟨d, rest, hskip, hd⟩ := h
  simp only [skipBlank, List.dropWhile_cons, hc, Bool.false_eq_true, if_false,
    List.cons.injEq] at hskip
  exact hskip.1 ▸ hd

/-- What delimits a value is not just a point. -/
theorem Delimited.ne_point {s : List Char} (h : Delimited s) : s ≠ ['.'] := by
  intro heq
  subst heq
  simpa using h.head (by decide)

/-! ### Names and texts -/

/-- A name is read up to the first character that is none of a name. -/
theorem reads_readName {s rest : List Char} {name : String} :
    Reads (readName s) name rest ↔ ∃ c t, s = c :: t ∧ beginsName c = true ∧
      name = String.ofList (c :: t.takeWhile isNameChar) ∧ rest = t.dropWhile isNameChar := by
  cases s with
  | nil => simp [readName]
  | cons c t =>
      simp only [readName, List.cons.injEq]
      by_cases h : beginsName c = true
      · rw [if_pos h, reads_ok]
        constructor
        · intro hread
          obtain ⟨rfl, rfl⟩ := hread
          exact ⟨c, t, ⟨rfl, rfl⟩, h, rfl, rfl⟩
        · intro hread
          obtain ⟨_, _, ⟨rfl, rfl⟩, -, rfl, rfl⟩ := hread
          exact ⟨rfl, rfl⟩
      · rw [if_neg h]
        simp only [not_reads_stop, false_iff]
        intro hread
        obtain ⟨_, _, ⟨rfl, rfl⟩, hc, -⟩ := hread
        exact h hc

/-- A name that does not reach the end is read alike with more behind it. -/
theorem readName_append {s rest : List Char} {name : String} (h : Reads (readName s) name rest)
    (hrest : rest ≠ []) (more : List Char) :
    Reads (readName (s ++ more)) name (rest ++ more) := by
  obtain ⟨c, t, rfl, hc, rfl, rfl⟩ := reads_readName.1 h
  refine reads_readName.2 ⟨c, t ++ more, rfl, hc, ?_, ?_⟩
  · rw [takeWhile_append_of_ne_nil hrest]
  · rw [dropWhile_append_of_ne_nil hrest]

section

variable {read s rest : List Char} {text : String}

/-- The closing quote ends a text. -/
theorem reads_closingQuote (read more : List Char) :
    Reads (readStringFrom read ('"' :: more)) (String.ofList read.reverse) more := by
  rw [readStringFrom]
  · rw [if_pos rfl, reads_ok]
    exact ⟨rfl, rfl⟩
  all_goals simp

/-- An escape adds the character it stands for. -/
theorem reads_escape {c value : Char} (h : unescape? c = some value) :
    Reads (readStringFrom read ('\\' :: c :: s)) text rest ↔
      Reads (readStringFrom (value :: read) s) text rest := by
  simp only [readStringFrom, h, reads_cons]

/-- Within a text every character but two stands for itself. -/
theorem reads_plainChar {c : Char} (hquote : c ≠ '"') (hescape : c ≠ '\\') :
    Reads (readStringFrom read (c :: s)) text rest ↔
      Reads (readStringFrom (c :: read) s) text rest := by
  rw [readStringFrom]
  · rw [if_neg hquote, reads_cons]
  · intro heq
    exact absurd heq hescape
  · intro _ _ heq
    exact absurd heq hescape

end

/-- The inside of a quoted text is read alike with more behind the closing quote. -/
theorem readStringFrom_append {read s rest : List Char} {text : String}
    (h : Reads (readStringFrom read s) text rest) (more : List Char) :
    Reads (readStringFrom read (s ++ more)) text (rest ++ more) := by
  fun_induction readStringFrom read s with
  | case1 | case2 | case4 => simp at h
  | case3 read c s value hc ih =>
      rw [reads_cons, reads_cons] at h
      exact (reads_escape hc).2 (ih h)
  | case5 read s h1 h2 =>
      obtain ⟨rfl, rfl⟩ := reads_ok.1 h
      exact reads_closingQuote read _
  | case6 read c s h1 h2 hc ih =>
      rw [reads_cons] at h
      -- A backslash would have been read by one of the cases before.
      have hescape : c ≠ '\\' := by
        intro heq
        subst heq
        cases s with
        | nil => exact h1 rfl rfl
        | cons d s => exact h2 d s rfl rfl
      exact (reads_plainChar hc hescape).2 (ih h)

/-- A quoted text is read alike with more behind it. -/
theorem readString_append {s rest : List Char} {text : String}
    (h : Reads (readString s) text rest) (more : List Char) :
    Reads (readString (s ++ more)) text (rest ++ more) :=
  readStringFrom_append h more

/-! ### Numbers -/

/-- A fraction that does not reach the end is read alike with more behind it. -/
theorem readFraction_append {s : List Char} (h : (readFraction s).2 ≠ [])
    (hpoint : (readFraction s).2 ≠ ['.']) (more : List Char) :
    readFraction (s ++ more) = ((readFraction s).1, (readFraction s).2 ++ more) := by
  fun_cases readFraction s with
  | case1 c t hc =>
      simp only [readFraction, hc, if_true] at h
      simp only [List.cons_append, readFraction, hc, if_true, takeWhile_append_of_ne_nil h,
        dropWhile_append_of_ne_nil h]
  | case2 c t hc => simp [readFraction, hc]
  | case3 _ hother =>
      rw [readFraction.eq_2 s hother] at h hpoint
      refine readFraction.eq_2 _ ?_
      intro c t hs
      rcases s with _ | ⟨d, _ | ⟨e, s⟩⟩
      · exact h rfl
      · -- A point at the end of the text, which more text could make a fraction of.
        simp only [List.cons_append, List.nil_append, List.cons.injEq] at hs
        exact hpoint (by rw [hs.1])
      · simp only [List.cons_append, List.cons.injEq] at hs
        exact hother e s (by rw [hs.1])

/-- Digits that do not reach the end are read alike with more behind them. -/
theorem readDigits_append {negative : Bool} {whole s rest : List Char} {x : Float}
    (h : Reads (readDigits negative whole s) x rest) (hrest : rest ≠ []) (hpoint : rest ≠ ['.'])
    (whole' more : List Char) :
    Reads (readDigits negative whole' (s ++ more)) x (rest ++ more) := by
  cases s with
  | nil => simp [readDigits] at h
  | cons c t =>
      simp only [readDigits] at h
      split at h
      · next hc =>
          obtain ⟨rfl, rfl⟩ := reads_ok.1 h
          -- The digits end inside the text, since something is left of it.
          have ht : t.dropWhile isDigit ≠ [] := fun ht => hrest (by simp [ht, readFraction])
          rw [List.cons_append, readDigits, if_pos hc, reads_ok]
          simp only [takeWhile_append_of_ne_nil ht, dropWhile_append_of_ne_nil ht,
            readFraction_append hrest hpoint, and_self]
      · simp at h

/-- A number that does not reach the end is read alike with more behind it. -/
theorem readNumber_append {s rest : List Char} {x : Float} (h : Reads (readNumber s) x rest)
    (hrest : rest ≠ []) (hpoint : rest ≠ ['.']) (more : List Char) :
    Reads (readNumber (s ++ more)) x (rest ++ more) := by
  fun_cases readNumber s with
  | case1 t =>
      rw [readNumber, reads_cons] at h
      rw [List.cons_append, readNumber, reads_cons]
      exact readDigits_append h hrest hpoint _ _
  | case2 t =>
      rw [readNumber, reads_cons] at h
      rw [List.cons_append, readNumber, reads_cons]
      exact readDigits_append h hrest hpoint _ _
  | case3 _ hminus hplus =>
      rw [readNumber.eq_3 s hminus hplus] at h
      cases s with
      | nil => simp [readDigits] at h
      | cons c t =>
          rw [List.cons_append, readNumber.eq_3]
          · exact readDigits_append h hrest hpoint _ _
          · intro r hr
            exact hminus t (by rw [(List.cons.inj hr).1])
          · intro r hr
            exact hplus t (by rw [(List.cons.inj hr).1])

/-! ### Comparisons -/

/-- A comparison that does not reach the end is read alike with more behind it. -/
theorem readComparison_append {s rest : List Char} {comparison : Comparison}
    (h : Finds (readComparison? s) comparison rest) (hrest : rest ≠ []) (more : List Char) :
    Finds (readComparison? (s ++ more)) comparison (rest ++ more) := by
  fun_cases readComparison? s with
  | case1 t | case2 t | case3 t | case4 t =>
      obtain ⟨rfl, rfl⟩ := finds_some.1 h
      simp [readComparison?, Rest.cons, Rest.behind]
  | case5 t hequal | case6 t hequal =>
      rw [readComparison?] at h
      · obtain ⟨rfl, rfl⟩ := finds_some.1 h
        cases rest with
        | nil => exact absurd rfl hrest
        | cons c t =>
            have hc : c ≠ '=' := fun hc => hequal t (by rw [hc])
            simp [readComparison?, Rest.behind, hc]
      · exact hequal
  | case7 => 
      rw [readComparison?.eq_7] at h
      · exact absurd h not_finds_none
      all_goals assumption

/-- No comparison comes before the next delimiter. -/
theorem readComparison_delimited {s : List Char} (h : Delimited s) :
    readComparison? (skipBlank s) = none := by
  obtain ⟨c, rest, hskip, rfl | rfl | rfl⟩ := h <;> rw [hskip] <;> rfl

/-- A literal that is written as a word. -/
theorem reads_readLiteral_word {c : Char} {t rest : List Char} {literal : Literal}
    (hquote : c ≠ '"') (hnumber : beginsNumber c = false) :
    Reads (readLiteral (c :: t)) literal rest ↔ ∃ word, Reads (readName (c :: t)) word rest ∧
      (word = "true" ∧ literal = .bool true ∨ word = "false" ∧ literal = .bool false) := by
  simp only [readLiteral, hquote, hnumber, if_false, Bool.false_eq_true]
  by_cases hc : beginsName c = true
  · rw [if_pos hc]
    cases hname : readName (c :: t) with
    | error e => simp
    | ok read =>
        obtain ⟨found, r⟩ := read
        simp only [reads_ok]
        by_cases htrue : found = "true"
        · rw [if_pos htrue, reads_ok]
          constructor
          · intro hread
            obtain ⟨rfl, rfl⟩ := hread
            exact ⟨found, ⟨rfl, rfl⟩, .inl ⟨htrue, rfl⟩⟩
          · intro hread
            rcases hread with ⟨_, ⟨rfl, rfl⟩, ⟨-, rfl⟩ | ⟨hfalse, -⟩⟩
            · exact ⟨rfl, rfl⟩
            · simp [htrue] at hfalse
        · rw [if_neg htrue]
          split
          · next hfalse =>
              rw [reads_ok]
              constructor
              · intro hread
                obtain ⟨rfl, rfl⟩ := hread
                exact ⟨found, ⟨rfl, rfl⟩, .inr ⟨hfalse, rfl⟩⟩
              · intro hread
                rcases hread with ⟨_, ⟨rfl, rfl⟩, ⟨h, -⟩ | ⟨-, rfl⟩⟩
                · exact absurd h htrue
                · exact ⟨rfl, rfl⟩
          · next hfalse =>
              simp only [not_reads_stop, false_iff]
              intro hread
              rcases hread with ⟨_, ⟨rfl, rfl⟩, ⟨h, -⟩ | ⟨h, -⟩⟩
              · exact htrue h
              · exact hfalse h
  · rw [if_neg hc]
    simp [readName, hc]

/-- A literal that is delimited is read alike with more behind it. -/
theorem readLiteral_append {s rest : List Char} {literal : Literal}
    (h : Reads (readLiteral s) literal rest) (hrest : Delimited rest) (more : List Char) :
    Reads (readLiteral (s ++ more)) literal (rest ++ more) := by
  cases s with
  | nil => simp [readLiteral] at h
  | cons c t =>
      by_cases hquote : c = '"'
      · simp only [readLiteral, hquote, if_true, reads_cons, reads_map] at h
        simp only [List.cons_append, readLiteral, hquote, if_true, reads_cons, reads_map]
        obtain ⟨text, ht, rfl⟩ := h
        exact ⟨text, readString_append ht more, rfl⟩
      · by_cases hnumber : beginsNumber c = true
        · simp only [readLiteral, hquote, hnumber, if_false, if_true, reads_map] at h
          simp only [List.cons_append, readLiteral, hquote, hnumber, if_false, if_true, reads_map]
          obtain ⟨x, hx, rfl⟩ := h
          exact ⟨x, readNumber_append hx hrest.ne_nil hrest.ne_point more, rfl⟩
        · rw [Bool.not_eq_true] at hnumber
          obtain ⟨word, hword, hliteral⟩ := (reads_readLiteral_word hquote hnumber).1 h
          exact (reads_readLiteral_word hquote hnumber).2
            ⟨word, readName_append hword hrest.ne_nil more, hliteral⟩

/-! ### Indices and properties -/

/-- An index is a number without sign and fraction up to the closing bracket. -/
theorem reads_readIndex {s rest : List Char} {index : Nat} :
    Reads (readIndex s) index rest ↔ ∃ x r, Reads (readNumber (skipBlank s)) x r ∧
      skipBlank r = ']' :: rest ∧ (x < 0 || !Number.isIntegral x) = false ∧
      index = Number.toIndex x := by
  unfold readIndex
  cases readNumber (skipBlank s) with
  | error e => simp
  | ok read =>
      obtain ⟨x, r⟩ := read
      simp only [reads_ok, and_assoc, exists_and_left, exists_eq_left]
      split
      · next t ht =>
          simp only [ht, List.cons.injEq, true_and]
          by_cases hx : (x < 0 || !Number.isIntegral x) = true
          · simp [hx]
          · simp [hx, eq_comm, and_comm]
      · next hother =>
          simp only [not_reads_stop, false_iff]
          intro h
          exact hother _ h.1

/-- An index is read alike with more behind its closing bracket. -/
theorem readIndex_append {s rest : List Char} {index : Nat} (h : Reads (readIndex s) index rest)
    (more : List Char) : Reads (readIndex (s ++ more)) index (rest ++ more) := by
  obtain ⟨x, r, hx, hr, hnatural, hindex⟩ := reads_readIndex.1 h
  have hdelimited : Delimited r := ⟨_, _, hr, .inr (.inr rfl)⟩
  refine reads_readIndex.2 ⟨x, r ++ more, ?_, ?_, hnatural, hindex⟩
  · rw [skipBlank_append hx.ne_nil]
    exact readNumber_append hx hdelimited.ne_nil hdelimited.ne_point more
  · exact skipBlank_append_of_cons hr more

end Studio.Script
