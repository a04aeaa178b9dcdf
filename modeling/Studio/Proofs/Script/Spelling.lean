import Studio.Proofs.Script.Programs

/-!
# Texts that are read as values

Where the modules before say what a reader does on any text, here is which texts are read as what:
`Spells read s a` that a reader makes `a` of the text `s`, whatever closes it. There is one lemma
for each form of a value (`spells_string`, `spells_predicate`, `spells_array` and so on), which puts
its text together from those of its parts.
-/

namespace Studio.Script

open Studio.Number (isDigit)

/-! ### What stands behind -/

/-- The first character, if there is one, fails a test. -/
def Stops (test : Char → Bool) (more : List Char) : Prop :=
  ∀ c rest, more = c :: rest → test c = false

/-- A comma or a closing bracket comes next. -/
def Closes (more : List Char) : Prop :=
  ∃ c rest, more = c :: rest ∧ (c = ',' ∨ c = ')' ∨ c = ']')

/-- A text that begins with a comma or a closing bracket closes what stands before it. -/
theorem closes_cons {c : Char} (hc : c = ',' ∨ c = ')' ∨ c = ']') (rest : List Char) :
    Closes (c :: rest) :=
  ⟨c, rest, rfl, hc⟩

/-- A first character that fails the test stops it, whatever follows. -/
theorem Stops.cons {test : Char → Bool} {c : Char} (h : test c = false) (rest : List Char) :
    Stops test (c :: rest) := by
  intro d more heq
  rwa [← (List.cons.inj heq).1]

/-- The blanks one by one. -/
def blankChars : List Char :=
  [' ', '\t', '\n', '\x0c', '\r']

/-- The list of blanks is the test for blanks. -/
theorem mem_blankChars {c : Char} : c ∈ blankChars ↔ isBlank c = true := by
  simp [blankChars, isBlank, or_assoc]

/-- Blanks in front keep a test stopped that no blank passes. -/
theorem Stops.blanks {blanks more : List Char} {test : Char → Bool} (h : Stops test more)
    (hblanks : ∀ c ∈ blanks, isBlank c = true)
    (htest : blankChars.all (fun c => !test c) = true) : Stops test (blanks ++ more) := by
  cases blanks with
  | nil => exact h
  | cons c rest =>
      have hc := mem_blankChars.2 (hblanks c List.mem_cons_self)
      exact .cons (by simpa using List.all_eq_true.1 htest c hc) _

/-- Where something closes, a test stops that commas and closing brackets fail. -/
theorem Closes.stops {more : List Char} (h : Closes more) {test : Char → Bool}
    (htest : test ',' = false ∧ test ')' = false ∧ test ']' = false) : Stops test more := by
  obtain ⟨c, rest, rfl, rfl | rfl | rfl⟩ := h
  · exact .cons htest.1 rest
  · exact .cons htest.2.1 rest
  · exact .cons htest.2.2 rest

/-- Where the test for one character stops, that character does not come next. -/
theorem Stops.ne {c : Char} {more : List Char} (h : Stops (· == c) more) (rest : List Char) :
    more ≠ c :: rest := by
  intro heq
  simpa using h c rest heq

/-- What closes begins with no character but a comma or a closing bracket. -/
theorem Closes.ne {more : List Char} (h : Closes more) {c : Char}
    (hc : (',' == c) = false ∧ (')' == c) = false ∧ (']' == c) = false) (rest : List Char) :
    more ≠ c :: rest :=
  (h.stops hc).ne rest

/-- Taking the characters that pass a test ends where the test stops. -/
theorem takeWhile_append_stops {test : Char → Bool} {s more : List Char}
    (h : ∀ c ∈ s, test c = true) (hmore : Stops test more) : (s ++ more).takeWhile test = s := by
  rw [List.takeWhile_append_of_pos h]
  cases more with
  | nil => simp
  | cons c rest => simp [hmore c rest rfl]

/-- Dropping the characters that pass a test leaves what stands where the test stops. -/
theorem dropWhile_append_stops {test : Char → Bool} {s more : List Char}
    (h : ∀ c ∈ s, test c = true) (hmore : Stops test more) : (s ++ more).dropWhile test = more := by
  rw [List.dropWhile_append_of_pos h]
  cases more with
  | nil => rfl
  | cons c rest => simp [hmore c rest rfl]

/-- Blanks are skipped up to the first character that is none. -/
theorem skipBlank_append_stops {blanks more : List Char} (h : ∀ c ∈ blanks, isBlank c = true)
    (hmore : Stops isBlank more) : skipBlank (blanks ++ more) = more :=
  dropWhile_append_stops h hmore

/-- Where no blank comes next, skipping blanks changes nothing. -/
theorem skipBlank_of_stops {s : List Char} (h : Stops isBlank s) : skipBlank s = s :=
  dropWhile_append_stops (s := []) (by simp) h

/-- Where no blank of the line comes next, skipping such blanks changes nothing. -/
theorem skipInline_of_stops {s : List Char} (h : Stops isInlineBlank s) : skipInline s = s :=
  dropWhile_append_stops (s := []) (by simp) h

/-! ### Names -/

/-- Whether a text is a name. -/
def isName : List Char → Bool
  | [] => false
  | c :: rest => beginsName c && rest.all isNameChar

/-- A name is not empty, and its first character begins a name. -/
theorem beginsName_of_isName {s : List Char} (h : isName s = true) :
    ∃ c rest, s = c :: rest ∧ beginsName c = true := by
  cases s with
  | nil => cases h
  | cons c rest => exact ⟨c, rest, rfl, (Bool.and_eq_true_iff.1 h).1⟩

/-- A name is read up to the first character that cannot be part of one. -/
theorem reads_name {s more : List Char} (h : isName s = true) (hmore : Stops isNameChar more) :
    Reads (readName (s ++ more)) (String.ofList s) more := by
  cases s with
  | nil => cases h
  | cons c rest =>
      obtain ⟨hc, hrest⟩ := Bool.and_eq_true_iff.1 h
      have hrest := List.all_eq_true.1 hrest
      refine reads_readName.2 ⟨c, rest ++ more, rfl, hc, ?_, ?_⟩
      · rw [takeWhile_append_stops hrest hmore]
      · rw [dropWhile_append_stops hrest hmore]

/-- Where something closes, a name has ended. -/
theorem Closes.stops_name {more : List Char} (h : Closes more) : Stops isNameChar more :=
  h.stops ⟨rfl, rfl, rfl⟩

/-! ### Texts and numbers -/

/-- The characters that those of a text stand for, if its escapes are known. -/
def unescaped? : List Char → Option (List Char)
  | [] => some []
  | ['\\'] => none
  | '\\' :: c :: rest => (unescape? c).bind fun value => (unescaped? rest).map (value :: ·)
  | c :: rest => (unescaped? rest).map (c :: ·)

/-- The inside of a quoted text is read with its escapes resolved, behind what was read before. -/
theorem reads_stringFrom {s text : List Char} (h : unescaped? s = some text) (hquote : '"' ∉ s)
    (read more : List Char) : Reads (readStringFrom read (s ++ '"' :: more))
      (String.ofList (read.reverse ++ text)) more := by
  fun_induction unescaped? s generalizing read text with
  | case1 =>
      obtain rfl := Option.some.inj h
      rw [List.append_nil]
      exact reads_closingQuote read more
  | case2 => cases h
  | case3 c rest ih =>
      obtain ⟨value, hvalue, h⟩ := Option.bind_eq_some_iff.1 h
      obtain ⟨others, hothers, rfl⟩ := Option.map_eq_some_iff.1 h
      have hread := ih hothers (fun hmem => hquote (by simp [hmem])) (value :: read)
      refine (reads_escape hvalue).2 ?_
      simpa using hread
  | case4 c rest h1 h2 ih =>
      obtain ⟨others, hothers, rfl⟩ := Option.map_eq_some_iff.1 h
      have hread := ih hothers (fun hmem => hquote (List.mem_cons_of_mem c hmem)) (c :: read)
      -- A backslash would begin an escape.
      have hescape : c ≠ '\\' := by
        rintro rfl
        cases rest with
        | nil => exact h1 rfl rfl
        | cons d rest => exact h2 d rest rfl rfl
      have hc : c ≠ '"' := fun heq => hquote (heq ▸ List.mem_cons_self)
      refine (reads_plainChar hc hescape).2 ?_
      simpa using hread

/-- A quoted text is read as the text with its escapes resolved. -/
theorem reads_string {s text : List Char} (h : unescaped? s = some text) (hquote : '"' ∉ s)
    (more : List Char) :
    Reads (readString (s ++ '"' :: more)) (String.ofList text) more :=
  reads_stringFrom h hquote [] more

/-- The digits behind the point of a number, and the point. -/
def fractionText : List Char → List Char
  | [] => []
  | digits => '.' :: digits

/-- The digits behind a point are read up to the first character that is no digit. -/
theorem readFraction_append_stops {fraction more : List Char}
    (hfraction : ∀ c ∈ fraction, isDigit c = true) (hdigit : Stops isDigit more)
    (hpoint : ∀ rest, more ≠ '.' :: rest) :
    readFraction (fractionText fraction ++ more) = (fraction, more) := by
  cases fraction with
  | nil =>
      refine readFraction.eq_2 _ ?_
      intro c rest heq
      exact hpoint (c :: rest) heq
  | cons c rest =>
      obtain ⟨hc, hrest⟩ := List.forall_mem_cons.1 hfraction
      simp only [fractionText, List.cons_append, readFraction, hc, if_true,
        takeWhile_append_stops hrest hdigit, dropWhile_append_stops hrest hdigit]

/-- A fraction begins with a point, so it ends the digits before it. -/
theorem stops_fractionText (fraction : List Char) {more : List Char} (hmore : Stops isDigit more) :
    Stops isDigit (fractionText fraction ++ more) := by
  cases fraction with
  | nil => exact hmore
  | cons c rest => exact .cons rfl _

/-- Digits with a fraction behind them are read as the decimal they spell. -/
theorem reads_digits {whole fraction more : List Char} (hne : whole ≠ [])
    (hwhole : ∀ c ∈ whole, isDigit c = true) (hfraction : ∀ c ∈ fraction, isDigit c = true)
    (hdigit : Stops isDigit more) (hpoint : ∀ rest, more ≠ '.' :: rest) (negative : Bool)
    (before : List Char) :
    Reads (readDigits negative before (whole ++ (fractionText fraction ++ more)))
      (ofDecimal negative whole fraction) more := by
  cases whole with
  | nil => exact absurd rfl hne
  | cons c rest =>
      obtain ⟨hc, hrest⟩ := List.forall_mem_cons.1 hwhole
      have hstops := stops_fractionText fraction hdigit
      rw [List.cons_append, readDigits, if_pos hc, reads_ok]
      simp only [takeWhile_append_stops hrest hstops, dropWhile_append_stops hrest hstops,
        readFraction_append_stops hfraction hdigit hpoint, and_self]

/-- The sign of a number as it is written. -/
def signText : Bool → List Char
  | true => ['-']
  | false => []

/-- A digit is no sign. -/
theorem ne_sign_of_isDigit {c : Char} (h : isDigit c = true) : c ≠ '-' ∧ c ≠ '+' :=
  ⟨ne_of_test h rfl, ne_of_test h rfl⟩

/-- A number is read as the decimal it spells, with or without a minus in front. -/
theorem reads_number {whole fraction more : List Char} (hne : whole ≠ [])
    (hwhole : ∀ c ∈ whole, isDigit c = true) (hfraction : ∀ c ∈ fraction, isDigit c = true)
    (hdigit : Stops isDigit more) (hpoint : ∀ rest, more ≠ '.' :: rest) (negative : Bool) :
    Reads (readNumber (signText negative ++ (whole ++ (fractionText fraction ++ more))))
      (ofDecimal negative whole fraction) more := by
  cases negative with
  | true =>
      rw [signText, List.cons_append, readNumber, reads_cons]
      exact reads_digits hne hwhole hfraction hdigit hpoint true _
  | false =>
      cases whole with
      | nil => exact absurd rfl hne
      | cons c rest =>
          obtain ⟨hminus, hplus⟩ := ne_sign_of_isDigit (hwhole c List.mem_cons_self)
          rw [signText, List.nil_append, List.cons_append, readNumber.eq_3]
          · rw [← List.cons_append]
            exact reads_digits hne hwhole hfraction hdigit hpoint false _
          · intro other heq
            exact hminus (List.cons.inj heq).1
          · intro other heq
            exact hplus (List.cons.inj heq).1

/-! ### Literals -/

/-- The characters that cannot begin a value: blanks, closing brackets and the sign of equality. -/
def beginsNoValue (c : Char) : Bool :=
  isBlank c || c = ')' || c = ']' || c = '='

/-- A text begins with a character that may begin a value. -/
def Begins (s : List Char) : Prop :=
  ∃ c rest, s = c :: rest ∧ beginsNoValue c = false

/-- What a text is read as, whatever closes it. -/
structure Spells {α : Type} (read : (s : List Char) → Step s α) (s : List Char) (a : α) :
    Prop where
  begins : Begins s
  reads (more : List Char) (hmore : Closes more) : Reads (read (s ++ more)) a more

/-- What begins a value still begins one with more behind it. -/
theorem Begins.append {s : List Char} (h : Begins s) (more : List Char) : Begins (s ++ more) := by
  obtain ⟨c, rest, rfl, hc⟩ := h
  exact ⟨c, rest ++ more, rfl, hc⟩

/-- Where a value begins, every test stops that only passes what begins no value. -/
theorem Begins.stops {s : List Char} (h : Begins s) {test : Char → Bool}
    (htest : ∀ c, test c = true → beginsNoValue c = true) : Stops test s := by
  obtain ⟨c, rest, rfl, hc⟩ := h
  refine .cons (Bool.eq_false_iff.2 fun h => ?_) rest
  simp [htest c h] at hc

/-- Where a value begins, there is no blank. -/
theorem Begins.stops_blank {s : List Char} (h : Begins s) : Stops isBlank s :=
  h.stops fun c hc => by simp [beginsNoValue, hc]

/-- A character that begins no value does not come next where a value begins. -/
theorem Begins.stops_char {s : List Char} (h : Begins s) {c : Char} (hc : beginsNoValue c = true) :
    Stops (· == c) s :=
  h.stops fun d hd => by rwa [eq_of_beq hd]

/-- There are no blanks to skip where a value begins. -/
theorem Begins.skipBlank {s : List Char} (h : Begins s) : skipBlank s = s :=
  skipBlank_of_stops h.stops_blank

/-- A first character begins a value when it passes a test that blanks and closing marks fail. -/
theorem Begins.of_test {test : Char → Bool} {c : Char} (h : test c = true) (rest : List Char)
    (htest : (')' :: ']' :: '=' :: blankChars).all (fun d => !test d) = true) :
    Begins (c :: rest) := by
  refine ⟨c, rest, rfl, Bool.eq_false_iff.2 ?_⟩
  intro hc
  have hmem : c ∈ ')' :: ']' :: '=' :: blankChars := by
    simpa [mem_blankChars, beginsNoValue, or_assoc, or_comm, or_left_comm] using hc
  simpa [h] using List.all_eq_true.1 htest c hmem

/-- A name begins a value. -/
theorem begins_of_isName {s : List Char} (h : isName s = true) : Begins s := by
  obtain ⟨c, rest, rfl, hc⟩ := beginsName_of_isName h
  exact .of_test hc rest rfl

/-- A text in quotes spells the text with its escapes resolved. -/
theorem spells_string {s text : List Char} (h : unescaped? s = some text) (hquote : '"' ∉ s) :
    Spells readLiteral ('"' :: s ++ ['"']) (.string (String.ofList text)) where
  begins := ⟨'"', s ++ ['"'], rfl, rfl⟩
  reads more _ := by
    have hs : '"' :: s ++ ['"'] ++ more = '"' :: (s ++ '"' :: more) := by simp
    rw [hs, readLiteral, if_pos rfl, reads_cons, reads_map]
    exact ⟨_, reads_string h hquote more, rfl⟩

/-- A digit begins a number. -/
theorem beginsNumber_of_isDigit {c : Char} (h : isDigit c = true) : beginsNumber c = true := by
  rw [beginsNumber, h, Bool.or_true]

/-- A decimal spells its number. -/
theorem spells_number {whole fraction : List Char} (hne : whole ≠ [])
    (hwhole : ∀ c ∈ whole, isDigit c = true) (hfraction : ∀ c ∈ fraction, isDigit c = true)
    (negative : Bool) : Spells readLiteral (signText negative ++ (whole ++ fractionText fraction))
      (.number (ofDecimal negative whole fraction)) := by
  have hfirst : ∃ c rest, signText negative ++ (whole ++ fractionText fraction) = c :: rest ∧
      beginsNumber c = true := by
    cases negative with
    | true => exact ⟨'-', _, rfl, rfl⟩
    | false =>
        cases whole with
        | nil => exact absurd rfl hne
        | cons c rest =>
            exact ⟨c, rest ++ fractionText fraction, rfl,
              beginsNumber_of_isDigit (hwhole c List.mem_cons_self)⟩
  obtain ⟨c, rest, hs, hc⟩ := hfirst
  constructor
  · rw [hs]
    exact .of_test hc rest rfl
  · intro more hmore
    have hdigit : Stops isDigit more := hmore.stops ⟨rfl, rfl, rfl⟩
    have hread := reads_number hne hwhole hfraction hdigit (hmore.ne ⟨rfl, rfl, rfl⟩) negative
    rw [← List.append_assoc whole, ← List.append_assoc (signText negative), hs] at hread
    rw [hs, List.cons_append, readLiteral, if_neg (ne_of_test hc rfl), if_pos hc, reads_map]
    exact ⟨_, hread, rfl⟩

/-- The digits of a number without sign and point. -/
theorem spells_digits {digits : List Char} (hne : digits ≠ [])
    (hdigits : ∀ c ∈ digits, isDigit c = true) :
    Spells readLiteral digits (.number (ofDecimal false digits [])) := by
  have hfraction : ∀ c ∈ ([] : List Char), isDigit c = true := nofun
  simpa [signText, fractionText] using spells_number hne hdigits hfraction false

/-- A truth value as it is written. -/
def flagText : Bool → List Char
  | true => "true".toList
  | false => "false".toList

/-- The words for the two flags spell them. -/
theorem spells_flag (flag : Bool) : Spells readLiteral (flagText flag) (.bool flag) where
  begins := by cases flag <;> exact ⟨_, _, rfl, rfl⟩
  reads more hmore := by
    cases flag with
    | true =>
        refine (reads_readLiteral_word (by decide) rfl).2 ⟨"true", ?_, .inl ⟨rfl, rfl⟩⟩
        exact reads_name (s := "true".toList) rfl hmore.stops_name
    | false =>
        refine (reads_readLiteral_word (by decide) rfl).2 ⟨"false", ?_, .inr ⟨rfl, rfl⟩⟩
        exact reads_name (s := "false".toList) rfl hmore.stops_name

/-! ### Values -/

/-- A literal as a value. -/
def Literal.value : Literal → Value
  | .string text => .string text
  | .number x => .number x
  | .bool flag => .bool flag

/-- A value that begins with a name is read as what the name leads to. -/
theorem reads_readValue_of_name {s r rest : List Char} {name : String} {value : Value}
    (hname : Reads (readName s) name r) (h : Reads (readNamed name r) value rest) :
    Reads (readValue s) value rest := by
  obtain ⟨c, t, rfl, hc, -⟩ := reads_readName.1 hname
  obtain ⟨hquote, hitems, hreference, hnumber⟩ := beginsName_excludes hc
  refine reads_readValue.2 ⟨c, t, rfl, ?_⟩
  simp only [hquote, hitems, hreference, hnumber, if_false, Bool.false_eq_true]
  exact ⟨name, r, hname, h⟩

/-- A literal is also a value. -/
theorem readValue_of_readLiteral {s rest : List Char} {literal : Literal}
    (h : Reads (readLiteral s) literal rest) : Reads (readValue s) literal.value rest := by
  cases s with
  | nil => simp [readLiteral] at h
  | cons c t =>
      by_cases hquote : c = '"'
      · simp only [readLiteral, hquote, if_true, reads_cons, reads_map] at h
        obtain ⟨text, ht, rfl⟩ := h
        refine reads_readValue.2 ⟨c, t, rfl, ?_⟩
        rw [if_pos hquote]
        exact ⟨text, ht, rfl⟩
      · by_cases hnumber : beginsNumber c = true
        · simp only [readLiteral, hquote, hnumber, if_false, if_true, reads_map] at h
          obtain ⟨x, hx, rfl⟩ := h
          refine reads_readValue.2 ⟨c, t, rfl, ?_⟩
          rw [if_neg hquote, if_neg (ne_of_test hnumber rfl), if_neg (ne_of_test hnumber rfl),
            if_pos hnumber]
          exact ⟨x, hx, rfl⟩
        · obtain ⟨word, hword, hliteral⟩ :=
            (reads_readLiteral_word hquote (Bool.eq_false_iff.2 hnumber)).1 h
          refine reads_readValue_of_name hword (reads_readNamed.2 (.inl ⟨?_, rfl⟩))
          rcases hliteral with ⟨rfl, rfl⟩ | ⟨rfl, rfl⟩ <;> rfl

/-- What spells a literal spells the value that it stands for. -/
theorem Spells.value {s : List Char} {literal : Literal} (h : Spells readLiteral s literal) :
    Spells readValue s literal.value where
  begins := h.begins
  reads more hmore := readValue_of_readLiteral (h.reads more hmore)

/-- A variable, a point and what is read behind them. -/
theorem reads_member {root member s rest : List Char} (hroot : isName root = true)
    (hkeyword : keyword? (String.ofList root) = none) (hmember : isName member = true)
    (hs : Stops isNameChar s) {value : Value}
    (h : Reads (readMember (String.ofList root) (String.ofList member) s) value rest) :
    Reads (readValue (root ++ '.' :: (member ++ s))) value rest := by
  refine reads_readValue_of_name (reads_name hroot (.cons rfl _)) ?_
  obtain ⟨c, t, rfl, -⟩ := beginsName_of_isName hmember
  exact reads_readNamed.2 (.inr ⟨hkeyword, .inr (.inl ⟨c, t ++ s, _, s, rfl, reads_name hmember hs,
    h⟩)⟩)

/-! ### Comparisons -/

/-- Whether digits are an index: their double is a natural number. -/
def isIndex (digits : List Char) : Bool :=
  let x := ofDecimal false digits []
  !(x < 0 || !Number.isIntegral x)

/-- A text is an index in square brackets, or there is none. -/
inductive IsIndex : List Char → Option Nat → Prop
  | absent : IsIndex [] none
  | present {digits : List Char} (hne : digits ≠ []) (hdigits : ∀ c ∈ digits, isDigit c = true)
      (h : isIndex digits = true) :
      IsIndex ('[' :: digits ++ [']']) (some (Number.toIndex (ofDecimal false digits [])))

/-- An index in brackets, or none, is read as what it says. -/
theorem IsIndex.reads {s more : List Char} {index : Option Nat} (h : IsIndex s index)
    (hmore : ∀ rest, more ≠ '[' :: rest) : ReadsIndex (s ++ more) index more := by
  cases h with
  | absent => exact .inr ⟨hmore, rfl, rfl⟩
  | @present digits hne hdigits h =>
      have hread : Reads
          (readNumber (signText false ++ (digits ++ (fractionText [] ++ ']' :: more))))
          (ofDecimal false digits []) (']' :: more) :=
        reads_number hne hdigits (by simp) (.cons rfl more) (by simp) false
      have hblank : skipBlank (digits ++ ']' :: more) = digits ++ ']' :: more := by
        cases digits with
        | nil => exact absurd rfl hne
        | cons c rest =>
            have hbegins : Begins (c :: rest) := .of_test (hdigits c List.mem_cons_self) rest rfl
            exact (hbegins.append _).skipBlank
      refine .inl ⟨digits ++ ']' :: more, _, by simp, reads_readIndex.2 ?_, rfl⟩
      exact ⟨_, ']' :: more, by rwa [hblank], rfl, by simpa [isIndex] using h, rfl⟩

/-- A test that stops at an opening bracket and behind an index stops in front of the index. -/
theorem IsIndex.stops {s more : List Char} {index : Option Nat} (h : IsIndex s index)
    {test : Char → Bool} (hopen : test '[' = false) (hmore : Stops test more) :
    Stops test (s ++ more) := by
  cases h with
  | absent => exact hmore
  | present => exact .cons hopen _

section

variable {index blanks others literal : List Char} {found : Option Nat} {value : Literal}
  (hindex : IsIndex index found) (hblanks : ∀ c ∈ blanks, isBlank c = true)
  (hothers : ∀ c ∈ others, isBlank c = true) (hliteral : Spells readLiteral literal value)

include hindex hblanks hothers hliteral

end

/-! ### Lists -/

/-- Texts with commas between them, each with blanks behind it or not. -/
inductive Listed {α : Type} (read : (s : List Char) → Step s α) : List Char → List α → Prop
  | one {s : List Char} {a : α} (h : Spells read s a) : Listed read s [a]
  | cons {s blanks t : List Char} {a : α} {items : List α} (h : Spells read s a)
      (hblanks : ∀ c ∈ blanks, isBlank c = true) (hrest : Listed read t items) :
      Listed read (s ++ ',' :: (blanks ++ t)) (a :: items)

section

variable {α : Type} {read : (s : List Char) → Step s α} {s : List Char} {items : List α}

/-- A list of values begins a value. -/
theorem Listed.begins (h : Listed read s items) : Begins s := by
  cases h with
  | one h => exact h.begins
  | cons h => exact h.begins.append _

/-- A reader that goes from comma to comma, up to a closing bracket, reads what is listed. -/
theorem Listed.reads (h : Listed read s items) {readList : (s : List Char) → Step s (List α)}
    {close : Char} (hclose : close = ')' ∨ close = ']')
    (hlist : ∀ {s items rest}, Reads (readList s) items rest ↔ ∃ item r,
      Reads (read (skipBlank s)) item r ∧
      ((∃ t others, skipBlank r = ',' :: t ∧ Reads (readList t) others rest ∧
          items = item :: others) ∨
        (skipBlank r = close :: rest ∧ items = [item])))
    (blanks : List Char) (hblanks : ∀ c ∈ blanks, isBlank c = true) (more : List Char) :
    Reads (readList (blanks ++ (s ++ close :: more))) items more := by
  have hskip := skipBlank_append_stops hblanks (h.begins.append (close :: more)).stops_blank
  induction h generalizing blanks with
  | @one s a h =>
      have hread := h.reads (close :: more) (closes_cons (.inr hclose) more)
      have hend : skipBlank (close :: more) = close :: more := by
        rcases hclose with rfl | rfl <;> rfl
      exact hlist.2 ⟨a, close :: more, by rwa [hskip], .inr ⟨hend, rfl⟩⟩
  | @cons s others t a items h hothers hrest ih =>
      have hs : s ++ ',' :: (others ++ t) ++ close :: more =
          s ++ ',' :: (others ++ (t ++ close :: more)) := by simp
      rw [hs] at hskip ⊢
      have hread := h.reads (',' :: (others ++ (t ++ close :: more))) (closes_cons (.inl rfl) _)
      have hnext := skipBlank_append_stops hothers
        (hrest.begins.append (close :: more)).stops_blank
      exact hlist.2 ⟨a, _, by rwa [hskip], .inl ⟨_, items, rfl, ih others hothers hnext, rfl⟩⟩

end

/-- An empty pair of brackets spells the empty array. -/
theorem spells_array_nil : Spells readValue ['[', ']'] (.array []) where
  begins := ⟨'[', [']'], rfl, rfl⟩
  reads more _ := by
    refine reads_readValue.2 ⟨'[', ']' :: more, rfl, [], ?_, rfl⟩
    exact reads_readItems.2 (.inl ⟨rfl, rfl⟩)

/-- Brackets around a list of values spell the array of these values. -/
theorem spells_array {s : List Char} {items : List Value} (h : Listed readValue s items) :
    Spells readValue ('[' :: s ++ [']']) (.array items) where
  begins := ⟨'[', s ++ [']'], rfl, rfl⟩
  reads more _ := by
    have hs : '[' :: s ++ [']'] ++ more = '[' :: (s ++ ']' :: more) := by simp
    have hbegins := h.begins.append (']' :: more)
    rw [hs]
    refine reads_readValue.2 ⟨'[', s ++ ']' :: more, rfl, items, ?_, rfl⟩
    refine reads_readItems.2 (.inr ⟨?_, ?_⟩)
    · rw [hbegins.skipBlank]
      exact (hbegins.stops_char rfl).ne
    · exact h.reads (.inr rfl) reads_readItemList [] (by simp) more

end Studio.Script
