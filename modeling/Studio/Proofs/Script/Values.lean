import Mathlib.Tactic.SplitIfs
import Studio.Proofs.Script.Readers

/-!
# Reading values and arguments in front of more text

A value is read the same with more text behind it when a comma or a closing bracket comes next
(`readValue_append`); arguments and items end with a bracket of their own, so more text never
changes them (`readArguments_append`, `readItems_append`). One lemma for each reader says when it
succeeds, and the others are derived from these by recursion on the length of the text.
-/

namespace Studio.Script

open Studio.Text (Rest Tail)

/-- What delimits a value also does with more behind it. -/
theorem Delimited.append {s : List Char} (h : Delimited s) (more : List Char) :
    Delimited (s ++ more) := by
  obtain ⟨c, rest, hskip, hc⟩ := h
  exact ⟨c, rest ++ more, skipBlank_append_of_cons hskip more, hc⟩

/-! ### When the readers succeed -/

/-- An index in brackets comes next, or none does and nothing is read. -/
def ReadsIndex (s : List Char) (index : Option Nat) (rest : List Char) : Prop :=
  (∃ t n, s = '[' :: t ∧ Reads (readIndex t) n rest ∧ index = some n) ∨
    ((∀ t, s ≠ '[' :: t) ∧ index = none ∧ rest = s)

/-- Behind a property stands an index or none, and then a comparison with a literal; a name alone is
read as a text. -/
theorem reads_readProperty {root : Option String} {property : String} {s rest : List Char}
    {value : Value} :
    Reads (readProperty root property s) value rest ↔ ∃ index r, ReadsIndex s index r ∧
      ((∃ comparison r' literal, Finds (readComparison? (skipBlank r)) comparison r' ∧
          Reads (readLiteral (skipBlank r')) literal rest ∧
          value = .predicate ⟨root, property, index, comparison, literal⟩) ∨
        (readComparison? (skipBlank r) = none ∧ root = none ∧ index = none ∧
          value = .string property ∧ rest = r)) := by
  unfold readProperty
  extract_lets indexed
  -- The index comes first, so what follows is about any way of reading it.
  have hindexed : ∀ index r, Reads indexed index r ↔ ReadsIndex s index r := by
    intro index r
    simp only [indexed, ReadsIndex]
    split
    · next t =>
        cases hn : readIndex t with
        | error e => simp [hn]
        | ok read =>
            obtain ⟨n, r'⟩ := read
            simp [hn, Rest.cons, Rest.toTail, and_assoc, and_comm]
    · next hs => simp [show ∀ t, s ≠ '[' :: t from hs, Tail.whole]
  simp only [← hindexed]
  clear_value indexed
  cases indexed with
  | error e => simp
  | ok read =>
      obtain ⟨index, r⟩ := read
      simp only [reads_ok, and_assoc, exists_and_left, exists_eq_left]
      cases readComparison? (skipBlank r.val) with
      | some read =>
          obtain ⟨comparison, r'⟩ := read
          cases hliteral : readLiteral (skipBlank r'.val) with
          | error e => simp [hliteral]
          | ok read =>
              obtain ⟨literal, r''⟩ := read
              simp [hliteral, and_assoc, and_comm]
      | none =>
          cases root with
          | some _ => simp
          | none => cases index <;> simp

/-- A label is a name with one equals sign behind it. -/
theorem reads_readLabel {s rest : List Char} {name : String} :
    Finds (readLabel? s) name rest ↔ ∃ r, Reads (readName s) name r ∧
      skipInline r = '=' :: rest ∧ rest.head? ≠ some '=' := by
  unfold readLabel?
  cases readName s with
  | error e => simp
  | ok read =>
      obtain ⟨found, r⟩ := read
      simp only [reads_ok, and_assoc, exists_and_left, exists_eq_left]
      split
      · next t ht =>
          simp only [ht, List.cons.injEq, true_and]
          by_cases hequal : t.head? = some '='
          · simp +contextual [hequal, eq_comm]
          · simp +contextual [hequal, eq_comm]
      · next hother =>
          simp only [not_finds_none, false_iff]
          intro h
          exact hother _ h.2.1

/-- A value is read by its first character: a text, an array, a reference, a number, or what a name
leads to. -/
theorem reads_readValue {s rest : List Char} {value : Value} :
    Reads (readValue s) value rest ↔ ∃ c t, s = c :: t ∧
      if c = '"' then ∃ text, Reads (readString t) text rest ∧ value = .string text
      else if c = '[' then ∃ items, Reads (readItems t) items rest ∧ value = .array items
      else if c = '@' then ∃ name, Reads (readName t) name rest ∧ value = .reference name
      else if beginsNumber c then ∃ x, Reads (readNumber (c :: t)) x rest ∧ value = .number x
      else ∃ name r, Reads (readName (c :: t)) name r ∧ Reads (readNamed name r) value rest := by
  cases s with
  | nil => simp [readValue]
  | cons c t =>
      simp only [List.cons.injEq, and_assoc, exists_and_left, exists_eq_left']
      unfold readValue
      split_ifs with hquote hitems hreference hnumber hname
      · simp
      · simp
      · simp
      · simp
      · cases readName (c :: t) with
        | error e => simp
        | ok read =>
            obtain ⟨name, r⟩ := read
            simp only [reads_ok, and_assoc, exists_and_left, exists_eq_left]
            cases readNamed name r.val with
            | error e => simp
            | ok read =>
                obtain ⟨found, r'⟩ := read
                simp [Rest.onward]
      · simp [readName, hname]

/-- A name leads to a word for a value, to a call, to a member of what it names, or to a
property. -/
theorem reads_readNamed {name : String} {s rest : List Char} {value : Value} :
    Reads (readNamed name s) value rest ↔
      (keyword? name = some value ∧ rest = s) ∨
      (keyword? name = none ∧
        ((∃ t arguments, s = '(' :: t ∧ Reads (readArguments t) arguments rest ∧
            value = .invocation none ⟨name, arguments⟩) ∨
          (∃ c t member r, s = '.' :: c :: t ∧ Reads (readName (c :: t)) member r ∧
            Reads (readMember name member r) value rest) ∨
          ((∀ t, s ≠ '(' :: t) ∧ (∀ c t, s = '.' :: c :: t → beginsName c = false) ∧
            Reads (readProperty none name s) value rest))) := by
  unfold readNamed
  cases keyword? name with
  | some found => simp [Tail.whole, @eq_comm _ found value]
  | none =>
      simp only [reduceCtorEq, false_and, false_or, true_and]
      split
      · next t =>
          cases ha : readArguments t with
          | error e => simp [ha]
          | ok read =>
              obtain ⟨arguments, r⟩ := read
              simp [ha, Rest.cons, Rest.toTail, and_assoc, and_comm]
      · next c t =>
          -- A point belongs to the name only if the name of a member follows.
          by_cases hc : beginsName c = true
          · simp only [if_pos hc, List.cons.injEq, true_and, and_assoc, exists_and_left,
              exists_eq_left']
            cases readName (c :: t) with
            | error e => simp [hc]
            | ok read =>
                obtain ⟨member, r⟩ := read
                simp only [reads_ok, and_assoc, exists_and_left, exists_eq_left]
                cases readMember name member r.val with
                | error e => simp [hc]
                | ok read =>
                    obtain ⟨found, r'⟩ := read
                    simp [hc, Rest.onward, Rest.cons, Rest.toTail]
          · rw [if_neg hc]
            simp [hc, readName]
      · next hcall hpoint =>
          simp [show ∀ t, s ≠ '(' :: t from hcall, show ∀ c t, s ≠ '.' :: c :: t from hpoint]

/-- A member is a call on its root, or a property of it. -/
theorem reads_readMember {root name : String} {s rest : List Char} {value : Value} :
    Reads (readMember root name s) value rest ↔
      (∃ t arguments, s = '(' :: t ∧ Reads (readArguments t) arguments rest ∧
        value = .invocation (some root) ⟨name, arguments⟩) ∨
      ((∀ t, s ≠ '(' :: t) ∧ Reads (readProperty (some root) name s) value rest) := by
  unfold readMember
  split
  · next t =>
      cases ha : readArguments t with
      | error e => simp [ha]
      | ok read =>
          obtain ⟨arguments, r⟩ := read
          simp [ha, Rest.cons, Rest.toTail, and_assoc, and_comm]
  · next hcall => simp [show ∀ t, s ≠ '(' :: t from hcall]

/-- Arguments in parentheses are none, or a list of them. -/
theorem reads_readArguments {s rest : List Char} {arguments : List Argument} :
    Reads (readArguments s) arguments rest ↔
      (skipBlank s = ')' :: rest ∧ arguments = []) ∨
      ((∀ t, skipBlank s ≠ ')' :: t) ∧ Reads (readArgumentList s) arguments rest) := by
  unfold readArguments
  split
  · next t ht => simpa [ht, eq_comm] using and_comm
  · next hs => simp [show ∀ t, skipBlank s ≠ ')' :: t from hs]

/-- A list of arguments is an argument, with a comma and more of the list or the closing parenthesis
behind it. -/
theorem reads_readArgumentList {s rest : List Char} {arguments : List Argument} :
    Reads (readArgumentList s) arguments rest ↔ ∃ argument r,
      Reads (readArgument (skipBlank s)) argument r ∧
      ((∃ t others, skipBlank r = ',' :: t ∧ Reads (readArgumentList t) others rest ∧
          arguments = argument :: others) ∨
        (skipBlank r = ')' :: rest ∧ arguments = [argument])) := by
  rw [readArgumentList]
  cases readArgument (skipBlank s) with
  | error e => simp
  | ok read =>
      obtain ⟨argument, r⟩ := read
      simp only [reads_ok, and_assoc, exists_and_left, exists_eq_left]
      split
      · next t ht =>
          cases hothers : readArgumentList t with
          | error e => simp [ht, hothers]
          | ok read =>
              obtain ⟨others, r'⟩ := read
              simp [ht, hothers, Rest.widen, and_assoc, and_comm]
      · next t ht => simpa [ht, eq_comm] using and_comm
      · next ht => simp [ht]
      · next hcomma hclose hend =>
          simp only [not_reads_stop, false_iff]
          intro hread
          rcases hread with ⟨t, ht, -⟩ | ⟨ht, -⟩
          · exact hcomma t ht
          · exact hclose rest ht

/-- An argument is a value, with a label in front of it or without one. -/
theorem reads_readArgument {s rest : List Char} {argument : Argument} :
    Reads (readArgument s) argument rest ↔
      (∃ name r value, Finds (readLabel? s) name r ∧ Reads (readValue (skipBlank r)) value rest ∧
        argument = ⟨some name, value⟩) ∨
      (readLabel? s = none ∧
        ∃ value, Reads (readValue s) value rest ∧ argument = ⟨none, value⟩) := by
  rw [readArgument]
  cases readLabel? s with
  | some read =>
      obtain ⟨name, r⟩ := read
      simp only [finds_some, and_assoc, exists_and_left, exists_eq_left]
      cases readValue (skipBlank r.val) with
      | error e => simp
      | ok read =>
          obtain ⟨value, r'⟩ := read
          simp [and_assoc, and_comm]
  | none =>
      cases readValue s with
      | error e => simp
      | ok read =>
          obtain ⟨value, r'⟩ := read
          simp [and_assoc, and_comm]

/-- Items in brackets are none, or a list of them. -/
theorem reads_readItems {s rest : List Char} {items : List Value} :
    Reads (readItems s) items rest ↔
      (skipBlank s = ']' :: rest ∧ items = []) ∨
      ((∀ t, skipBlank s ≠ ']' :: t) ∧ Reads (readItemList s) items rest) := by
  unfold readItems
  split
  · next t ht => simpa [ht, eq_comm] using and_comm
  · next hs => simp [show ∀ t, skipBlank s ≠ ']' :: t from hs]

/-- A list of items is a value, with a comma and more of the list or the closing bracket behind
it. -/
theorem reads_readItemList {s rest : List Char} {items : List Value} :
    Reads (readItemList s) items rest ↔ ∃ item r,
      Reads (readValue (skipBlank s)) item r ∧
      ((∃ t others, skipBlank r = ',' :: t ∧ Reads (readItemList t) others rest ∧
          items = item :: others) ∨
        (skipBlank r = ']' :: rest ∧ items = [item])) := by
  rw [readItemList]
  cases readValue (skipBlank s) with
  | error e => simp
  | ok read =>
      obtain ⟨item, r⟩ := read
      simp only [reads_ok, and_assoc, exists_and_left, exists_eq_left]
      split
      · next t ht =>
          cases hothers : readItemList t with
          | error e => simp [ht, hothers]
          | ok read =>
              obtain ⟨others, r'⟩ := read
              simp [ht, hothers, Rest.widen, and_assoc, and_comm]
      · next t ht => simpa [ht, eq_comm] using and_comm
      · next ht => simp [ht]
      · next hcomma hclose hend =>
          simp only [not_reads_stop, false_iff]
          intro hread
          rcases hread with ⟨t, ht, -⟩ | ⟨ht, -⟩
          · exact hcomma t ht
          · exact hclose rest ht

/-! ### More text behind -/

/-- An index is read alike with more behind it. -/
theorem ReadsIndex.append {s rest : List Char} {index : Option Nat} (h : ReadsIndex s index rest)
    (hrest : rest ≠ []) (more : List Char) : ReadsIndex (s ++ more) index (rest ++ more) := by
  rcases h with ⟨t, n, rfl, hn, rfl⟩ | ⟨hs, rfl, rfl⟩
  · exact .inl ⟨t ++ more, n, rfl, readIndex_append hn more, rfl⟩
  · refine .inr ⟨?_, rfl, rfl⟩
    cases rest with
    | nil => exact absurd rfl hrest
    | cons c rest =>
        intro t ht
        exact hs rest (by rw [(List.cons.inj ht).1])

/-- A property that is delimited is read alike with more behind it. -/
theorem readProperty_append {root : Option String} {property : String} {s rest : List Char}
    {value : Value} (h : Reads (readProperty root property s) value rest) (hrest : Delimited rest)
    (more : List Char) : Reads (readProperty root property (s ++ more)) value (rest ++ more) := by
  obtain ⟨index, r, hindex, hvalue⟩ := reads_readProperty.1 h
  refine reads_readProperty.2 ⟨index, r ++ more, ?_⟩
  rcases hvalue with ⟨comparison, r', literal, hcomparison, hliteral, rfl⟩ | ⟨-, rfl, rfl, rfl, rfl⟩
  · have hr : skipBlank r ≠ [] := hcomparison.ne_nil
    refine ⟨hindex.append (fun he => hr (by rw [he]; rfl)) more, .inl ?_⟩
    refine ⟨comparison, r' ++ more, literal, ?_, ?_, rfl⟩
    · rw [skipBlank_append hr]
      exact readComparison_append hcomparison (fun he => hliteral.ne_nil (by rw [he]; rfl)) more
    · rw [skipBlank_append hliteral.ne_nil]
      exact readLiteral_append hliteral hrest more
  · exact ⟨hindex.append hrest.ne_nil more, .inr
      ⟨readComparison_delimited (hrest.append more), rfl, rfl, rfl, rfl⟩⟩

/-- A point that nothing follows belongs to no property. -/
theorem readProperty_ne_point {root : Option String} {property : String} {s rest : List Char}
    {value : Value} (h : Reads (readProperty root property s) value rest)
    (hrest : Delimited rest) : s ≠ ['.'] := by
  intro heq
  subst heq
  obtain ⟨index, r, ⟨t, _, ht, -⟩ | ⟨-, -, rfl⟩, hvalue⟩ := reads_readProperty.1 h
  · simp at ht
  · rcases hvalue with ⟨_, _, _, hcomparison, -⟩ | ⟨-, -, -, -, rfl⟩
    · exact not_finds_none hcomparison
    · exact hrest.ne_point rfl

/-- A member needs a text behind its name, or at least what delimits it. -/
theorem readMember_ne_nil {root name : String} {s rest : List Char} {value : Value}
    (h : Reads (readMember root name s) value rest) (hrest : Delimited rest) : s ≠ [] := by
  intro heq
  subst heq
  exact hrest.ne_nil (List.length_eq_zero_iff.1 (Nat.le_zero.1 h.length_le))

/-- A label is read alike with more behind it. -/
theorem readLabel_append {s rest : List Char} {name : String} (h : Finds (readLabel? s) name rest)
    (hrest : rest ≠ []) (more : List Char) :
    Finds (readLabel? (s ++ more)) name (rest ++ more) := by
  obtain ⟨r, hname, hr, hne⟩ := reads_readLabel.1 h
  refine reads_readLabel.2 ⟨r ++ more, readName_append hname ?_ more,
    skipInline_append_of_cons hr more, ?_⟩
  · intro heq
    subst heq
    simp [skipInline] at hr
  · rwa [List.head?_append, Option.or_of_isSome (by simpa using hrest)]

/-- A blank of the line is a blank. -/
theorem isBlank_of_isInlineBlank {c : Char} (h : isInlineBlank c = true) : isBlank c = true := by
  simp only [isInlineBlank, Bool.or_eq_true, decide_eq_true_eq] at h
  rcases h with (rfl | rfl) | rfl <;> rfl

/-- The character that begins a name begins no value of another form. -/
theorem beginsName_excludes {c : Char} (h : beginsName c = true) :
    c ≠ '"' ∧ c ≠ '[' ∧ c ≠ '@' ∧ beginsNumber c = false := by
  refine ⟨ne_of_test h rfl, ne_of_test h rfl, ne_of_test h rfl, ?_⟩
  simp only [beginsNumber, Bool.or_eq_false_iff, decide_eq_false_iff_not]
  refine ⟨⟨ne_of_test h rfl, ne_of_test h rfl⟩, Bool.eq_false_iff.2 ?_⟩
  intro hdigit
  -- Digits come before all letters and the underscore.
  simp only [beginsName, Number.isDigit, Bool.or_eq_true, Bool.and_eq_true, decide_eq_true_eq,
    Char.le_def, UInt32.le_iff_toNat_le] at h hdigit
  rcases h with (h | h) | rfl
  · exact absurd (Nat.le_trans h.1 hdigit.2) (by decide)
  · exact absurd (Nat.le_trans h.1 hdigit.2) (by decide)
  · exact absurd hdigit.2 (by decide)

/-- With only blanks behind it on its line, a name is a value that no delimiter follows. -/
theorem not_delimited_of_skipInline {name : String} {s rest : List Char} {value : Value}
    (h : Reads (readNamed name s) value rest) (hs : skipInline s = []) : ¬ Delimited rest := by
  have hblank : skipBlank s = [] := by
    rw [skipInline, List.dropWhile_eq_nil_iff] at hs
    rw [skipBlank, List.dropWhile_eq_nil_iff]
    intro c hc
    exact isBlank_of_isInlineBlank (hs c hc)
  have hself : ¬ Delimited s := fun hd => hd.skipBlank_ne_nil hblank
  rcases reads_readNamed.1 h with
      ⟨-, rfl⟩ | ⟨-, ⟨t, _, rfl, -⟩ | ⟨_, t, _, _, rfl, -⟩ | ⟨-, -, hproperty⟩⟩
  · exact hself
  · simp [skipInline, isInlineBlank] at hs
  · simp [skipInline, isInlineBlank] at hs
  · obtain ⟨index, r, hindex, hvalue⟩ := reads_readProperty.1 hproperty
    rcases hindex with ⟨t, _, rfl, -⟩ | ⟨-, -, rfl⟩
    · simp [skipInline, isInlineBlank] at hs
    · rcases hvalue with ⟨_, _, _, hcomparison, -⟩ | ⟨-, -, -, -, rfl⟩
      · exact absurd hblank hcomparison.ne_nil
      · exact hself

/-- A value that begins with a name is what the text behind the name makes of it. -/
theorem reads_readNamed_of_name {name : String} {s r rest : List Char} {value : Value}
    (hname : Reads (readName s) name r) (h : Reads (readValue s) value rest) :
    Reads (readNamed name r) value rest := by
  obtain ⟨c, t, rfl, hc, -⟩ := reads_readName.1 hname
  obtain ⟨_, _, hs, hd⟩ := reads_readValue.1 h
  obtain ⟨rfl, rfl⟩ := List.cons.inj hs
  obtain ⟨hquote, hitems, hreference, hnumber⟩ := beginsName_excludes hc
  simp only [hquote, hitems, hreference, hnumber, if_false, Bool.false_eq_true] at hd
  obtain ⟨_, _, hother, hnamed⟩ := hd
  obtain ⟨rfl, rfl⟩ := hname.unique hother
  exact hnamed

/-- An argument without a name stays one: where its value is delimited, more text behind cannot make
a name and its sign of it. -/
theorem readLabel_append_eq_none {s rest : List Char} {value : Value} (h : readLabel? s = none)
    (hvalue : Reads (readValue s) value rest) (hrest : Delimited rest) (more : List Char) :
    readLabel? (s ++ more) = none := by
  cases hfound : readLabel? (s ++ more) with
  | none => rfl
  | some read =>
      obtain ⟨label, r'⟩ := read
      have hlabel : Finds (readLabel? (s ++ more)) label r'.val := by rw [hfound]; simp
      obtain ⟨_, hlonger, hsign, hne⟩ := reads_readLabel.1 hlabel
      obtain ⟨name, r, hname⟩ : ∃ name r, Reads (readName s) name r := by
        obtain ⟨c, t, hs, hc, -⟩ := reads_readName.1 hlonger
        obtain ⟨d, u, rfl, -⟩ := reads_readValue.1 hvalue
        rw [← (List.cons.inj hs).1] at hc
        exact ⟨_, _, reads_readName.2 ⟨d, u, rfl, hc, rfl, rfl⟩⟩
      have hnamed := reads_readNamed_of_name hname hvalue
      -- If the text ended behind the name, its value would not be delimited.
      have hinline : skipInline r ≠ [] := fun he => not_delimited_of_skipInline hnamed he hrest
      have hr : r ≠ [] := by
        intro heq
        subst heq
        exact hinline rfl
      obtain ⟨-, rfl⟩ := hlonger.unique (readName_append hname hr more)
      cases hinside : skipInline r with
      | nil => exact absurd hinside hinline
      | cons c t =>
          rw [skipInline_append_of_cons hinside] at hsign
          obtain ⟨rfl, ht⟩ := List.cons.inj hsign
          have hsecond : t.head? ≠ some '=' := by
            intro he
            rw [← ht, List.head?_append, he] at hne
            exact hne rfl
          have hshort := reads_readLabel.2 ⟨r, hname, hinside, hsecond⟩
          rw [h] at hshort
          exact absurd hshort not_finds_none

/-- A text that does not begin with a character also does not with more behind it. -/
theorem append_ne_cons {c : Char} {s : List Char} (hs : s ≠ []) (h : ∀ t, s ≠ c :: t)
    (more t : List Char) : s ++ more ≠ c :: t := by
  cases s with
  | nil => exact absurd rfl hs
  | cons d s => exact fun he => h s (by rw [(List.cons.inj he).1])

/-- What stands behind the mark that follows an item is shorter than the text. -/
theorem length_behind_skipBlank_lt {s r t u : List Char} {c : Char} (hr : r.length < u.length)
    (ht : skipBlank r = c :: t) (hu : u.length ≤ s.length) : t.length < s.length := by
  have hlength := length_skipBlank_le r
  rw [ht, List.length_cons] at hlength
  omega

/-- A pair is less when its first part is no greater and its second is less. -/
theorem lex_of_le {m n a b : Nat} (h : m ≤ n) (hab : a < b) :
    Prod.Lex (· < ·) (· < ·) (m, a) (n, b) := by
  rcases Nat.lt_or_eq_of_le h with h | rfl
  · exact .left _ _ h
  · exact .right _ hab

mutual

/-- A delimited value is read the same with more text behind. -/
theorem readValue_append {s rest : List Char} {value : Value}
    (h : Reads (readValue s) value rest) (hrest : Delimited rest) (more : List Char) :
    Reads (readValue (s ++ more)) value (rest ++ more) := by
  obtain ⟨c, t, hs, hc⟩ := reads_readValue.1 h
  have hlength : t.length < s.length := by simp [hs]
  refine reads_readValue.2 ⟨c, t ++ more, by rw [hs, List.cons_append], ?_⟩
  split_ifs at hc ⊢ with hquote hitems hreference hnumber
  · obtain ⟨text, ht, rfl⟩ := hc
    exact ⟨text, readString_append ht more, rfl⟩
  · obtain ⟨items, hi, rfl⟩ := hc
    exact ⟨items, readItems_append hi more, rfl⟩
  · obtain ⟨name, hn, rfl⟩ := hc
    exact ⟨name, readName_append hn hrest.ne_nil more, rfl⟩
  · obtain ⟨x, hx, rfl⟩ := hc
    exact ⟨x, readNumber_append hx hrest.ne_nil hrest.ne_point more, rfl⟩
  · obtain ⟨name, r, hname, hnamed⟩ := hc
    have hr : r ≠ [] := by
      intro heq
      subst heq
      exact not_delimited_of_skipInline hnamed rfl hrest
    have hlength : r.length < s.length := hs ▸ hname.length_lt
    exact ⟨name, r ++ more, readName_append hname hr more, readNamed_append hnamed hrest more⟩
termination_by (s.length, 0)

/-- What a name leads to is read alike with more behind it. -/
theorem readNamed_append {name : String} {s rest : List Char} {value : Value}
    (h : Reads (readNamed name s) value rest) (hrest : Delimited rest) (more : List Char) :
    Reads (readNamed name (s ++ more)) value (rest ++ more) := by
  have hne : s ≠ [] := by
    intro heq
    subst heq
    exact not_delimited_of_skipInline h rfl hrest
  rcases reads_readNamed.1 h with
      ⟨hk, rfl⟩ | ⟨hk, ⟨t, arguments, hs, ha, rfl⟩ | ⟨c, t, member, r, hs, hm, hv⟩ |
        ⟨hcall, hpoint, hp⟩⟩
  · exact reads_readNamed.2 (.inl ⟨hk, rfl⟩)
  · have hlength : t.length < s.length := by simp [hs]
    exact reads_readNamed.2 (.inr ⟨hk, .inl
      ⟨t ++ more, arguments, by rw [hs, List.cons_append], readArguments_append ha more, rfl⟩⟩)
  · have hr : r ≠ [] := readMember_ne_nil hv hrest
    have hlength : r.length < s.length := hs ▸ Nat.lt_succ_of_lt hm.length_lt
    exact reads_readNamed.2 (.inr ⟨hk, .inr (.inl ⟨c, t ++ more, member, r ++ more,
      by rw [hs, List.cons_append, List.cons_append], readName_append hm hr more,
      readMember_append hv hrest more⟩)⟩)
  · refine reads_readNamed.2 (.inr ⟨hk, .inr (.inr
      ⟨append_ne_cons hne hcall more, ?_, readProperty_append hp hrest more⟩)⟩)
    intro c t he
    rcases s with _ | ⟨d, _ | ⟨e, s⟩⟩
    · exact absurd rfl hne
    · -- A point at the end of the text, which more text could make a member of.
      rw [(List.cons.inj he).1] at hp
      exact absurd rfl (readProperty_ne_point hp hrest)
    · obtain ⟨hd, he⟩ := List.cons.inj he
      rw [← (List.cons.inj he).1]
      exact hpoint e s (by rw [hd])
termination_by (s.length, 1)

/-- A member that is delimited is read alike with more behind it. -/
theorem readMember_append {root name : String} {s rest : List Char} {value : Value}
    (h : Reads (readMember root name s) value rest) (hrest : Delimited rest) (more : List Char) :
    Reads (readMember root name (s ++ more)) value (rest ++ more) := by
  rcases reads_readMember.1 h with ⟨t, arguments, hs, ha, rfl⟩ | ⟨hcall, hp⟩
  · have hlength : t.length < s.length := by simp [hs]
    exact reads_readMember.2 (.inl
      ⟨t ++ more, arguments, by rw [hs, List.cons_append], readArguments_append ha more, rfl⟩)
  · exact reads_readMember.2 (.inr
      ⟨append_ne_cons (readMember_ne_nil h hrest) hcall more, readProperty_append hp hrest more⟩)
termination_by (s.length, 1)

/-- Arguments up to their closing bracket are read the same with more text behind. -/
theorem readArguments_append {s rest : List Char} {arguments : List Argument}
    (h : Reads (readArguments s) arguments rest) (more : List Char) :
    Reads (readArguments (s ++ more)) arguments (rest ++ more) := by
  rcases reads_readArguments.1 h with ⟨hs, rfl⟩ | ⟨hs, hlist⟩
  · exact reads_readArguments.2 (.inl ⟨skipBlank_append_of_cons hs more, rfl⟩)
  · obtain ⟨_, _, hargument, -⟩ := reads_readArgumentList.1 hlist
    refine reads_readArguments.2 (.inr ⟨?_, readArgumentList_append hlist more⟩)
    rw [skipBlank_append hargument.ne_nil]
    exact append_ne_cons hargument.ne_nil hs more
termination_by (s.length, 4)

/-- A list of arguments is read alike with more behind its closing parenthesis. -/
theorem readArgumentList_append {s rest : List Char} {arguments : List Argument}
    (h : Reads (readArgumentList s) arguments rest) (more : List Char) :
    Reads (readArgumentList (s ++ more)) arguments (rest ++ more) := by
  obtain ⟨argument, r, hargument, hend⟩ := reads_readArgumentList.1 h
  have hs := length_skipBlank_le s
  have hdelimited : Delimited r := by
    rcases hend with ⟨_, _, ht, -⟩ | ⟨ht, -⟩
    · exact ⟨_, _, ht, .inl rfl⟩
    · exact ⟨_, _, ht, .inr (.inl rfl)⟩
  refine reads_readArgumentList.2 ⟨argument, r ++ more, ?_, ?_⟩
  · rw [skipBlank_append hargument.ne_nil]
    exact readArgument_append hargument hdelimited more
  · rcases hend with ⟨t, others, ht, hothers, rfl⟩ | ⟨ht, rfl⟩
    · have hlength := length_behind_skipBlank_lt hargument.length_lt ht hs
      exact .inl ⟨t ++ more, others, skipBlank_append_of_cons ht more,
        readArgumentList_append hothers more, rfl⟩
    · exact .inr ⟨skipBlank_append_of_cons ht more, rfl⟩
termination_by (s.length, 3)
decreasing_by
  · exact lex_of_le hs (by decide)
  · exact Prod.Lex.left _ _ hlength

/-- An argument that is delimited is read alike with more behind it. -/
theorem readArgument_append {s rest : List Char} {argument : Argument}
    (h : Reads (readArgument s) argument rest) (hrest : Delimited rest) (more : List Char) :
    Reads (readArgument (s ++ more)) argument (rest ++ more) := by
  rcases reads_readArgument.1 h with
      ⟨name, r, value, hlabel, hvalue, rfl⟩ | ⟨hlabel, value, hvalue, rfl⟩
  · have hr : r ≠ [] := by
      intro heq
      subst heq
      exact hvalue.ne_nil rfl
    have hlength := Nat.lt_of_le_of_lt (length_skipBlank_le r) hlabel.1
    refine reads_readArgument.2 (.inl ⟨name, r ++ more, value, readLabel_append hlabel hr more,
      ?_, rfl⟩)
    rw [skipBlank_append hvalue.ne_nil]
    exact readValue_append hvalue hrest more
  · exact reads_readArgument.2 (.inr ⟨readLabel_append_eq_none hlabel hvalue hrest more, value,
      readValue_append hvalue hrest more, rfl⟩)
termination_by (s.length, 2)

/-- Items up to their closing bracket are read the same with more text behind. -/
theorem readItems_append {s rest : List Char} {items : List Value}
    (h : Reads (readItems s) items rest) (more : List Char) :
    Reads (readItems (s ++ more)) items (rest ++ more) := by
  rcases reads_readItems.1 h with ⟨hs, rfl⟩ | ⟨hs, hlist⟩
  · exact reads_readItems.2 (.inl ⟨skipBlank_append_of_cons hs more, rfl⟩)
  · obtain ⟨_, _, hitem, -⟩ := reads_readItemList.1 hlist
    refine reads_readItems.2 (.inr ⟨?_, readItemList_append hlist more⟩)
    rw [skipBlank_append hitem.ne_nil]
    exact append_ne_cons hitem.ne_nil hs more
termination_by (s.length, 3)

/-- A list of items is read alike with more behind its closing bracket. -/
theorem readItemList_append {s rest : List Char} {items : List Value}
    (h : Reads (readItemList s) items rest) (more : List Char) :
    Reads (readItemList (s ++ more)) items (rest ++ more) := by
  obtain ⟨item, r, hitem, hend⟩ := reads_readItemList.1 h
  have hs := length_skipBlank_le s
  have hdelimited : Delimited r := by
    rcases hend with ⟨_, _, ht, -⟩ | ⟨ht, -⟩
    · exact ⟨_, _, ht, .inl rfl⟩
    · exact ⟨_, _, ht, .inr (.inr rfl)⟩
  refine reads_readItemList.2 ⟨item, r ++ more, ?_, ?_⟩
  · rw [skipBlank_append hitem.ne_nil]
    exact readValue_append hitem hdelimited more
  · rcases hend with ⟨t, others, ht, hothers, rfl⟩ | ⟨ht, rfl⟩
    · have hlength := length_behind_skipBlank_lt hitem.length_lt ht hs
      exact .inl ⟨t ++ more, others, skipBlank_append_of_cons ht more,
        readItemList_append hothers more, rfl⟩
    · exact .inr ⟨skipBlank_append_of_cons ht more, rfl⟩
termination_by (s.length, 2)
decreasing_by
  · exact lex_of_le hs (by decide)
  · exact Prod.Lex.left _ _ hlength

end

end Studio.Script
