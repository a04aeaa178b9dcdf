import Mathlib.Data.List.Basic
import Studio.Proofs.Script.Values
import Studio.Text.Blank

/-!
# Scripts with more text behind

`Opens p q` says that a script stops where another goes on: behind a statement, or behind a call of
a chain. Reading more text gives a script that the one before opens (`opens_of_readProgram_append`),
and blanks that are added to a script leave it as it is (`readProgram_append_blank`). In a line of
its own a further script adds its statements and nothing else (`parse_append_line`).
-/

namespace Studio.Script

open Studio.Text (Rest Tail)

/-- The first script is where the second one began, up to a statement or a call in one. -/
inductive Opens : Program → Program → Prop
  | nil (program : Program) : Opens [] program
  | last {statement longer : Statement} (rest : Program)
      (h : statement.calls <+: longer.calls) : Opens [statement] (longer :: rest)
  | cons (statement : Statement) {first second : Program} (h : Opens first second) :
      Opens (statement :: first) (statement :: second)

/-- A script opens itself. -/
theorem Opens.refl (program : Program) : Opens program program := by
  induction program with
  | nil => exact .nil []
  | cons statement rest ih => exact .cons statement ih

/-! ### Skipping blanks and comments -/

/-- A comment that begins also does with more behind it. -/
theorem commentAhead_append {s : List Char} (h : commentAhead s = true) (more : List Char) :
    commentAhead (s ++ more) = true := by
  fun_cases commentAhead s with
  | case1 | case2 => rfl
  | case3 => simp_all [commentAhead]

/-- Only behind a slash does it depend on the next character whether a comment begins. -/
theorem commentAhead_cons {c : Char} (hc : c ≠ '/') (s t : List Char) :
    commentAhead (c :: s) = commentAhead (c :: t) := by
  by_cases hmark : c = '#'
  · rw [hmark]
    rfl
  · simp [commentAhead, hc, hmark]

/-- What is skipped to the end of a text ends in a comment or not; what more text begins with is
skipped accordingly. -/
theorem skipFiller_append_of_nil {marks : List Char} {inComment : Bool} {s : List Char}
    (h : skipFiller marks inComment s = []) :
    ∃ within, ∀ more, skipFiller marks inComment (s ++ more) = skipFiller marks within more := by
  fun_induction skipFiller marks inComment s with
  | case1 inComment => exact ⟨inComment, fun more => rfl⟩
  | case2 c s ih =>
      obtain ⟨within, hmore⟩ := ih h
      exact ⟨within, fun more => by rw [List.cons_append, skipFiller, hmore]⟩
  | case3 c s hc ih =>
      obtain ⟨within, hmore⟩ := ih h
      exact ⟨within, fun more => by rw [List.cons_append, skipFiller, if_pos hc, hmore]⟩
  | case4 c s hc hcomment ih =>
      obtain ⟨within, hmore⟩ := ih h
      refine ⟨within, ?_⟩
      intro more
      have hcomment' : commentAhead (c :: (s ++ more)) = true := commentAhead_append hcomment more
      rw [List.cons_append, skipFiller, if_neg hc, if_pos hcomment', hmore]
  | case5 c s => simp at h

/-- Filler that ends at a character is skipped alike with more behind it. -/
theorem skipFiller_append_of_cons {marks : List Char} {inComment : Bool} {s rest : List Char}
    {c : Char} (h : skipFiller marks inComment s = c :: rest) (hc : c ≠ '/') (more : List Char) :
    skipFiller marks inComment (s ++ more) = c :: rest ++ more := by
  fun_induction skipFiller marks inComment s with
  | case1 => simp at h
  | case2 d s ih => rw [List.cons_append, skipFiller, ih h]
  | case3 d s hd ih => rw [List.cons_append, skipFiller, if_pos hd, ih h]
  | case4 d s hd hcomment ih =>
      have hcomment' : commentAhead (d :: (s ++ more)) = true := commentAhead_append hcomment more
      rw [List.cons_append, skipFiller, if_neg hd, if_pos hcomment', ih h]
  | case5 d s hd hcomment =>
      obtain ⟨rfl, rfl⟩ := List.cons.inj h
      rw [commentAhead_cons hc s (s ++ more)] at hcomment
      rw [List.cons_append, skipFiller, if_neg hd, if_neg hcomment]

/-- Skipping ends in front of a character that is not skipped. -/
theorem skipFiller_head {marks : List Char} {inComment : Bool} {s rest : List Char} {c : Char}
    (h : skipFiller marks inComment s = c :: rest) :
    (isBlank c || marks.contains c) = false ∧ commentAhead (c :: rest) = false := by
  fun_induction skipFiller marks inComment s with
  | case1 => simp at h
  | case2 d s ih | case3 d s hd ih | case4 d s hd hcomment ih => exact ih h
  | case5 d s hd hcomment =>
      obtain ⟨rfl, rfl⟩ := List.cons.inj h
      exact ⟨Bool.eq_false_iff.2 hd, Bool.eq_false_iff.2 hcomment⟩

/-- Skipping filler leaves an end of the text. -/
theorem skipFiller_suffix (marks : List Char) (inComment : Bool) (s : List Char) :
    skipFiller marks inComment s <:+ s := by
  fun_induction skipFiller marks inComment s with
  | case1 => exact List.suffix_refl _
  | case2 c s ih | case3 c s hc ih | case4 c s hc hcomment ih =>
      exact ih.trans (List.suffix_cons c s)
  | case5 => exact List.suffix_refl _

/-- Skipping between statements goes on where skipping inside a chain stops. -/
theorem skipFiller_skipFiller (inComment : Bool) (s : List Char) :
    skipFiller [';'] false (skipFiller [] inComment s) = skipFiller [';'] inComment s := by
  fun_induction skipFiller [] inComment s with
  | case1 inComment => cases inComment <;> rfl
  | case2 c s ih => rw [ih, skipFiller]
  | case3 c s hc ih =>
      have hblank : isBlank c = true := by simpa using hc
      rw [ih, skipFiller, if_pos (by rw [hblank, Bool.true_or])]
  | case4 c s hc hcomment ih =>
      have hmark : c ≠ ';' := by
        intro heq
        subst heq
        simp [commentAhead] at hcomment
      rw [ih, skipFiller, if_neg (by simpa [hmark] using hc), if_pos hcomment]
  | case5 => rfl

/-- Blanks of the line in front make no difference to skipping filler. -/
theorem skipFiller_skipInline (marks : List Char) (s : List Char) :
    skipFiller marks false (skipInline s) = skipFiller marks false s := by
  induction s with
  | nil => rfl
  | cons c s ih =>
      by_cases hc : isInlineBlank c = true
      · rw [skipInline, List.dropWhile_cons, if_pos hc, skipFiller,
          if_pos (by rw [isBlank_of_isInlineBlank hc, Bool.true_or])]
        exact ih
      · rw [skipInline, List.dropWhile_cons, if_neg hc]

/-! ### Calls and statements -/

/-- A call is a name with arguments in parentheses, blanks of the line in between. -/
theorem reads_readCall {name : String} {s rest : List Char} {call : Call} :
    Reads (readCall name s) call rest ↔ ∃ t arguments, skipInline s = '(' :: t ∧
      Reads (readArguments t) arguments rest ∧ call = ⟨name, arguments⟩ := by
  unfold readCall
  split
  · next t ht =>
      cases hr : readArguments t with
      | error e => simp [ht, hr]
      | ok read =>
          obtain ⟨arguments, r⟩ := read
          simp [ht, hr, Rest.widen, and_assoc, and_comm]
  · next hs => simp [show ∀ t, skipInline s ≠ '(' :: t from hs]

/-- A call is read behind its name. -/
theorem reads_readNamedCall {s rest : List Char} {call : Call} :
    Reads (readNamedCall s) call rest ↔
      ∃ name r, Reads (readName s) name r ∧ Reads (readCall name r) call rest := by
  unfold readNamedCall
  cases readName s with
  | error e => simp
  | ok read =>
      obtain ⟨name, r⟩ := read
      simp only [reads_ok, and_assoc, exists_and_left, exists_eq_left]
      cases readCall name r.val with
      | error e => simp
      | ok read =>
          obtain ⟨call, r'⟩ := read
          simp [Rest.onward, Rest.toTail]

/-- A chain has a call behind each point, and ends where no point comes next. -/
theorem reads_readChain {s rest : List Char} {calls : List Call} :
    Reads (readChain s) calls rest ↔
      (∃ t call r more, skipFiller [] false s = '.' :: t ∧ Reads (readNamedCall t) call r ∧
        Reads (readChain r) more rest ∧ calls = call :: more) ∨
      ((∀ t, skipFiller [] false s ≠ '.' :: t) ∧ calls = [] ∧ rest = s) := by
  rw [readChain]
  split
  · next t ht =>
      simp only [ht, List.cons.injEq, true_and, exists_and_left, exists_eq_left']
      cases readNamedCall t with
      | error e => simp
      | ok read =>
          obtain ⟨call, r⟩ := read
          simp only [reads_ok, and_assoc, exists_and_left, exists_eq_left]
          cases readChain r.val with
          | error e => simp
          | ok read =>
              obtain ⟨more, r'⟩ := read
              simp [and_assoc, and_comm]
  · next hs => simp [show ∀ t, skipFiller [] false s ≠ '.' :: t from hs, Tail.whole]

/-- A statement is a call with a chain, and ends where statements end. -/
theorem reads_readStatement {s rest : List Char} {statement : Statement} :
    Reads (readStatement s) statement rest ↔ ∃ first r more t,
      Reads (readNamedCall s) first r ∧ Reads (readChain r) more t ∧
      statementEnds (skipInline t) = true ∧ statement = ⟨first, more⟩ ∧ rest = skipInline t := by
  unfold readStatement
  split
  · next hpoint =>
      cases s with
      | nil => simp at hpoint
      | cons c s =>
          obtain rfl : c = '.' := by simpa using hpoint
          simp only [not_reads_stop, false_iff]
          intro hread
          obtain ⟨_, _, _, _, hcall, -⟩ := hread
          obtain ⟨_, _, hname, -⟩ := reads_readNamedCall.1 hcall
          obtain ⟨_, _, hs, hc, -⟩ := reads_readName.1 hname
          rw [← (List.cons.inj hs).1] at hc
          exact absurd hc (by decide)
  · cases readNamedCall s with
    | error e => simp
    | ok read =>
        obtain ⟨first, r⟩ := read
        simp only [reads_ok, and_assoc, exists_and_left, exists_eq_left]
        cases readChain r.val with
        | error e => simp
        | ok read =>
            obtain ⟨more, t⟩ := read
            simp only [reads_ok, and_assoc, exists_and_left, exists_eq_left]
            by_cases hend : statementEnds (skipInline t.val) = true
            · simp [hend, Rest.onward]
            · simp [hend]

/-- A script is nothing but filler, or a statement in front of a script. -/
theorem readProgram_eq_ok {s : List Char} {program : Program} :
    readProgram s = .ok program ↔
      (skipFiller [';'] false s = [] ∧ program = []) ∨
      ∃ statement r others, Reads (readStatement (skipFiller [';'] false s)) statement r ∧
        readProgram r = .ok others ∧ program = statement :: others := by
  rw [readProgram]
  by_cases hs : (skipFiller [';'] false s).isEmpty = true
  · rw [if_pos hs]
    have hnil := List.isEmpty_iff.1 hs
    simp only [hnil, true_and, Except.ok.injEq]
    constructor
    · intro heq
      subst heq
      exact .inl rfl
    · intro hread
      rcases hread with rfl | ⟨_, _, _, hstatement, -⟩
      · rfl
      · exact absurd hnil hstatement.ne_nil
  · rw [if_neg hs]
    have hne : skipFiller [';'] false s ≠ [] := fun he => hs (List.isEmpty_iff.2 he)
    simp only [hne, false_and, false_or]
    cases readStatement (skipFiller [';'] false s) with
    | error e => simp
    | ok read =>
        obtain ⟨statement, r⟩ := read
        simp only [reads_ok, and_assoc, exists_and_left, exists_eq_left]
        cases readProgram r.val with
        | error e => simp
        | ok others => simp [eq_comm]

/-! ### More text behind -/

/-- A call is read alike with more behind it. -/
theorem readCall_append {name : String} {s rest : List Char} {call : Call}
    (h : Reads (readCall name s) call rest) (more : List Char) :
    Reads (readCall name (s ++ more)) call (rest ++ more) := by
  obtain ⟨t, arguments, hs, ha, rfl⟩ := reads_readCall.1 h
  exact reads_readCall.2 ⟨t ++ more, arguments, skipInline_append_of_cons hs more,
    readArguments_append ha more, rfl⟩

/-- A call ends with its closing bracket, so more text behind changes nothing. -/
theorem readNamedCall_append {s rest : List Char} {call : Call}
    (h : Reads (readNamedCall s) call rest) (more : List Char) :
    Reads (readNamedCall (s ++ more)) call (rest ++ more) := by
  obtain ⟨name, r, hname, hcall⟩ := reads_readNamedCall.1 h
  have hr : r ≠ [] := by
    intro heq
    subst heq
    obtain ⟨t, _, ht, -⟩ := reads_readCall.1 hcall
    simp [skipInline] at ht
  exact reads_readNamedCall.2 ⟨name, r ++ more, readName_append hname hr more,
    readCall_append hcall more⟩

/-- A chain ends where it did unless a further call stands in the text behind. -/
theorem readChain_append {s rest : List Char} {calls : List Call}
    (h : Reads (readChain s) calls rest) {more : List Char}
    (hmore : ∀ t, skipFiller [] false (rest ++ more) ≠ '.' :: t) :
    Reads (readChain (s ++ more)) calls (rest ++ more) := by
  induction calls generalizing s with
  | nil =>
      rcases reads_readChain.1 h with ⟨_, _, _, _, _, _, _, hcalls⟩ | ⟨-, -, rfl⟩
      · simp at hcalls
      · exact reads_readChain.2 (.inr ⟨hmore, rfl, rfl⟩)
  | cons call calls ih =>
      rcases reads_readChain.1 h with ⟨t, _, r, _, hs, hcall, hchain, heq⟩ | ⟨-, heq, -⟩
      · obtain ⟨rfl, rfl⟩ := List.cons.inj heq
        exact reads_readChain.2 (.inl ⟨t ++ more, call, r ++ more, calls,
          skipFiller_append_of_cons hs (by decide) more, readNamedCall_append hcall more,
          ih hchain, rfl⟩)
      · simp at heq

/-- A chain ends where no further call stands. -/
theorem not_point_of_readChain {s rest : List Char} {calls : List Call}
    (h : Reads (readChain s) calls rest) : ∀ t, skipFiller [] false rest ≠ '.' :: t := by
  induction calls generalizing s with
  | nil =>
      rcases reads_readChain.1 h with ⟨_, _, _, _, _, _, _, hcalls⟩ | ⟨hend, -, rfl⟩
      · simp at hcalls
      · exact hend
  | cons call calls ih =>
      rcases reads_readChain.1 h with ⟨_, _, _, _, _, _, hchain, heq⟩ | ⟨-, heq, -⟩
      · obtain ⟨-, rfl⟩ := List.cons.inj heq
        exact ih hchain
      · simp at heq

/-- With more text behind, a chain keeps its calls. -/
theorem prefix_of_readChain_append {s more rest longerRest : List Char} {calls longer : List Call}
    (h : Reads (readChain s) calls rest)
    (hlonger : Reads (readChain (s ++ more)) longer longerRest) : calls <+: longer := by
  induction calls generalizing s longer with
  | nil => exact List.nil_prefix
  | cons call calls ih =>
      rcases reads_readChain.1 h with ⟨t, _, r, _, hs, hcall, hchain, heq⟩ | ⟨-, heq, -⟩
      · obtain ⟨rfl, rfl⟩ := List.cons.inj heq
        have hs' := skipFiller_append_of_cons hs (by decide) more
        rcases reads_readChain.1 hlonger with ⟨t', _, r', _, ht', hcall', hchain', rfl⟩ | ⟨hno, -⟩
        · obtain rfl := (List.cons.inj (hs'.symm.trans ht')).2
          obtain ⟨rfl, rfl⟩ := hcall'.unique (readNamedCall_append hcall more)
          exact (List.prefix_cons_inj _).2 (ih hchain hchain')
        · exact absurd hs' (hno _)
      · simp at heq

/-- A statement whose chain ends behind `rest` is the same with more text, unless a further call
stands there. -/
theorem reads_readStatement_append {s t : List Char} {first : Call} {calls : List Call}
    {r more : List Char} (hfirst : Reads (readNamedCall s) first r)
    (hchain : Reads (readChain r) calls t)
    (hmore : ∀ u, skipFiller [] false (t ++ more) ≠ '.' :: u) {statement : Statement}
    {rest : List Char} :
    Reads (readStatement (s ++ more)) statement rest ↔
      statementEnds (skipInline (t ++ more)) = true ∧ statement = ⟨first, calls⟩ ∧
        rest = skipInline (t ++ more) := by
  rw [reads_readStatement]
  constructor
  · intro hread
    obtain ⟨first', r', calls', t', hfirst', hchain', hends, rfl, rfl⟩ := hread
    obtain ⟨rfl, rfl⟩ := hfirst'.unique (readNamedCall_append hfirst more)
    obtain ⟨rfl, rfl⟩ := hchain'.unique (readChain_append hchain hmore)
    exact ⟨hends, rfl, rfl⟩
  · intro hread
    obtain ⟨hends, rfl, rfl⟩ := hread
    exact ⟨first, r ++ more, calls, t ++ more, readNamedCall_append hfirst more,
      readChain_append hchain hmore, hends, rfl, rfl⟩

/-! ### Scripts -/

/-- A statement begins with a name. -/
theorem beginsName_of_readStatement {s rest : List Char} {statement : Statement}
    (h : Reads (readStatement s) statement rest) : ∃ c t, s = c :: t ∧ beginsName c = true := by
  obtain ⟨_, _, _, _, hcall, -⟩ := reads_readStatement.1 h
  obtain ⟨_, _, hname, -⟩ := reads_readNamedCall.1 hcall
  obtain ⟨c, t, hs, hc, -⟩ := reads_readName.1 hname
  exact ⟨c, t, hs, hc⟩

/-- A slash that begins no comment stops every kind of skipping. -/
theorem skipFiller_ne_slash {s rest : List Char} {c : Char} (h : skipFiller [] false s = c :: rest)
    (hslash : (skipFiller [';'] false s).head? ≠ some '/') : c ≠ '/' := by
  intro heq
  subst heq
  have hcomment := (skipFiller_head h).2
  rw [← skipFiller_skipFiller, h, skipFiller, if_neg (by decide), if_neg (by simp [hcomment])]
    at hslash
  exact hslash rfl

/-- In front of a further statement a chain cannot go on, whatever comes behind that statement. -/
theorem not_point_of_skipFiller {s rest more : List Char} {c : Char} (hc : beginsName c = true)
    (hpoint : ∀ t, skipFiller [] false s ≠ '.' :: t) (h : skipFiller [';'] false s = c :: rest) :
    ∀ t, skipFiller [] false (s ++ more) ≠ '.' :: t := by
  cases hs : skipFiller [] false s with
  | nil =>
      -- Everything that a chain skips is skipped between statements as well.
      rw [← skipFiller_skipFiller, hs] at h
      simp [skipFiller] at h
  | cons d u =>
      have hslash : d ≠ '/' := by
        refine skipFiller_ne_slash hs ?_
        rw [h]
        intro hhead
        exact ne_of_test hc rfl (Option.some.inj hhead)
      rw [skipFiller_append_of_cons hs hslash]
      intro t ht
      exact hpoint u (by rw [hs, (List.cons.inj ht).1])

/-- A script is what is left of it when what stands between statements is skipped. -/
theorem readProgram_eq_of_skipFiller {s t : List Char}
    (h : skipFiller [';'] false s = skipFiller [';'] false t) : readProgram s = readProgram t := by
  rw [readProgram, h, ← readProgram]

/-- Blanks of the line in front make no difference to a script. -/
theorem readProgram_skipInline (s : List Char) : readProgram (skipInline s) = readProgram s :=
  readProgram_eq_of_skipFiller (skipFiller_skipInline [';'] s)

/-- With more text behind, the first statement keeps its calls. If no further call stands behind its
chain, which ends in front of `t`, it stays as it is and reading goes on there. -/
theorem readProgram_append_cons {s more : List Char} {statement : Statement}
    {others program : Program} (hfirst : readProgram s = .ok (statement :: others))
    (hsecond : readProgram (s ++ more) = .ok program) :
    ∃ t longer rest, readProgram t = .ok others ∧ (∀ u, skipFiller [] false t ≠ '.' :: u) ∧
      program = longer :: rest ∧ statement.calls <+: longer.calls ∧
      ((∀ u, skipFiller [] false (t ++ more) ≠ '.' :: u) →
        longer = statement ∧ readProgram (t ++ more) = .ok rest) := by
  rcases readProgram_eq_ok.1 hfirst with ⟨-, h⟩ | ⟨_, r, _, hstatement, hothers, heq⟩
  · simp at h
  obtain ⟨rfl, rfl⟩ := List.cons.inj heq
  obtain ⟨c, u, hs, hc⟩ := beginsName_of_readStatement hstatement
  have hs' := skipFiller_append_of_cons hs (ne_of_test hc rfl) more
  rcases readProgram_eq_ok.1 hsecond with ⟨hnil, -⟩ | ⟨longer, r', rest, hlonger, hrest, rfl⟩
  · simp [hs'] at hnil
  rw [hs', ← hs] at hlonger
  obtain ⟨call, q, calls, t, hcall, hchain, -, rfl, rfl⟩ := reads_readStatement.1 hstatement
  refine ⟨t, longer, rest, ?_, not_point_of_readChain hchain, rfl, ?_, fun hmore => ?_⟩
  · rw [← readProgram_skipInline, hothers]
  · obtain ⟨_, _, _, _, hcall', hchain', -, rfl, -⟩ := reads_readStatement.1 hlonger
    obtain ⟨rfl, rfl⟩ := hcall'.unique (readNamedCall_append hcall more)
    exact (List.prefix_cons_inj _).2 (prefix_of_readChain_append hchain hchain')
  · obtain ⟨-, rfl, rfl⟩ := (reads_readStatement_append hcall hchain hmore).1 hlonger
    exact ⟨rfl, by rw [← readProgram_skipInline, hrest]⟩

/-- Reading more text gives a script that goes on where the first one stopped. -/
theorem opens_of_readProgram_append {s more : List Char} {first second : Program}
    (hfirst : readProgram s = .ok first) (hsecond : readProgram (s ++ more) = .ok second) :
    Opens first second := by
  induction first generalizing s second with
  | nil => exact .nil second
  | cons statement others ih =>
      obtain ⟨t, longer, rest, ht, hpoint, rfl, hcalls, hmore⟩ :=
        readProgram_append_cons hfirst hsecond
      -- Only the last statement can go on: any other one has a statement behind it.
      rcases readProgram_eq_ok.1 ht with ⟨-, rfl⟩ | ⟨_, _, _, hnext, -, -⟩
      · exact .last rest hcalls
      · obtain ⟨c, u, hs, hc⟩ := beginsName_of_readStatement hnext
        obtain ⟨rfl, hrest⟩ := hmore (not_point_of_skipFiller hc hpoint hs)
        exact .cons _ (ih ht hrest)

/-- What begins a name is no blank. -/
theorem isBlank_of_beginsName {c : Char} (h : beginsName c = true) : Text.isBlank c = false := by
  simp only [beginsName, Bool.or_eq_true, Bool.and_eq_true, decide_eq_true_eq, Char.le_def,
    UInt32.le_iff_toNat_le] at h
  have hrange : 65 ≤ c.toNat ∧ c.toNat ≤ 122 := by
    rcases h with (h | h) | rfl
    · exact ⟨Nat.le_trans (by decide) h.1, h.2⟩
    · exact ⟨h.1, Nat.le_trans h.2 (by decide)⟩
    · decide
  simp only [Text.isBlank, Bool.or_eq_false_iff, Bool.and_eq_false_iff, decide_eq_false_iff_not,
    beq_eq_false_iff_ne]
  omega

section

variable {blanks : List Char} (hblanks : ∀ c ∈ blanks, Text.isBlank c = true)
include hblanks

/-- Filler with blanks behind it holds no statement. -/
theorem readProgram_append_blank_of_nil {s : List Char} {program : Program}
    (hs : skipFiller [';'] false s = []) (h : readProgram (s ++ blanks) = .ok program) :
    program = [] := by
  obtain ⟨within, hmore⟩ := skipFiller_append_of_nil hs
  rcases readProgram_eq_ok.1 h with ⟨-, h⟩ | ⟨_, _, _, hstatement, -⟩
  · exact h
  · obtain ⟨c, t, ht, hc⟩ := beginsName_of_readStatement hstatement
    have hsuffix := skipFiller_suffix [';'] within blanks
    rw [← hmore, ht] at hsuffix
    have hblank := hblanks c (hsuffix.subset List.mem_cons_self)
    rw [isBlank_of_beginsName hc] at hblank
    exact absurd hblank Bool.false_ne_true

/-- Where no point comes next, none does with blanks behind filler. -/
theorem not_point_of_blank {s : List Char} (hpoint : ∀ t, skipFiller [] false s ≠ '.' :: t)
    (hs : skipFiller [';'] false s = []) : ∀ t, skipFiller [] false (s ++ blanks) ≠ '.' :: t := by
  intro t ht
  cases hskip : skipFiller [] false s with
  | nil =>
      obtain ⟨within, hmore⟩ := skipFiller_append_of_nil hskip
      have hsuffix := skipFiller_suffix [] within blanks
      rw [← hmore, ht] at hsuffix
      exact absurd (hblanks '.' (hsuffix.subset List.mem_cons_self)) (by decide)
  | cons c u =>
      have hslash : c ≠ '/' := skipFiller_ne_slash hskip (by simp [hs])
      rw [skipFiller_append_of_cons hskip hslash] at ht
      exact hpoint u (by rw [hskip, (List.cons.inj ht).1])

/-- Where a chain ends in a script that can be read, it also ends with blanks behind. -/
theorem not_point_of_readProgram {s : List Char} {program : Program}
    (hpoint : ∀ t, skipFiller [] false s ≠ '.' :: t) (h : readProgram s = .ok program) :
    ∀ t, skipFiller [] false (s ++ blanks) ≠ '.' :: t := by
  rcases readProgram_eq_ok.1 h with ⟨hs, -⟩ | ⟨_, _, _, hnext, -, -⟩
  · exact not_point_of_blank hblanks hpoint hs
  · obtain ⟨c, u, hs, hc⟩ := beginsName_of_readStatement hnext
    exact not_point_of_skipFiller hc hpoint hs

/-- Blanks behind a script add nothing to it. -/
theorem readProgram_append_blank {s : List Char} {first second : Program}
    (hfirst : readProgram s = .ok first) (hsecond : readProgram (s ++ blanks) = .ok second) :
    second = first := by
  induction first generalizing s second with
  | nil =>
      rcases readProgram_eq_ok.1 hfirst with ⟨hs, -⟩ | ⟨_, _, _, _, _, heq⟩
      · exact readProgram_append_blank_of_nil hblanks hs hsecond
      · simp at heq
  | cons statement others ih =>
      obtain ⟨t, longer, rest, ht, hpoint, rfl, -, hmore⟩ :=
        readProgram_append_cons hfirst hsecond
      obtain ⟨rfl, hrest⟩ := hmore (not_point_of_readProgram hblanks hpoint ht)
      rw [ih ht hrest]

end

/-- A statement that ends also does with a line behind it. -/
theorem statementEnds_skipInline_append {s : List Char} (h : statementEnds (skipInline s) = true)
    (more : List Char) : statementEnds (skipInline (s ++ '\n' :: more)) = true := by
  cases hs : skipInline s with
  | nil =>
      have hskip : skipInline (s ++ '\n' :: more) = '\n' :: more := by
        rw [skipInline, List.dropWhile_append, ← skipInline, hs]
        rfl
      rw [hskip]
      rfl
  | cons c rest =>
      rw [skipInline_append_of_cons hs]
      simp only [hs, statementEnds, Bool.or_eq_true] at h ⊢
      rcases h with h | hcomment
      · exact .inl h
      · exact .inr (commentAhead_append hcomment ('\n' :: more))

/-- A line end closes a comment, and outside of one it is a blank. -/
theorem skipFiller_lineEnd (marks : List Char) (inComment : Bool) (s : List Char) :
    skipFiller marks inComment ('\n' :: s) = skipFiller marks false s := by
  cases inComment <;> rfl

/-- No script begins with a call that goes on a chain. -/
theorem not_point_of_readProgram_eq_ok {s : List Char} {program : Program}
    (h : readProgram s = .ok program) : ∀ t, skipFiller [] false s ≠ '.' :: t := by
  intro t ht
  have hskip : skipFiller [';'] false s = '.' :: t := by
    rw [← skipFiller_skipFiller, ht]
    rfl
  rcases readProgram_eq_ok.1 h with ⟨hnil, -⟩ | ⟨_, _, _, hstatement, -⟩
  · simp [hskip] at hnil
  · obtain ⟨c, u, hs, hc⟩ := beginsName_of_readStatement hstatement
    obtain rfl := (List.cons.inj (hskip.symm.trans hs)).1
    exact absurd hc (by decide)

/-- Where a chain ends in a script that can be read, it also ends with a script in the line
behind. -/
theorem not_point_append_line {s t : List Char} {first second : Program}
    (hpoint : ∀ u, skipFiller [] false s ≠ '.' :: u) (hfirst : readProgram s = .ok first)
    (hsecond : readProgram t = .ok second) :
    ∀ u, skipFiller [] false (s ++ '\n' :: t) ≠ '.' :: u := by
  rcases readProgram_eq_ok.1 hfirst with ⟨hs, -⟩ | ⟨_, _, _, hnext, -, -⟩
  · intro u hu
    cases hskip : skipFiller [] false s with
    | nil =>
        obtain ⟨within, hmore⟩ := skipFiller_append_of_nil hskip
        rw [hmore, skipFiller_lineEnd] at hu
        exact not_point_of_readProgram_eq_ok hsecond u hu
    | cons c rest =>
        have hslash : c ≠ '/' := skipFiller_ne_slash hskip (by simp [hs])
        rw [skipFiller_append_of_cons hskip hslash] at hu
        exact hpoint rest (by rw [hskip, (List.cons.inj hu).1])
  · obtain ⟨c, rest, hs, hc⟩ := beginsName_of_readStatement hnext
    exact not_point_of_skipFiller hc hpoint hs

/-- A script in the line behind another one adds its statements and leaves the others as they
are. -/
theorem readProgram_append_line {s t : List Char} {first second : Program}
    (hfirst : readProgram s = .ok first) (hsecond : readProgram t = .ok second) :
    readProgram (s ++ '\n' :: t) = .ok (first ++ second) := by
  induction first generalizing s with
  | nil =>
      rcases readProgram_eq_ok.1 hfirst with ⟨hs, -⟩ | ⟨_, _, _, _, _, heq⟩
      · obtain ⟨within, hmore⟩ := skipFiller_append_of_nil hs
        have hskip : skipFiller [';'] false (s ++ '\n' :: t) = skipFiller [';'] false t := by
          rw [hmore, skipFiller_lineEnd]
        rw [readProgram_eq_of_skipFiller hskip, hsecond, List.nil_append]
      · simp at heq
  | cons statement others ih =>
      rcases readProgram_eq_ok.1 hfirst with ⟨-, heq⟩ | ⟨_, _, _, hstatement, hothers, heq⟩
      · simp at heq
      obtain ⟨rfl, rfl⟩ := List.cons.inj heq
      obtain ⟨c, u, hs, hc⟩ := beginsName_of_readStatement hstatement
      have hskip := skipFiller_append_of_cons hs (ne_of_test hc rfl) ('\n' :: t)
      rw [← hs] at hskip
      obtain ⟨call, q, calls, r, hcall, hchain, hends, rfl, rfl⟩ := reads_readStatement.1 hstatement
      rw [readProgram_skipInline] at hothers
      -- Neither what is left of the first script nor the second one goes on with the chain.
      have hpoint := not_point_append_line (not_point_of_readChain hchain) hothers hsecond
      have hread := (reads_readStatement_append hcall hchain hpoint).2
        ⟨statementEnds_skipInline_append hends t, rfl, rfl⟩
      rw [← hskip] at hread
      refine readProgram_eq_ok.2 (.inr ⟨_, _, others ++ second, hread, ?_, rfl⟩)
      rw [readProgram_skipInline]
      exact ih hothers

/-- The empty text is the empty script. -/
theorem readProgram_nil : readProgram [] = .ok [] :=
  readProgram_eq_ok.2 (.inl ⟨rfl, rfl⟩)

/-- The end of a line behind a script adds nothing to it and breaks nothing of it. -/
theorem readProgram_append_lineEnd {s : List Char} {program : Program}
    (h : readProgram s = .ok program) : readProgram (s ++ ['\n']) = .ok program := by
  simpa using readProgram_append_line h readProgram_nil

/-- A script with blanks in front has no other statements, if it can be read at all. -/
theorem readProgram_blank_append {blanks s : List Char} {program : Program}
    (hblanks : ∀ c ∈ blanks, Text.isBlank c = true) (h : readProgram (blanks ++ s) = .ok program) :
    readProgram s = .ok program := by
  induction blanks with
  | nil => exact h
  | cons c blanks ih =>
      by_cases hc : isBlank c = true
      · have hskip : skipFiller [';'] false (c :: (blanks ++ s)) =
            skipFiller [';'] false (blanks ++ s) := by
          rw [skipFiller, if_pos (by rw [hc, Bool.true_or])]
        rw [List.cons_append, readProgram_eq_of_skipFiller hskip] at h
        exact ih (fun d hd => hblanks d (List.mem_cons_of_mem c hd)) h
      · -- A blank that is none of the script's own can begin nothing.
        have hblank := hblanks c List.mem_cons_self
        have hcomment : commentAhead (c :: (blanks ++ s)) = false := by
          have hmark : c ≠ '#' := ne_of_test hblank rfl
          have hslash : c ≠ '/' := ne_of_test hblank rfl
          simp [commentAhead, hmark, hslash]
        have hsemicolon : c ≠ ';' := ne_of_test hblank rfl
        have hskip : skipFiller [';'] false (c :: (blanks ++ s)) = c :: (blanks ++ s) := by
          rw [skipFiller, if_neg (by simpa [hsemicolon] using hc), if_neg (by simp [hcomment])]
        rcases readProgram_eq_ok.1 h with ⟨hnil, -⟩ | ⟨_, _, _, hstatement, -⟩
        · simp [hskip] at hnil
        · obtain ⟨d, t, hd, hname⟩ := beginsName_of_readStatement hstatement
          obtain rfl := (List.cons.inj (hskip.symm.trans hd)).1
          rw [isBlank_of_beginsName hname] at hblank
          exact absurd hblank Bool.false_ne_true

/-! ### Texts -/

/-- A source is parsed as its characters are read. -/
theorem parse_eq_ok {source : String} {program : Program} :
    parse source = .ok program ↔ readProgram source.toList = .ok program := by
  unfold parse
  split
  · next h => simp [h]
  · next h => simp [h]

/-- Two scripts with the end of a line between them are read as the statements of the first and
then those of the second, whatever blanks, comments and semicolons they end or begin with. -/
theorem parse_append_line {first second : String} {p q : Program} (hfirst : parse first = .ok p)
    (hsecond : parse second = .ok q) : parse (first ++ "\n" ++ second) = .ok (p ++ q) := by
  have hread := readProgram_append_line (parse_eq_ok.1 hfirst) (parse_eq_ok.1 hsecond)
  rw [parse_eq_ok, String.toList_append, String.toList_append, List.append_assoc]
  exact hread

/-- A chain with a comment behind it that no line end closes, and a script that begins with a
comment of its own and a semicolon. -/
theorem parse_append_line_comment :
    let p : Program := [⟨⟨"get_tracks", []⟩, []⟩, ⟨⟨"track", []⟩, [⟨"delete", []⟩]⟩]
    let q : Program := [⟨⟨"get_tracks", []⟩, []⟩]
    parse "get_tracks(); track()\n  .delete() // last" = .ok p ∧
      parse "# first\n;\n get_tracks()" = .ok q ∧
      parse ("get_tracks(); track()\n  .delete() // last" ++ "\n" ++
        "# first\n;\n get_tracks()") = .ok (p ++ q) := by
  intro p q
  have hfirst : parse "get_tracks(); track()\n  .delete() // last" = .ok p := by cbv
  have hsecond : parse "# first\n;\n get_tracks()" = .ok q := by cbv
  exact ⟨hfirst, hsecond, parse_append_line hfirst hsecond⟩

end Studio.Script
