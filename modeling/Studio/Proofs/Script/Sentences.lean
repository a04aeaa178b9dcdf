import Studio.Proofs.Script.Spelling

/-!
# Texts that are read as calls and scripts

The texts of arguments, calls, chains and statements, as far as they stand without blanks between
their parts, and the scripts that they make up: `IsScript.reads`.
-/

namespace Studio.Script

/-! ### Arguments and calls -/

/-- A name, an equals sign and a value spell an argument with this name. -/
theorem spells_named {name s : List Char} {value : Value} (hname : isName name = true)
    (h : Spells readValue s value) :
    Spells readArgument (name ++ '=' :: s) ⟨some (String.ofList name), value⟩ where
  begins := (begins_of_isName hname).append _
  reads more hmore := by
    have hs : name ++ '=' :: s ++ more = name ++ '=' :: (s ++ more) := by simp
    have hbegins := h.begins.append more
    have hequal : (s ++ more).head? ≠ some '=' := by
      obtain ⟨c, rest, heq, hc⟩ := hbegins
      rw [heq, List.head?_cons]
      rintro ⟨⟩
      cases hc
    rw [hs]
    refine reads_readArgument.2 (.inl ⟨_, s ++ more, value, ?_, ?_, rfl⟩)
    · exact reads_readLabel.2 ⟨'=' :: (s ++ more), reads_name hname (.cons rfl _), rfl, hequal⟩
    · rw [hbegins.skipBlank]
      exact h.reads more hmore

/-- The text does not begin with a name and the sign that gives it a value. -/
def Unlabelled (s : List Char) : Prop :=
  ∀ name r rest, Reads (readName s) name r → skipInline r ≠ '=' :: rest

/-- No label is read in a text that has none. -/
theorem Unlabelled.readLabel {s : List Char} (h : Unlabelled s) : readLabel? s = none := by
  cases hlabel : readLabel? s with
  | none => rfl
  | some read =>
      obtain ⟨name, rest⟩ := read
      have hfound : Finds (readLabel? s) name rest.val := by rw [hlabel]; simp
      obtain ⟨r, hname, hr, -⟩ := reads_readLabel.1 hfound
      exact absurd hr (h name r rest.val hname)

/-- A name has no label if no equals sign follows it. -/
theorem unlabelled_of_name {name more : List Char} (hname : isName name = true)
    (hmore : Stops isNameChar more) (hequal : ∀ rest, skipInline more ≠ '=' :: rest) :
    Unlabelled (name ++ more) := by
  intro found r rest hread
  obtain ⟨-, rfl⟩ := hread.unique (reads_name hname hmore)
  exact hequal rest

/-- A text that begins with no name has no label. -/
theorem unlabelled_of_cons {c : Char} (hc : beginsName c = false) (rest : List Char) :
    Unlabelled (c :: rest) := by
  intro name r _ hread
  obtain ⟨_, _, hs, hbegins, -⟩ := reads_readName.1 hread
  rw [← (List.cons.inj hs).1, hc] at hbegins
  cases hbegins

/-- A value spells an argument without a name, if nothing in it can be taken for a label. -/
theorem spells_unnamed {s : List Char} {value : Value} (h : Spells readValue s value)
    (hlabel : ∀ more, Closes more → Unlabelled (s ++ more)) :
    Spells readArgument s ⟨none, value⟩ where
  begins := h.begins
  reads more hmore := reads_readArgument.2
    (.inr ⟨(hlabel more hmore).readLabel, value, h.reads more hmore, rfl⟩)

/-- What a text is read as, whatever stands behind it: a name and arguments in brackets. -/
def IsCall (s : List Char) (call : Call) : Prop :=
  ∃ name rest, s = name ++ '(' :: rest ∧ isName name = true ∧ call.name = String.ofList name ∧
    ∀ more, Reads (readArguments (rest ++ more)) call.arguments more

/-- A name with empty parentheses is a call without arguments. -/
theorem isCall_nil {name : List Char} (h : isName name = true) :
    IsCall (name ++ ['(', ')']) ⟨String.ofList name, []⟩ :=
  ⟨name, [')'], rfl, h, rfl, fun _ => reads_readArguments.2 (.inl ⟨rfl, rfl⟩)⟩

/-- A name with a list in parentheses is a call with these arguments. -/
theorem isCall_listed {name s : List Char} {arguments : List Argument} (hname : isName name = true)
    (h : Listed readArgument s arguments) :
    IsCall (name ++ '(' :: (s ++ [')'])) ⟨String.ofList name, arguments⟩ := by
  refine ⟨name, s ++ [')'], rfl, hname, rfl, ?_⟩
  intro more
  have hs : s ++ [')'] ++ more = s ++ ')' :: more := by simp
  have hbegins := h.begins.append (')' :: more)
  rw [hs]
  refine reads_readArguments.2 (.inr ⟨?_, ?_⟩)
  · rw [hbegins.skipBlank]
    exact (hbegins.stops_char rfl).ne
  · exact h.reads (.inl rfl) reads_readArgumentList [] (by simp) more

/-- A call is read whatever follows it. -/
theorem IsCall.reads {s : List Char} {call : Call} (h : IsCall s call) (more : List Char) :
    Reads (readNamedCall (s ++ more)) call more := by
  obtain ⟨name, rest, rfl, hname, hcall, harguments⟩ := h
  have hs : name ++ '(' :: rest ++ more = name ++ '(' :: (rest ++ more) := by simp
  obtain ⟨_, arguments⟩ := call
  obtain rfl := hcall
  rw [hs]
  exact reads_readNamedCall.2 ⟨_, _, reads_name hname (.cons rfl _),
    reads_readCall.2 ⟨rest ++ more, arguments, rfl, harguments more, rfl⟩⟩

/-- A call that is handed over, with the variable it is to be made on. -/
theorem IsCall.spells {s root : List Char} {call : Call} (h : IsCall s call)
    (hroot : isName root = true) (hkeyword : keyword? (String.ofList root) = none) :
    Spells readValue (root ++ '.' :: s) (.invocation (some (String.ofList root)) call) where
  begins := (begins_of_isName hroot).append _
  reads more _ := by
    obtain ⟨name, rest, rfl, hname, hcall, harguments⟩ := h
    have hs : root ++ '.' :: (name ++ '(' :: rest) ++ more =
        root ++ '.' :: (name ++ '(' :: (rest ++ more)) := by simp
    obtain ⟨_, arguments⟩ := call
    obtain rfl := hcall
    rw [hs]
    exact reads_member hroot hkeyword hname (.cons rfl _)
      (reads_readMember.2 (.inl ⟨rest ++ more, arguments, rfl, harguments more, rfl⟩))

/-- Calls one behind another, each behind a point. -/
inductive IsChain : List Char → List Call → Prop
  | nil : IsChain [] []
  | cons {s t : List Char} {call : Call} {calls : List Call} (h : IsCall s call)
      (hrest : IsChain t calls) : IsChain ('.' :: (s ++ t)) (call :: calls)

/-- A chain is read up to a text that goes on with no point. -/
theorem IsChain.reads {s more : List Char} {calls : List Call} (h : IsChain s calls)
    (hmore : ∀ rest, skipFiller [] false more ≠ '.' :: rest) :
    Reads (readChain (s ++ more)) calls more := by
  induction h with
  | nil => exact reads_readChain.2 (.inr ⟨hmore, rfl, rfl⟩)
  | @cons s t call calls h hrest ih =>
      have hs : '.' :: (s ++ t) ++ more = '.' :: (s ++ (t ++ more)) := by simp
      rw [hs]
      exact reads_readChain.2 (.inl ⟨s ++ (t ++ more), call, t ++ more, calls, rfl,
        h.reads (t ++ more), ih, rfl⟩)

/-- A text is a call and a chain of further ones. -/
def IsStatement (s : List Char) (statement : Statement) : Prop :=
  ∃ t u, s = t ++ u ∧ IsCall t statement.first ∧ IsChain u statement.more

/-- A statement begins with a name. -/
theorem IsStatement.name {s : List Char} {statement : Statement} (h : IsStatement s statement) :
    ∃ c rest, s = c :: rest ∧ beginsName c = true := by
  obtain ⟨_, u, rfl, ⟨name, rest, rfl, hname, -⟩, -⟩ := h
  obtain ⟨c, t, rfl, hc⟩ := beginsName_of_isName hname
  exact ⟨c, _, rfl, hc⟩

/-- A statement is read in front of the end of its line, unless its chain goes on behind it. -/
theorem IsStatement.reads {s : List Char} {statement : Statement} (h : IsStatement s statement)
    (more : List Char) (hmore : ∀ c rest, more = c :: rest → c = '\n')
    (hpoint : ∀ rest, skipFiller [] false more ≠ '.' :: rest) :
    Reads (readStatement (s ++ more)) statement more := by
  obtain ⟨t, u, rfl, hcall, hchain⟩ := h
  have hends : skipInline more = more ∧ statementEnds more = true := by
    cases more with
    | nil => exact ⟨rfl, rfl⟩
    | cons c rest =>
        obtain rfl := hmore c rest rfl
        exact ⟨rfl, rfl⟩
  rw [List.append_assoc]
  refine reads_readStatement.2 ⟨statement.first, u ++ more, statement.more, more,
    hcall.reads _, hchain.reads hpoint, ?_, rfl, hends.1.symm⟩
  rw [hends.1, hends.2]

/-- Statements with line ends between them. -/
inductive IsScript : List Char → Program → Prop
  | one {s : List Char} {statement : Statement} (h : IsStatement s statement) :
      IsScript s [statement]
  | cons {s ends t : List Char} {statement : Statement} {program : Program}
      (h : IsStatement s statement) (hne : ends ≠ []) (hends : ∀ c ∈ ends, c = '\n')
      (hrest : IsScript t program) : IsScript (s ++ (ends ++ t)) (statement :: program)

/-- A script with a statement begins with a name. -/
theorem IsScript.name {s : List Char} {program : Program} (h : IsScript s program) :
    ∃ c rest, s = c :: rest ∧ beginsName c = true := by
  cases h with
  | one h => exact h.name
  | cons h =>
      obtain ⟨c, rest, rfl, hc⟩ := h.name
      exact ⟨c, _, rfl, hc⟩

/-- In front of a name nothing is skipped. -/
theorem skipFiller_of_beginsName {c : Char} (hc : beginsName c = true) (marks rest : List Char)
    (hmarks : marks.all (fun mark => !beginsName mark) = true) :
    skipFiller marks false (c :: rest) = c :: rest := by
  have hcomment : commentAhead (c :: rest) = false := by
    rw [commentAhead.eq_3]
    · intro other heq
      exact ne_of_test hc rfl (List.cons.inj heq).1
    · intro other heq
      exact ne_of_test hc rfl (List.cons.inj heq).1
  have hblank : isBlank c = false := (Begins.of_test hc rest rfl).stops_blank c rest rfl
  have hmark : marks.contains c = false := by
    refine Bool.eq_false_iff.2 fun hmark => ?_
    simpa [hc] using List.all_eq_true.1 hmarks c (List.contains_iff_mem.1 hmark)
  rw [skipFiller, hblank, hmark, hcomment]
  rfl

/-- Line ends in front are filler. -/
theorem skipFiller_lineEnds {ends : List Char} (hends : ∀ c ∈ ends, c = '\n')
    (marks more : List Char) : skipFiller marks false (ends ++ more) =
      skipFiller marks false more := by
  induction ends with
  | nil => rfl
  | cons c rest ih =>
      obtain ⟨rfl, hrest⟩ := List.forall_mem_cons.1 hends
      rw [List.cons_append, skipFiller]
      exact ih hrest

/-- A text of statements is read as these statements. -/
theorem IsScript.reads {s : List Char} {program : Program} (h : IsScript s program) :
    readProgram s = .ok program := by
  induction h with
  | @one s statement h =>
      obtain ⟨c, rest, hs, hc⟩ := h.name
      have hread := h.reads [] (by simp) (by simp [skipFiller])
      have hskip : skipFiller [';'] false s = s := hs ▸ skipFiller_of_beginsName hc _ rest rfl
      rw [List.append_nil] at hread
      exact readProgram_eq_ok.2 (.inr ⟨statement, [], [], hskip.symm ▸ hread,
        readProgram_eq_ok.2 (.inl ⟨rfl, rfl⟩), rfl⟩)
  | @cons s ends t statement program h hne hends hrest ih =>
      obtain ⟨c, rest, hs, hc⟩ := h.name
      obtain ⟨d, others, ht, hd⟩ := hrest.name
      have hread := h.reads (ends ++ t) ?_ ?_
      · have hskip : skipFiller [';'] false (s ++ (ends ++ t)) = s ++ (ends ++ t) := by
          rw [hs]
          exact skipFiller_of_beginsName hc _ _ rfl
        have hnext : readProgram (ends ++ t) = readProgram t :=
          readProgram_eq_of_skipFiller (skipFiller_lineEnds hends [';'] t)
        exact readProgram_eq_ok.2 (.inr ⟨statement, ends ++ t, program, hskip.symm ▸ hread,
          hnext.trans ih, rfl⟩)
      · intro c rest heq
        cases ends with
        | nil => exact absurd rfl hne
        | cons e ends => exact (List.cons.inj heq).1 ▸ hends e List.mem_cons_self
      · intro rest heq
        rw [skipFiller_lineEnds hends, ht, skipFiller_of_beginsName hd _ _ rfl] at heq
        exact ne_of_test hd rfl (List.cons.inj heq).1

end Studio.Script
