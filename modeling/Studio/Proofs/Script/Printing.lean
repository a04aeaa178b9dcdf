import Studio.Proofs.Number.Exactness
import Studio.Proofs.Script.Sentences
import Studio.Script.Render

/-!
# What is written is read back

The source form of a program is read as this program (`parse_text`), as long as its values have a
form of their own in JSON: strings, integers, truth values, nothing, and lists of these. The writer
and the reader go by different rules. Strings are written with the escapes of JSON, and the reader
knows those that printable text needs (`spells_quoted`). Integers are doubles, and their digits are
read as the same doubles (`spells_integer`). A word is a value only where it is not the name of an
argument (`Value.Plain.unlabelled`).
-/

namespace Studio.Script

open Studio.Number (isDigit natChars intChars)

/-! ### Strings -/

/-- A character that is no control, or a line end or a tabulator. -/
def isPrintable (c : Char) : Bool :=
  0x20 ≤ c.toNat || c = '\n' || c = '\t'

/-- A printable character is written as it is or with an escape that the reader knows. -/
theorem escapedChar_cases {c : Char} (h : isPrintable c = true) :
    (∃ d, Json.escapedChar c = ['\\', d] ∧ unescape? d = some c) ∨
      (Json.escapedChar c = [c] ∧ c ≠ '"' ∧ c ≠ '\\') := by
  by_cases hquote : c = '"'
  · subst hquote
    exact .inl ⟨_, rfl, rfl⟩
  by_cases hslash : c = '\\'
  · subst hslash
    exact .inl ⟨_, rfl, rfl⟩
  by_cases hline : c = '\n'
  · subst hline
    exact .inl ⟨_, rfl, rfl⟩
  by_cases htab : c = '\t'
  · subst htab
    exact .inl ⟨_, rfl, rfl⟩
  have hvisible : 0x20 ≤ c.toNat := by simpa [isPrintable, hline, htab] using h
  -- The other characters with escapes are controls.
  have hcontrol {d : Char} (hd : d.toNat < 0x20) : c ≠ d := by
    rintro rfl
    omega
  refine .inr ⟨?_, hquote, hslash⟩
  rw [Json.escapedChar, if_neg hquote, if_neg hslash, if_neg (hcontrol (by decide)),
    if_neg (hcontrol (by decide)), if_neg hline, if_neg (hcontrol (by decide)), if_neg htab,
    if_neg (Nat.not_lt.2 hvisible)]

/-- A printable character is read back from its escaped form. -/
theorem reads_escapedChar {c : Char} (h : isPrintable c = true) {read s rest : List Char}
    {text : String} (hread : Reads (readStringFrom (c :: read) s) text rest) :
    Reads (readStringFrom read (Json.escapedChar c ++ s)) text rest := by
  rcases escapedChar_cases h with ⟨d, hc, hd⟩ | ⟨hc, hquote, hslash⟩
  · rw [hc]
    exact (reads_escape hd).2 hread
  · rw [hc]
    exact (reads_plainChar hquote hslash).2 hread

/-- Printable characters are read back from their escaped forms. -/
theorem reads_escaped {text : List Char} (h : ∀ c ∈ text, isPrintable c = true)
    (read more : List Char) :
    Reads (readStringFrom read (text.flatMap Json.escapedChar ++ '"' :: more))
      (String.ofList (read.reverse ++ text)) more := by
  induction text generalizing read with
  | nil =>
      rw [List.append_nil]
      exact reads_closingQuote read more
  | cons c text ih =>
      obtain ⟨hc, htext⟩ := List.forall_mem_cons.1 h
      rw [List.flatMap_cons, List.append_assoc]
      refine reads_escapedChar hc ?_
      simpa using ih htext (c :: read)

/-- A printable text is read back from its quoted form. -/
theorem spells_quoted {text : String} (h : ∀ c ∈ text.toList, isPrintable c = true) :
    Spells readValue (Json.writeString text) (.string text) where
  begins := ⟨'"', _, rfl, rfl⟩
  reads more _ := by
    have hs : Json.writeString text ++ more =
        '"' :: (text.toList.flatMap Json.escapedChar ++ '"' :: more) := by
      simp [Json.writeString]
    rw [hs]
    refine reads_readValue.2 ⟨'"', _, rfl, text, ?_, rfl⟩
    have hread := reads_escaped h [] more
    rwa [List.reverse_nil, List.nil_append, String.ofList_toList] at hread

/-! ### Numbers -/

/-- A whole number is written with its sign and its digits. -/
theorem intChars_eq (n : Int) : intChars n = signText (n < 0) ++ natChars n.natAbs := by
  cases n with
  | ofNat n => rfl
  | negSucc n => rw [decide_eq_true (Int.negSucc_lt_zero n)]; rfl

/-- A written whole number begins as a number does. -/
theorem intChars_begins (n : Int) :
    ∃ c rest, intChars n = c :: rest ∧ beginsNumber c = true := by
  cases n with
  | ofNat n =>
      obtain ⟨c, rest, hn⟩ := List.exists_cons_of_ne_nil (Number.natChars_ne_nil n)
      have hc : c ∈ natChars n := hn ▸ List.mem_cons_self
      exact ⟨c, rest, hn, beginsNumber_of_isDigit (Number.isDigit_of_mem_natChars hc)⟩
  | negSucc n => exact ⟨'-', natChars (n + 1), rfl, rfl⟩

/-- A small whole number is read back from its written form. -/
theorem spells_integer {n : Int} (h : n.natAbs < 9000000000000000) :
    Spells readValue (intChars n) (.number (Float.ofInt n)) := by
  have hdigits : ∀ c ∈ natChars n.natAbs, isDigit c = true := fun _ =>
    Number.isDigit_of_mem_natChars
  have hnone : ∀ c ∈ ([] : List Char), isDigit c = true := by simp
  have hspells := (spells_number (Number.natChars_ne_nil n.natAbs) hdigits hnone (n < 0)).value
  have hvalue : ofDecimal (n < 0) (natChars n.natAbs) [] = Float.ofInt n := by
    rw [ofDecimal, List.append_nil]
    exact Number.toDouble_decimal (Nat.lt_trans h (by decide))
  rw [fractionText, List.append_nil, ← intChars_eq, hvalue] at hspells
  exact hspells

/-! ### Values -/

/-- A value that has a form of its own: strings of printable characters, integers below `9 · 10^15`,
truth values, nothing, and lists of such values. -/
inductive Value.Plain : Value → Prop
  | string {text : String} (h : ∀ c ∈ text.toList, isPrintable c = true) : Plain (.string text)
  | integer {n : Int} (h : n.natAbs < 9000000000000000) : Plain (.number (Float.ofInt n))
  | bool (flag : Bool) : Plain (.bool flag)
  | array {items : List Value} (h : ∀ item ∈ items, Plain item) : Plain (.array items)
  | none : Plain .none

/-- The characters of a value that is written out. -/
def Value.written (value : Value) : List Char :=
  Json.write value.toJson

/-- A small whole number is written without a fraction. -/
theorem written_integer {n : Int} (h : n.natAbs < 9000000000000000) :
    (Value.number (Float.ofInt n)).written = intChars n := by
  rw [Value.written, Value.toJson, Json.ofNumber, Number.asInteger?_ofInt h]
  rfl

/-- A truth value is written as its word. -/
theorem written_bool (flag : Bool) : (Value.bool flag).written = flagText flag := by
  cases flag <;> rfl

/-- Values that are read back one by one are read back as a list. -/
theorem listed_written {item : Value} {rest : List Value}
    (h : ∀ value ∈ item :: rest, Spells readValue value.written value) :
    Listed readValue (Json.writeItems (itemsToJson (item :: rest))) (item :: rest) := by
  induction rest generalizing item with
  | nil => exact .one (h item List.mem_cons_self)
  | cons next rest ih =>
      obtain ⟨hitem, hrest⟩ := List.forall_mem_cons.1 h
      have hnone : ∀ c ∈ ([] : List Char), isBlank c = true := by simp
      exact .cons hitem hnone (ih hrest)

/-- The word `null` is read as no value. -/
theorem spells_null : Spells readValue "null".toList .none where
  begins := ⟨'n', _, rfl, rfl⟩
  reads _ hmore := reads_readValue_of_name (reads_name rfl hmore.stops_name)
    (reads_readNamed.2 (.inl ⟨rfl, rfl⟩))

/-- A plain value is read back. -/
theorem Value.Plain.spells {value : Value} (h : value.Plain) :
    Spells readValue value.written value := by
  induction h with
  | string h => exact spells_quoted h
  | integer h =>
      rw [written_integer h]
      exact spells_integer h
  | bool flag =>
      rw [written_bool]
      exact (spells_flag flag).value
  | @array items _ ih =>
      cases items with
      | nil => exact spells_array_nil
      | cons item rest => exact spells_array (listed_written ih)
  | none => exact spells_null

/-- A plain value in the place of an argument is not taken for the name of one. -/
theorem Value.Plain.unlabelled {value : Value} (h : value.Plain) {more : List Char}
    (hmore : Closes more) : Unlabelled (value.written ++ more) := by
  have hword {name : List Char} (hname : isName name = true) : Unlabelled (name ++ more) := by
    refine unlabelled_of_name hname hmore.stops_name ?_
    rw [skipInline_of_stops (hmore.stops ⟨rfl, rfl, rfl⟩)]
    exact hmore.ne ⟨rfl, rfl, rfl⟩
  cases h with
  | string _ => exact unlabelled_of_cons rfl _
  | @integer n h =>
      obtain ⟨c, rest, hn, hc⟩ := intChars_begins n
      rw [written_integer h, hn]
      refine unlabelled_of_cons (Bool.eq_false_iff.2 fun hname => ?_) _
      obtain ⟨-, -, -, hnumber⟩ := beginsName_excludes hname
      rw [hc] at hnumber
      cases hnumber
  | bool flag =>
      rw [written_bool]
      cases flag <;> exact hword rfl
  | array _ => exact unlabelled_of_cons rfl _
  | none =>
      have hnull : isName "null".toList = true := rfl
      exact hword hnull

/-! ### Arguments and calls -/

/-- A call under a name, with plain values as arguments, each under a name or under none. -/
structure Call.Plain (call : Call) : Prop where
  name : isName call.name.toList = true
  arguments : ∀ argument ∈ call.arguments,
    (∀ name, argument.name = some name → isName name.toList = true) ∧ argument.value.Plain

/-- An argument with a plain value is read back from its text. -/
theorem spells_argument {argument : Argument}
    (hname : ∀ name, argument.name = some name → isName name.toList = true)
    (hvalue : argument.value.Plain) : Spells readArgument argument.text.toList argument := by
  obtain ⟨name, value⟩ := argument
  have hwritten : value.toJson.text.toList = value.written := String.toList_ofList
  cases name with
  | none =>
      have htext : (⟨none, value⟩ : Argument).text.toList = value.written := by
        simp [Argument.text, hwritten]
      rw [htext]
      exact spells_unnamed hvalue.spells fun _ => hvalue.unlabelled
  | some name =>
      have htext : (⟨some name, value⟩ : Argument).text.toList =
          name.toList ++ '=' :: value.written := by
        simp [Argument.text, hwritten]
      have hspells := spells_named (hname name rfl) hvalue.spells
      rw [String.ofList_toList] at hspells
      rwa [htext]

/-- Arguments that are read back one by one are read back as a list. -/
theorem listed_arguments {argument : Argument} {rest : List Argument}
    (h : ∀ found ∈ argument :: rest, Spells readArgument found.text.toList found) :
    Listed readArgument (argumentsText (argument :: rest)).toList (argument :: rest) := by
  induction rest generalizing argument with
  | nil => exact .one (h argument List.mem_cons_self)
  | cons next rest ih =>
      obtain ⟨hargument, hrest⟩ := List.forall_mem_cons.1 h
      have hblank : ∀ c ∈ [' '], isBlank c = true := List.forall_mem_singleton.2 rfl
      have hlisted := Listed.cons hargument hblank (ih hrest)
      have htext : (argumentsText (argument :: next :: rest)).toList =
          argument.text.toList ++ ',' :: ([' '] ++ (argumentsText (next :: rest)).toList) := by
        simp [argumentsText]
      rwa [htext]

/-- A plain call is read back from its text. -/
theorem Call.Plain.isCall {call : Call} (h : call.Plain) : IsCall call.text.toList call := by
  obtain ⟨name, arguments⟩ := call
  obtain ⟨hname, harguments⟩ := h
  cases arguments with
  | nil =>
      have hcall := isCall_nil hname
      have htext : (⟨name, []⟩ : Call).text.toList = name.toList ++ ['(', ')'] := by
        simp [Call.text, argumentsText]
      rw [String.ofList_toList] at hcall
      rwa [htext]
  | cons argument rest =>
      have hcall := isCall_listed hname (listed_arguments fun found hfound =>
        spells_argument (harguments found hfound).1 (harguments found hfound).2)
      have htext : (⟨name, argument :: rest⟩ : Call).text.toList =
          name.toList ++ '(' :: ((argumentsText (argument :: rest)).toList ++ [')']) := by
        simp [Call.text]
      rw [String.ofList_toList] at hcall
      rwa [htext]

/-! ### Statements and scripts -/

/-- Calls that are read back one by one are read back as a chain. -/
theorem isChain_text {call : Call} {calls : List Call} (h : ∀ found ∈ call :: calls, found.Plain) :
    ∃ s, (Text.joinWith "." ((call :: calls).map Call.text)).toList = call.text.toList ++ s ∧
      IsChain s calls := by
  induction calls generalizing call with
  | nil => exact ⟨[], (List.append_nil _).symm, .nil⟩
  | cons next calls ih =>
      obtain ⟨-, hrest⟩ := List.forall_mem_cons.1 h
      obtain ⟨s, hs, hchain⟩ := ih hrest
      refine ⟨'.' :: (next.text.toList ++ s), ?_,
        .cons (hrest next List.mem_cons_self).isCall hchain⟩
      show (call.text ++ "." ++ Text.joinWith "." ((next :: calls).map Call.text)).toList = _
      rw [String.toList_append, hs]
      simp

/-- A statement of plain calls is read back from its text. -/
theorem isStatement_text {statement : Statement} (h : ∀ call ∈ statement.calls, call.Plain) :
    IsStatement statement.text.toList statement := by
  obtain ⟨s, hs, hchain⟩ := isChain_text h
  exact ⟨_, s, hs, (h statement.first List.mem_cons_self).isCall, hchain⟩

/-- A script of plain calls is read back from its text. -/
theorem isScript_text {statement : Statement} {rest : List Statement}
    (h : ∀ found ∈ statement :: rest, ∀ call ∈ found.calls, call.Plain) :
    IsScript (Program.text (statement :: rest)).toList (statement :: rest) := by
  induction rest generalizing statement with
  | nil => exact .one (isStatement_text (h statement List.mem_cons_self))
  | cons next rest ih =>
      obtain ⟨hstatement, hrest⟩ := List.forall_mem_cons.1 h
      have hend : ∀ c ∈ ['\n'], c = '\n' := by simp
      have hscript := IsScript.cons (isStatement_text hstatement) (List.cons_ne_nil _ _) hend
        (ih hrest)
      have htext : (Program.text (statement :: next :: rest)).toList =
          statement.text.toList ++ (['\n'] ++ (Program.text (next :: rest)).toList) := by
        simp [Program.text, Text.joinWith]
      rwa [htext]

/-- The text of a program of plain calls is read as this program: the same statements and calls,
with the same arguments in their order. -/
theorem parse_text (program : Program)
    (h : ∀ statement ∈ program, ∀ call ∈ statement.calls, call.Plain) :
    parse program.text = .ok program := by
  cases program with
  | nil =>
      have hread : readProgram "".toList = .ok [] := readProgram_eq_ok.2 (.inl ⟨rfl, rfl⟩)
      show parse "" = _
      rw [parse, hread]
  | cons statement rest =>
      rw [parse, (isScript_text h).reads]

/-- A chain with nested lists, with words of the language as names and values, and with a text that
needs every escape. -/
theorem parse_text_chain :
    let notes : Value := .array [.array [.number (Float.ofInt (-60)), .none], .array []]
    let program : Program := [
      ⟨⟨"track", [⟨some "true", .bool true⟩, ⟨none, .string "a \"b\" \\ c\n\td"⟩]⟩,
        [⟨"add_midi", [⟨some "notes", notes⟩, ⟨some "notes", .none⟩]⟩]⟩,
      ⟨⟨"_2", []⟩, []⟩]
    (∀ statement ∈ program, ∀ call ∈ statement.calls, call.Plain) ∧
      parse program.text = .ok program := by
  intro notes program
  have hnamed {name : String} (hname : isName name.toList = true) :
      ∀ found, some name = some found → isName found.toList = true := by
    rintro _ ⟨⟩
    exact hname
  have hnotes : notes.Plain := by
    refine .array (List.forall_mem_cons.2 ⟨.array ?_, ?_⟩)
    · exact List.forall_mem_cons.2 ⟨.integer (by decide), List.forall_mem_singleton.2 .none⟩
    · exact List.forall_mem_singleton.2 (.array (by simp))
  have hplain : ∀ statement ∈ program, ∀ call ∈ statement.calls, call.Plain := by
    simp only [program, Statement.calls, List.forall_mem_cons, List.not_mem_nil, false_imp_iff,
      implies_true, and_true]
    refine ⟨⟨⟨by decide, ?_⟩, ⟨by decide, ?_⟩⟩, ⟨by decide, by simp⟩⟩
    · simp only [List.forall_mem_cons, List.not_mem_nil, false_imp_iff, implies_true, and_true]
      exact ⟨⟨hnamed rfl, .bool true⟩, by simp, .string (List.all_eq_true.1 (by decide))⟩
    · simp only [List.forall_mem_cons, List.not_mem_nil, false_imp_iff, implies_true, and_true]
      exact ⟨⟨hnamed rfl, hnotes⟩, hnamed rfl, .none⟩
  exact ⟨hplain, parse_text program hplain⟩

end Studio.Script
