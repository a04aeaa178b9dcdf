import Mathlib.Data.List.TakeWhile
import Studio.Json.Writer
import Studio.Proofs.Json.Scanning

/-!
# Written values with blanks between their parts

`Spaced value text` says that the text is the written form of a value, where any blanks may stand
around the items of lists and the parts of members. Both forms that are written are spaced: the
compact one (`spaced_write`) and the indented one (`spaced_writeAt`).
-/

namespace Studio.Json

open Studio.Number (isDigit natChars intChars)

/-- A text of blanks. -/
def Blank (s : List Char) : Prop :=
  ∀ c ∈ s, isSpace c = true

/-- Things in a row, with commas between them and blanks around them. -/
inductive Row {α : Type} (Form : α → List Char → Prop) : List α → List Char → Prop
  | last {a : α} {front text back : List Char} (hfront : Blank front) (h : Form a text)
      (hback : Blank back) : Row Form [a] (front ++ text ++ back)
  | cons {a : α} {items : List α} {front text back more : List Char} (hfront : Blank front)
      (h : Form a text) (hback : Blank back) (hmore : Row Form items more) :
      Row Form (a :: items) (front ++ text ++ back ++ ',' :: more)

/-- The text of a member: its name, a colon and its value, with blanks around the colon. -/
inductive Member (Form : Json → List Char → Prop) : String × Json → List Char → Prop
  | mk (name : String) {value : Json} {before behind text : List Char} (hbefore : Blank before)
      (hbehind : Blank behind) (h : Form value text) :
      Member Form (name, value) (writeString name ++ before ++ ':' :: behind ++ text)

/-- The text is the written form of the value, with any blanks between its parts. -/
inductive Spaced : Json → List Char → Prop
  | null : Spaced .null "null".toList
  | bool (flag : Bool) : Spaced (.bool flag) (write (.bool flag))
  | integer (n : Int) : Spaced (.integer n) (intChars n)
  | float (x : Float) : Spaced (.float x) (write (.float x))
  | single (x : Float32) : Spaced (.single x) (write (.single x))
  | string (text : String) : Spaced (.string text) (writeString text)
  | emptyArray {blanks : List Char} (h : Blank blanks) :
      Spaced (.array []) ('[' :: blanks ++ [']'])
  | array {items : List Json} {text : List Char} (h : Row Spaced items text) :
      Spaced (.array items) ('[' :: text ++ [']'])
  | emptyObject {blanks : List Char} (h : Blank blanks) :
      Spaced (.object []) ('\x7b' :: blanks ++ ['\x7d'])
  | object {members : List (String × Json)} {text : List Char}
      (h : Row (Member Spaced) members text) :
      Spaced (.object members) ('\x7b' :: text ++ ['\x7d'])

/-! ### Blanks -/

/-- Nothing at all is blank. -/
@[simp] theorem blank_nil : Blank [] := by
  intro c hc
  cases hc

/-- Blanks behind blanks are blank. -/
theorem Blank.append {s t : List Char} (hs : Blank s) (ht : Blank t) : Blank (s ++ t) := by
  intro c hc
  exact (List.mem_append.1 hc).elim (hs c) (ht c)

/-- A new line with its indent is blank. -/
theorem blank_newLine (level : Nat) : Blank (newLine level) := by
  intro c hc
  rcases List.mem_cons.1 hc with rfl | hc
  · rfl
  · rw [List.eq_of_mem_replicate hc]
    rfl

/-- A space is blank. -/
@[simp] theorem blank_singleton : Blank [' '] := by
  intro c hc
  rw [List.mem_singleton.1 hc]
  rfl

/-- Blanks in front are skipped. -/
theorem skipSpace_append {front : List Char} (h : Blank front) (s : List Char) :
    skipSpace (front ++ s) = skipSpace s := by
  induction front with
  | nil => rfl
  | cons c front ih =>
      obtain ⟨hc, hfront⟩ := List.forall_mem_cons.1 h
      rw [List.cons_append, skipSpace, List.dropWhile_cons_of_pos hc]
      exact ih hfront

/-- A character that is no space is not skipped. -/
theorem skipSpace_cons {c : Char} (h : isSpace c = false) (s : List Char) :
    skipSpace (c :: s) = c :: s :=
  List.dropWhile_cons_of_neg (Bool.eq_false_iff.1 h)

/-- Blanks are skipped up to a character that is no space. -/
theorem skipSpace_append_cons {front : List Char} {c : Char} (hfront : Blank front)
    (hc : isSpace c = false) (s : List Char) : skipSpace (front ++ c :: s) = c :: s := by
  rw [skipSpace_append hfront, skipSpace_cons hc]

/-- A number may end at blanks with an end behind them. -/
theorem Ends.append {back more : List Char} (hback : Blank back) (hmore : Ends more) :
    Ends (back ++ more) := by
  cases back with
  | nil => exact hmore
  | cons c back =>
      have hc := hback c List.mem_cons_self
      exact .cons (by simp [endsValue, hc]) _

/-! ### How a value begins -/

/-- A decimal begins with a digit. -/
theorem layout_write_head (layout : Number.Layout) (d : Number.Decimal) :
    ∃ c rest, layout.write d = c :: rest ∧ isDigit c = true := by
  obtain ⟨c, digits, hdigits⟩ := List.exists_cons_of_ne_nil (Number.natChars_ne_nil d.digits)
  have hc : isDigit c = true :=
    Number.isDigit_of_mem_natChars (hdigits ▸ List.mem_cons_self)
  unfold Number.Layout.write
  dsimp only
  rw [hdigits]
  split
  · split <;> exact ⟨'0', _, rfl, rfl⟩
  split
  · unfold Number.Layout.positional
    split
    · exact ⟨'0', _, rfl, rfl⟩
    · next hbefore =>
      split
      · exact ⟨c, _, rfl, hc⟩
      · -- At least one digit stands before the point.
        obtain ⟨n, hn⟩ := Nat.exists_eq_succ_of_ne_zero
          (show (d.exponent + (c :: digits).length - 1 + 1).toNat ≠ 0 by omega)
        rw [hn]
        exact ⟨c, _, rfl, hc⟩
  · exact ⟨c, _, rfl, hc⟩

/-- What a value may begin with. -/
def beginsValue (c : Char) : Bool :=
  c = 'n' || c = 't' || c = 'f' || c = '"' || c = '[' || c = '\x7b' || c = '-' || isDigit c

/-- What begins a value ends none. -/
theorem endsValue_of_beginsValue {c : Char} (h : beginsValue c = true) : endsValue c = false := by
  rw [Bool.eq_false_iff]
  intro hends
  have hnumeral := noNumeral_of_endsValue hends
  simp only [endsValue, isSpace, Bool.or_eq_true, decide_eq_true_eq] at hends
  rcases hends with (((h' | rfl) | rfl) | rfl)
  · rcases h' with ((rfl | rfl) | rfl) | rfl
    all_goals cases h
  all_goals cases h

/-- What begins a value is no space. -/
theorem isSpace_of_beginsValue {c : Char} (h : beginsValue c = true) : isSpace c = false := by
  have hends := endsValue_of_beginsValue h
  simp only [endsValue, Bool.or_eq_false_iff] at hends
  exact hends.1.1.1

/-- The number begins with a digit or a minus. -/
theorem writeReading_head (layout : Number.Layout) (reading : Number.Reading) :
    ∃ c rest, writeReading layout reading = c :: rest ∧ beginsValue c = true := by
  cases reading with
  | finite negative b =>
      obtain ⟨c, rest, hwrite, hc⟩ := layout_write_head layout (b.shortest layout.tie)
      cases negative with
      | true => exact ⟨'-', _, rfl, rfl⟩
      | false => exact ⟨c, rest, hwrite, by simp [beginsValue, hc]⟩
  | infinite negative => exact ⟨'n', _, rfl, rfl⟩
  | notANumber => exact ⟨'n', _, rfl, rfl⟩

/-- A whole number begins as a value does. -/
theorem intChars_head (n : Int) : ∃ c rest, intChars n = c :: rest ∧ beginsValue c = true := by
  cases n with
  | ofNat n =>
      obtain ⟨c, digits, hdigits⟩ := List.exists_cons_of_ne_nil (Number.natChars_ne_nil n)
      have hc : isDigit c = true :=
        Number.isDigit_of_mem_natChars (hdigits ▸ List.mem_cons_self)
      exact ⟨c, digits, hdigits, by simp [beginsValue, hc]⟩
  | negSucc n => exact ⟨'-', natChars (n + 1), rfl, rfl⟩

/-- Every spaced form begins as a value does. -/
theorem Spaced.head {value : Json} {text : List Char} (h : Spaced value text) :
    ∃ c rest, text = c :: rest ∧ beginsValue c = true := by
  cases h with
  | null => exact ⟨'n', _, rfl, rfl⟩
  | bool flag => cases flag <;> exact ⟨_, _, rfl, rfl⟩
  | integer n => exact intChars_head n
  | float x => exact writeReading_head _ _
  | single x => exact writeReading_head _ _
  | string text => exact ⟨'"', _, rfl, rfl⟩
  | emptyArray _ | array _ => exact ⟨'[', _, rfl, rfl⟩
  | emptyObject _ | object _ => exact ⟨'\x7b', _, rfl, rfl⟩

/-- Blanks in front of a spaced form are skipped, and nothing of the form. -/
theorem Spaced.skipSpace_eq {value : Json} {text front : List Char} (h : Spaced value text)
    (hfront : Blank front) (more : List Char) :
    skipSpace (front ++ text ++ more) = text ++ more := by
  obtain ⟨c, rest, rfl, hc⟩ := h.head
  rw [List.append_assoc, List.cons_append,
    skipSpace_append_cons hfront (isSpace_of_beginsValue hc)]

/-- Behind blanks, a row begins as its first thing does. -/
theorem Row.skipSpace_head {α : Type} {Form : α → List Char → Prop} {Begins : Char → Prop}
    {items : List α} {text : List Char} (h : Row Form items text)
    (hform : ∀ {a : α} {text : List Char}, Form a text →
      ∃ c rest, text = c :: rest ∧ Begins c)
    (hbegins : ∀ {c : Char}, Begins c → isSpace c = false) (more : List Char) :
    ∃ c rest, skipSpace (text ++ more) = c :: rest ∧ Begins c := by
  cases h with
  | last hfront h _ | cons hfront h _ _ =>
      obtain ⟨c, rest, rfl, hc⟩ := hform h
      simp only [List.append_assoc, List.cons_append]
      exact ⟨c, _, skipSpace_append_cons hfront (hbegins hc) _, hc⟩

/-! ### The compact form -/

mutual

/-- The written form is spaced, with no blanks at all. -/
theorem spaced_write : ∀ value : Json, Spaced value (write value)
  | .null => .null
  | .bool flag => .bool flag
  | .integer n => .integer n
  | .float x => .float x
  | .single x => .single x
  | .string text => .string text
  | .array [] => .emptyArray blank_nil
  | .array (item :: items) => .array (row_writeItems (item :: items) (List.cons_ne_nil _ _))
  | .object [] => .emptyObject blank_nil
  | .object (member :: members) =>
      .object (row_writeMembers (member :: members) (List.cons_ne_nil _ _))

/-- Written items are in a row. -/
theorem row_writeItems : ∀ items : List Json, items ≠ [] → Row Spaced items (writeItems items)
  | [], hne => absurd rfl hne
  | [item], _ => by
      have hrow := Row.last blank_nil (spaced_write item) blank_nil
      simpa [writeItems] using hrow
  | item :: next :: items, _ => by
      have hrow := Row.cons blank_nil (spaced_write item) blank_nil
        (row_writeItems (next :: items) (List.cons_ne_nil _ _))
      simpa [writeItems] using hrow

/-- Written members are in a row. -/
theorem row_writeMembers : ∀ members : List (String × Json), members ≠ [] →
    Row (Member Spaced) members (writeMembers members)
  | [], hne => absurd rfl hne
  | [(name, value)], _ => by
      have hmember := Member.mk name blank_nil blank_nil (spaced_write value)
      simpa [writeMembers] using Row.last blank_nil hmember blank_nil
  | (name, value) :: next :: members, _ => by
      have hmember := Member.mk name blank_nil blank_nil (spaced_write value)
      simpa [writeMembers] using Row.cons blank_nil hmember blank_nil
        (row_writeMembers (next :: members) (List.cons_ne_nil _ _))

end

/-! ### The indented form -/

/-- Blanks may follow a row. -/
theorem Row.append_blank {α : Type} {Form : α → List Char → Prop} {items : List α}
    {text back : List Char} (h : Row Form items text) (hback : Blank back) :
    Row Form items (text ++ back) := by
  induction h with
  | last hfront h hlast =>
      rw [List.append_assoc]
      exact .last hfront h (hlast.append hback)
  | cons hfront h hmid _ ih =>
      rw [List.append_assoc, List.cons_append]
      exact .cons hfront h hmid ih

mutual

/-- The indented form is spaced. -/
theorem spaced_writeAt : ∀ (value : Json) (level : Nat), Spaced value (writeAt level value)
  | .null, _ => .null
  | .bool flag, _ => .bool flag
  | .integer n, _ => .integer n
  | .float x, _ => .float x
  | .single x, _ => .single x
  | .string text, _ => .string text
  | .array [], _ => .emptyArray blank_nil
  | .array (item :: items), level => by
      have hrow := row_writeItemsAt (item :: items) (List.cons_ne_nil _ _) (level + 1)
      simpa [writeAt] using Spaced.array (hrow.append_blank (blank_newLine level))
  | .object [], _ => .emptyObject blank_nil
  | .object (member :: members), level => by
      have hrow := row_writeMembersAt (member :: members) (List.cons_ne_nil _ _) (level + 1)
      simpa [writeAt] using Spaced.object (hrow.append_blank (blank_newLine level))

/-- Indented items are in a row. -/
theorem row_writeItemsAt : ∀ items : List Json, items ≠ [] → ∀ level : Nat,
    Row Spaced items (writeItemsAt level items)
  | [], hne, _ => absurd rfl hne
  | [item], _, level => by
      simpa [writeItemsAt] using
        Row.last (blank_newLine level) (spaced_writeAt item level) blank_nil
  | item :: next :: items, _, level => by
      simpa [writeItemsAt] using Row.cons (blank_newLine level) (spaced_writeAt item level)
        blank_nil (row_writeItemsAt (next :: items) (List.cons_ne_nil _ _) level)

/-- Indented members are in a row. -/
theorem row_writeMembersAt : ∀ members : List (String × Json), members ≠ [] → ∀ level : Nat,
    Row (Member Spaced) members (writeMembersAt level members)
  | [], hne, _ => absurd rfl hne
  | [(name, value)], _, level => by
      have hmember := Member.mk name blank_nil blank_singleton (spaced_writeAt value level)
      simpa [writeMembersAt] using Row.last (blank_newLine level) hmember blank_nil
  | (name, value) :: next :: members, _, level => by
      have hmember := Member.mk name blank_nil blank_singleton (spaced_writeAt value level)
      simpa [writeMembersAt] using Row.cons (blank_newLine level) hmember blank_nil
        (row_writeMembersAt (next :: members) (List.cons_ne_nil _ _) level)

end

end Studio.Json
