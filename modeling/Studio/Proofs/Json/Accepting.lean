import Mathlib.Data.List.Forall2
import Studio.Json.Shape
import Studio.Proofs.Json.Numerals
import Studio.Proofs.Json.Spacing

/-!
# What the readers accept

`Accepts reader nesting value a` says that a reader reads every spaced form of a value as `a`, in
front of any text that shows where the value ends, as long as containers may be nested deeper than
`nesting`. The lemmas go by the readers for shapes: a list is accepted with its items
(`accepts_list`), a record with its members (`accepts_record`), a map with its entries
(`accepts_map`). What is accepted is read from a whole text (`Accepts.readText`).
-/

namespace Studio.Json

open Studio.Number (isDigit natChars intChars)
open Studio.Text (Rest Tail)

/-- The reader reads every spaced form of the value as `a`. -/
def Accepts {α : Type} (reader : Reader α) (nesting : Nat) (value : Json) (a : α) : Prop :=
  ∀ ⦃depth : Nat⦄ ⦃front text more : List Char⦄, nesting < depth → Blank front →
    Spaced value text → Ends more → Reads (reader depth (front ++ text ++ more)) a more

section

variable {α β : Type} {reader : Reader α} {nesting : Nat} {value : Json} {a : α}

/-- A reader that accepts a value also does at lesser depths. -/
theorem Accepts.mono {deeper : Nat} (h : Accepts reader nesting value a)
    (hle : nesting ≤ deeper) : Accepts reader deeper value a :=
  fun _ _ _ _ hdepth => h (Nat.lt_of_le_of_lt hle hdepth)

/-- A reader whose result is changed accepts the value with the changed result. -/
theorem Accepts.map (f : α → β) (h : Accepts reader nesting value a) :
    Accepts (reader.map f) nesting value (f a) := by
  intro depth front text more hdepth hfront htext hmore
  obtain ⟨hlt, hread⟩ := h hdepth hfront htext hmore
  refine ⟨hlt, ?_⟩
  rw [Reader.map, hread]

/-- What is accepted is read behind blanks. -/
theorem Accepts.reads (h : Accepts reader nesting value a) {depth : Nat} {s text more : List Char}
    (hdepth : nesting < depth) (hs : skipSpace s = text ++ more) (htext : Spaced value text)
    (hmore : Ends more) : Reads (reader depth s) a more := by
  have hblank : Blank (s.takeWhile isSpace) := fun c hc => List.mem_takeWhile_imp hc
  have hread := h hdepth hblank htext hmore
  rwa [List.append_assoc, ← hs, skipSpace, List.takeWhile_append_dropWhile] at hread

/-- What is accepted is read from a whole text. -/
theorem Accepts.readText (h : Accepts reader nesting value a) (hnesting : nesting < depthLimit)
    {text : List Char} (htext : Spaced value text) : readText reader text = .ok a := by
  have hread := h hnesting blank_nil htext Ends.nil
  rw [List.nil_append, List.append_nil] at hread
  obtain ⟨_, hread⟩ := hread
  rw [Json.readText, hread]
  rfl

end

/-! ### Scalars -/

section

variable {α : Type} {s front t rest : List Char} {c : Char} {a : α}

/-- A step behind blanks begins at the first character that is none. -/
theorem reads_dispatch {step : (c : Char) → (rest : List Char) → Step (c :: rest) α}
    (h : skipSpace s = c :: t) : Reads (dispatch s step) a rest ↔ Reads (step c t) a rest := by
  unfold dispatch behindSpace
  rw [reads_widen]
  generalize skipSpace s = u at h
  subst h
  exact Iff.rfl

/-- A word is read where it stands, up to its last letter. -/
theorem readWord_append (letters more : List Char) :
    ∃ h, readWord letters (letters ++ more) = .ok ⟨more, h⟩ := by
  induction letters with
  | nil => exact ⟨Nat.le_refl _, rfl⟩
  | cons c letters ih =>
      obtain ⟨h, hread⟩ := ih
      refine ⟨by simp only [List.cons_append, List.length_cons]; omega, ?_⟩
      rw [readWord.eq_def]
      simp [hread]

/-- The letters of a word are read as what the word stands for. -/
theorem reads_wordAs (a : α) (letters : List Char) (first : Char) (more : List Char) :
    Reads (wordAs a letters first (letters ++ more)) a more := by
  obtain ⟨h, hread⟩ := readWord_append letters more
  rw [wordAs, hread]
  exact reads_ok.2 ⟨rfl, rfl⟩

end

/-- The truth values are accepted. -/
theorem accepts_bool (flag : Bool) : Accepts readBool 0 (.bool flag) flag := by
  intro depth front text more _ hfront htext _
  cases htext with
  | bool =>
      rw [List.append_assoc]
      cases flag with
      | true =>
          have hskip := skipSpace_append_cons hfront (c := 't') rfl ("rue".toList ++ more)
          refine (reads_dispatch hskip).2 ?_
          rw [if_pos rfl]
          exact reads_wordAs true _ _ _
      | false =>
          have hskip := skipSpace_append_cons hfront (c := 'f') rfl ("alse".toList ++ more)
          refine (reads_dispatch hskip).2 ?_
          rw [if_neg (by decide), if_pos rfl]
          exact reads_wordAs false _ _ _

/-- A text is accepted, under whatever title it is read. -/
theorem accepts_text (title text : String) : Accepts (readTextAs title) 0 (.string text) text := by
  intro depth front written more _ hfront htext _
  cases htext with
  | string =>
      rw [List.append_assoc, writeString, List.cons_append, List.cons_append, List.append_assoc]
      refine (reads_dispatch (skipSpace_append_cons hfront rfl _)).2 ?_
      rw [if_pos rfl]
      exact reads_cons.2 (reads_readString text more)

/-- A whole number below the bound is accepted. -/
theorem accepts_nat {bound n : Nat} (title : String) (h : n < bound)
    (hbound : bound ≤ 0x10000000000000000) : Accepts (readNat title bound) 0 (.nat n) n := by
  intro depth front written more _ hfront htext hmore
  cases htext with
  | integer =>
      obtain ⟨c, digits, hn⟩ := List.exists_cons_of_ne_nil (Number.natChars_ne_nil n)
      have hc : isDigit c = true := Number.isDigit_of_mem_natChars (hn ▸ List.mem_cons_self)
      have hminus : c ≠ '-' := by
        rintro rfl
        cases hc
      have hread := reads_readNumeral (Nat.lt_of_lt_of_le h hbound) hmore
      have hwritten : intChars (n : Int) = c :: digits := hn
      rw [hn, List.cons_append] at hread
      obtain ⟨_, hread⟩ := hread
      rw [hwritten, List.append_assoc, List.cons_append]
      have hspace : isSpace c = false := isSpace_of_beginsValue (by simp [beginsValue, hc])
      refine (reads_dispatch (skipSpace_append_cons hfront hspace _)).2 ?_
      rw [if_pos (by simp [hc]), if_neg hminus, hread]
      simp [h]

/-- The number is read back from its written form, to the end of that. -/
def ReadsBack (x : Float32) : Prop :=
  Reads (readSingle depthLimit (write (.single x))) x []

/-- The single-precision number for a numeral. -/
def singleOf : Numeral → Float32
  | .integer n => Number.DecimalText.toSingle ⟨n < 0, n.natAbs, 0⟩
  | .float x => Number.toSingle x

/-- A single-precision number is read as a numeral, which is then rounded. -/
theorem reads_readSingle {s t rest : List Char} {c : Char} {x : Float32} {depth : Nat}
    (h : skipSpace s = c :: t) : Reads (readSingle depth s) x rest ↔
      (c = '-' || isDigit c) = true ∧ ∃ value,
        Reads (if c = '-' then (readNumeral true t).cons else readNumeral false (c :: t)) value
          rest ∧ x = singleOf value := by
  rw [readSingle, reads_dispatch h]
  by_cases hnumber : (decide (c = '-') || isDigit c) = true
  · rw [if_pos hnumber, and_iff_right hnumber]
    dsimp only
    generalize (if c = '-' then _ else _ : Step (c :: t) Numeral) = step
    rcases step with fault | ⟨value, r⟩
    · simp
    · cases value <;> simp [singleOf, and_comm]
  · rw [if_neg hnumber]
    exact iff_of_false not_reads_error fun h => hnumber h.1

/-- A number that is read alone is also read in front of more text. -/
theorem reads_readSingle_append {c : Char} {t more : List Char} {x : Float32}
    (h : Reads (readSingle depthLimit (c :: t)) x []) (hc : beginsValue c = true)
    (hmore : Ends more) {front : List Char} (hfront : Blank front) (depth : Nat) :
    Reads (readSingle depth (front ++ c :: (t ++ more))) x more := by
  have hspace := isSpace_of_beginsValue hc
  obtain ⟨hnumber, value, hread, hvalue⟩ := (reads_readSingle (skipSpace_cons hspace t)).1 h
  have hskip := skipSpace_append_cons hfront hspace (t ++ more)
  refine (reads_readSingle hskip).2 ⟨hnumber, value, ?_, hvalue⟩
  by_cases hminus : c = '-'
  · rw [if_pos hminus] at hread ⊢
    exact reads_cons.2 (reads_readNumeral_append (reads_cons.1 hread) hmore)
  · rw [if_neg hminus] at hread ⊢
    exact reads_readNumeral_append hread hmore

/-- A single-precision number is accepted if it is read back from its written form. -/
theorem accepts_single {x : Float32} (h : ReadsBack x) : Accepts readSingle 0 (.single x) x := by
  intro depth front text more _ hfront htext hmore
  cases htext with
  | single =>
      obtain ⟨c, t, hwritten, hc⟩ := (Spaced.single x).head
      rw [hwritten, List.append_assoc, List.cons_append]
      rw [ReadsBack, hwritten] at h
      exact reads_readSingle_append h hc hmore hfront depth

/-! ### Optional values -/

/-- A step on a text is one on an equal text. -/
theorem reads_cast {α : Type} {s t rest : List Char} {a : α} (hs : s = t)
    (htype : Step s α = Step t α) {step : Step t α} :
    Reads (htype.mpr step) a rest ↔ Reads step a rest := by
  subst hs
  exact Iff.rfl

/-- Where nothing may stand, null is accepted as nothing. -/
theorem accepts_none {α : Type} (reader : Reader α) : Accepts (readOpt reader) 0 .null none := by
  intro depth front text more _ hfront htext _
  cases htext with
  | null =>
      rw [List.append_assoc]
      have hskip := skipSpace_append_cons hfront (c := 'n') rfl ("ull".toList ++ more)
      unfold readOpt
      split
      · next rest hrest =>
        unfold behindSpace
        rw [reads_widen, reads_cast hrest]
        obtain ⟨-, rfl⟩ := List.cons.inj (hrest.symm.trans hskip)
        exact reads_wordAs none _ _ _
      · next hother => exact absurd hskip (hother _)

/-- Where nothing may stand, a value is accepted unless it begins as null does. -/
theorem accepts_some {α : Type} {reader : Reader α} {nesting : Nat} {value : Json} {a : α}
    (h : Accepts reader nesting value a)
    (hhead : ∀ text, Spaced value text → ∀ c ∈ text.head?, c ≠ 'n') :
    Accepts (readOpt reader) nesting value (some a) := by
  intro depth front text more hdepth hfront htext hmore
  have hread := (h.map some) hdepth hfront htext hmore
  obtain ⟨c, t, rfl, hc⟩ := htext.head
  have hskip := skipSpace_append_cons hfront (isSpace_of_beginsValue hc) (t ++ more)
  rw [List.append_assoc, List.cons_append] at hread ⊢
  unfold readOpt
  split
  · next rest hrest =>
    obtain ⟨rfl, -⟩ := List.cons.inj (hrest.symm.trans hskip)
    exact absurd rfl (hhead _ htext 'n' rfl)
  · exact hread

/-- A value that may be missing is accepted as it is encoded. -/
theorem accepts_opt {α : Type} {reader : Reader α} {encode : α → Json} {o : Option α}
    (h : ∀ a, o = some a → Accepts reader 0 (encode a) a)
    (hhead : ∀ a text, Spaced (encode a) text → ∀ c ∈ text.head?, c ≠ 'n') :
    Accepts (readOpt reader) 0 (opt encode o) o := by
  cases o with
  | none => exact accepts_none reader
  | some a => exact accepts_some (h a rfl) (hhead a)

/-- The written form of a text does not begin as null does. -/
theorem string_head {text : String} {written : List Char} (h : Spaced (.string text) written) :
    ∀ c ∈ written.head?, c ≠ 'n' := by
  cases h with
  | string =>
      rintro c hc rfl
      cases hc

/-- The written form of a whole number does not begin as null does. -/
theorem nat_head {n : Nat} {written : List Char} (h : Spaced (.nat n) written) :
    ∀ c ∈ written.head?, c ≠ 'n' := by
  cases h with
  | integer =>
      rintro c hc rfl
      have hmem : 'n' ∈ natChars n := List.mem_of_mem_head? hc
      exact absurd (Number.isDigit_of_mem_natChars hmem) (by decide)

/-- The written form of a single-precision number does not begin as null does. -/
theorem single_head {x : Float32} (hx : ReadsBack x) {written : List Char}
    (h : Spaced (.single x) written) : ∀ c ∈ written.head?, c ≠ 'n' := by
  cases h with
  | single =>
      obtain ⟨c, t, hwritten, hc⟩ := (Spaced.single x).head
      have hskip := skipSpace_cons (isSpace_of_beginsValue hc) t
      rw [ReadsBack, hwritten, reads_readSingle hskip] at hx
      rintro d hd rfl
      rw [hwritten] at hd
      obtain rfl := Option.some.inj hd
      exact absurd hx.1 (by decide)

/-! ### Lists -/

section

variable {s t : List Char} {c : Char}

/-- A closing bracket ends the items. -/
theorem nextItem_close (first : Bool) (h : skipSpace s = ']' :: t) :
    ∃ hlt, nextItem first s = .ok (.close ⟨t, hlt⟩) := by
  unfold nextItem
  split
  · next hnone => cases h.symm.trans hnone
  · next d u hsome =>
    obtain ⟨rfl, rfl⟩ := List.cons.inj (h.symm.trans hsome)
    exact ⟨length_behind_space_lt h, rfl⟩

/-- The first item of an array begins at the first character that is no space. -/
theorem nextItem_first (h : skipSpace s = c :: t) (hc : beginsValue c = true) :
    ∃ hle, nextItem true s = .ok (.item ⟨c :: t, hle⟩) := by
  have hclose : c ≠ ']' := by
    rintro rfl
    cases hc
  unfold nextItem
  split
  · next hnone => cases h.symm.trans hnone
  · next d u hsome =>
    obtain ⟨rfl, rfl⟩ := List.cons.inj (h.symm.trans hsome)
    rw [if_neg hclose, if_pos rfl]
    exact ⟨length_behind_space_lt h, rfl⟩

/-- Every other item begins behind a comma. -/
theorem nextItem_next {u : List Char} (h : skipSpace s = ',' :: t) (ht : skipSpace t = c :: u)
    (hc : beginsValue c = true) : ∃ hle, nextItem false s = .ok (.item ⟨t, hle⟩) := by
  unfold nextItem
  split
  · next hnone => cases h.symm.trans hnone
  · next d v hsome =>
    obtain ⟨rfl, rfl⟩ := List.cons.inj (h.symm.trans hsome)
    rw [if_neg (by decide), if_neg (by decide), if_pos rfl, ht]
    split
    · next hnone => cases hnone
    · next hclose =>
      obtain ⟨rfl, -⟩ := List.cons.inj hclose
      cases hc
    · exact ⟨Nat.le_of_lt (length_behind_space_lt h), rfl⟩

end

section

variable {α : Type} {item : Reader α} {nesting depth : Nat}

/-- One more item is read, and then the rest of the list. -/
theorem reads_readItemsAs_item {first : Bool} {read : List α} {s t u rest : List Char} {a : α}
    {all : List α} (hnext : ∃ hle, nextItem first s = .ok (.item ⟨t, hle⟩))
    (hitem : Reads (item depth t) a u)
    (hrest : Reads (readItemsAs item depth false (a :: read) u) all rest) :
    Reads (readItemsAs item depth first read s) all rest := by
  obtain ⟨_, hnext⟩ := hnext
  obtain ⟨_, hitem⟩ := hitem
  rw [readItemsAs, hnext]
  dsimp only
  rw [hitem]
  exact reads_widen.2 hrest

/-- At a closing bracket, the items are those that were read. -/
theorem reads_readItemsAs_close {first : Bool} {read : List α} {s rest : List Char}
    (h : skipSpace s = ']' :: rest) :
    Reads (readItemsAs item depth first read s) read.reverse rest := by
  obtain ⟨_, hnext⟩ := nextItem_close first h
  rw [readItemsAs, hnext]
  exact reads_ok.2 ⟨rfl, rfl⟩

/-- From where the first of them is found, items are read up to the end of the list. -/
theorem reads_readItemsAs {items : List Json} {text : List Char} (hrow : Row Spaced items text)
    (hdepth : nesting < depth) {values : List α}
    (hitems : List.Forall₂ (Accepts item nesting) items values) (more : List Char) {first : Bool}
    {s t : List Char} (hnext : ∃ hle, nextItem first s = .ok (.item ⟨t, hle⟩))
    (ht : skipSpace t = skipSpace (text ++ ']' :: more)) (read : List α) :
    Reads (readItemsAs item depth first read s) (read.reverse ++ values) more := by
  -- The step to the next item skips blanks or leaves them, so `t` is known up to them alone.
  induction hrow generalizing values first s t read with
  | @last value front text after hfront htext hafter =>
      obtain ⟨a, values, hvalue, hnone, rfl⟩ := List.forall₂_cons_left_iff.1 hitems
      obtain rfl := List.forall₂_nil_left_iff.1 hnone
      rw [List.append_assoc, htext.skipSpace_eq hfront] at ht
      have hread := hvalue.reads hdepth ht htext (.append hafter (.cons rfl _))
      have hdone : Reads (readItemsAs item depth false (a :: read) (after ++ ']' :: more))
          (a :: read).reverse more :=
        reads_readItemsAs_close (skipSpace_append_cons hafter (by decide) more)
      rw [List.reverse_cons] at hdone
      exact reads_readItemsAs_item hnext hread hdone
  | @cons value items front text after rest hfront htext hafter hmore ih =>
      obtain ⟨a, values, hvalue, hvalues, rfl⟩ := List.forall₂_cons_left_iff.1 hitems
      rw [List.append_assoc, List.append_assoc, htext.skipSpace_eq hfront, List.cons_append] at ht
      have hread := hvalue.reads hdepth ht htext (.append hafter (.cons rfl _))
      have hcomma := skipSpace_append_cons hafter (c := ',') (by decide) (rest ++ ']' :: more)
      obtain ⟨c, u, hu, hc⟩ := hmore.skipSpace_head Spaced.head isSpace_of_beginsValue (']' :: more)
      have hdone := ih hvalues (nextItem_next hcomma hu hc) rfl (a :: read)
      rw [List.reverse_cons, List.append_assoc] at hdone
      exact reads_readItemsAs_item hnext hread hdone

end

/-- Where a step settles to stop does not matter when it reads something. -/
@[simp] theorem reads_settleStep {α : Type} {s rest : List Char} {stop : List Char → List Char}
    {step : Step s α} {a : α} : Reads (settleStep stop step) a rest ↔ Reads step a rest := by
  cases step with
  | error fault => exact iff_of_false not_reads_error not_reads_error
  | ok found => exact Iff.rfl

/-- A list is accepted when its items are. -/
theorem accepts_list {α : Type} {item : Reader α} {nesting : Nat} {items : List Json}
    {values : List α} (h : List.Forall₂ (Accepts item nesting) items values) :
    Accepts (readListOf item) (nesting + 1) (.array items) values := by
  intro depth front text more hdepth hfront htext _
  have hopen (t : List Char) (ht : Reads (readItemsAs item (depth - 1) true [] t) values more) :
      Reads (readListOf item depth (front ++ '[' :: t)) values more := by
    refine (reads_dispatch (skipSpace_append_cons hfront rfl t)).2 ?_
    rw [if_pos rfl, if_neg (by omega)]
    exact reads_settleStep.2 (reads_cons.2 ht)
  cases htext with
  | @emptyArray blanks hblank =>
      obtain rfl := List.forall₂_nil_left_iff.1 h
      rw [show front ++ ('[' :: blanks ++ [']']) ++ more = front ++ '[' :: (blanks ++ ']' :: more)
        by simp]
      exact hopen _ (reads_readItemsAs_close (skipSpace_append_cons hblank rfl more))
  | @array _ text hrow =>
      rw [show front ++ ('[' :: text ++ [']']) ++ more = front ++ '[' :: (text ++ ']' :: more)
        by simp]
      obtain ⟨c, t, ht, hc⟩ := hrow.skipSpace_head Spaced.head isSpace_of_beginsValue (']' :: more)
      have hinner : nesting < depth - 1 := by omega
      have hread := reads_readItemsAs hrow hinner h more
        (nextItem_first ht hc) (by rw [ht, skipSpace_cons (isSpace_of_beginsValue hc)]) []
      exact hopen _ hread

/-! ### Members -/

section

variable {s t : List Char}

/-- A closing brace ends the members. -/
theorem nextMember_close {first : Bool} (h : skipSpace s = '\x7d' :: t) :
    ∃ hlt, nextMember first s = .ok (.close ⟨t, hlt⟩) := by
  unfold nextMember
  split
  · next hnone => cases h.symm.trans hnone
  · next d u hsome =>
    obtain ⟨rfl, rfl⟩ := List.cons.inj (h.symm.trans hsome)
    exact ⟨length_behind_space_lt h, rfl⟩

/-- The first member of an object begins at a quote. -/
theorem nextMember_first (h : skipSpace s = '"' :: t) :
    ∃ hle, nextMember true s = .ok (.item ⟨t, hle⟩) := by
  unfold nextMember
  split
  · next hnone => cases h.symm.trans hnone
  · next d u hsome =>
    obtain ⟨rfl, rfl⟩ := List.cons.inj (h.symm.trans hsome)
    exact ⟨Nat.le_of_lt (length_behind_space_lt h), rfl⟩

/-- Every other member begins with a quote behind a comma. -/
theorem nextMember_next {u : List Char} (h : skipSpace s = ',' :: u) (hu : skipSpace u = '"' :: t) :
    ∃ hle, nextMember false s = .ok (.item ⟨t, hle⟩) := by
  unfold nextMember
  split
  · next hnone => cases h.symm.trans hnone
  · next d v hsome =>
    obtain ⟨rfl, rfl⟩ := List.cons.inj (h.symm.trans hsome)
    rw [if_neg (by decide), if_neg (by decide), if_pos rfl]
    split
    · next hnone => cases hu.symm.trans hnone
    · next d v hsome =>
      obtain ⟨rfl, rfl⟩ := List.cons.inj (hu.symm.trans hsome)
      have hlt := Nat.lt_trans (length_behind_space_lt hu) (length_behind_space_lt h)
      exact ⟨Nat.le_of_lt hlt, rfl⟩

end

/-- The members of an object are found one after another in a text, up to the end of the object;
`first` tells that none comes before. -/
inductive Found : Bool → List (String × Json) → List Char → List Char → Prop
  | close {first : Bool} {s more : List Char}
      (h : ∃ hlt, nextMember first s = .ok (.close ⟨more, hlt⟩)) : Found first [] s more
  | member {first : Bool} {name : String} {value : Json} {members : List (String × Json)}
      {s quoted unread behind written rest more : List Char}
      (hnext : ∃ hle, nextMember first s = .ok (.item ⟨quoted, hle⟩))
      (hname : Reads (readString quoted) name unread) (hcolon : Reads (readColon unread) () behind)
      (hvalue : skipSpace behind = written ++ rest) (hwritten : Spaced value written)
      (hends : Ends rest) (hmore : Found false members rest more) :
      Found first ((name, value) :: members) s more

/-- A colon is read behind the spaces in front of it. -/
theorem reads_readColon {s rest : List Char} (h : skipSpace s = ':' :: rest) :
    Reads (readColon s) () rest := by
  unfold readColon behindSpace
  rw [reads_widen, h]
  exact reads_ok.2 ⟨rfl, rfl⟩

/-- Behind its opening quote, a member shows its name, a colon and its value. -/
theorem Member.parts {member : String × Json} {text : List Char} (h : Member Spaced member text) :
    ∃ quoted, text = '"' :: quoted ∧
      ∀ more, ∃ unread behind written, Reads (readString (quoted ++ more)) member.1 unread ∧
        Reads (readColon unread) () behind ∧ skipSpace behind = written ++ more ∧
        Spaced member.2 written := by
  obtain @⟨name, _, before, behind, written, hbefore, hbehind, hwritten⟩ := h
  refine ⟨name.toList.flatMap escapedChar ++ '"' :: (before ++ ':' :: (behind ++ written)),
    by simp [writeString], fun more => ?_⟩
  refine ⟨before ++ ':' :: (behind ++ written ++ more), behind ++ written ++ more, written, ?_,
    reads_readColon (skipSpace_append_cons hbefore rfl _), hwritten.skipSpace_eq hbehind more,
    hwritten⟩
  rw [List.append_assoc, List.cons_append, List.append_assoc, List.cons_append]
  exact reads_readString name _

/-- A member begins with a quote. -/
theorem Member.head {member : String × Json} {text : List Char} (h : Member Spaced member text) :
    ∃ c rest, text = c :: rest ∧ c = '"' := by
  obtain ⟨quoted, rfl, -⟩ := Member.parts h
  exact ⟨_, quoted, rfl, rfl⟩

/-- A quote is no space. -/
theorem isSpace_quote {c : Char} (h : c = '"') : isSpace c = false := by
  rw [h]
  rfl

/-- From where the first of them is found, the members are found one after another. -/
theorem found_of_row {members : List (String × Json)} {text : List Char}
    (hrow : Row (Member Spaced) members text) (more : List Char) {first : Bool} {s t : List Char}
    (hnext : ∃ hle, nextMember first s = .ok (.item ⟨t, hle⟩))
    (ht : '"' :: t = skipSpace (text ++ '\x7d' :: more)) : Found first members s more := by
  induction hrow generalizing first s t with
  | @last member front text after hfront hmember hafter =>
      obtain ⟨quoted, rfl, hparts⟩ := Member.parts hmember
      obtain ⟨unread, behind, written, hname, hcolon, hvalue, hwritten⟩ :=
        hparts (after ++ '\x7d' :: more)
      simp only [List.append_assoc, List.cons_append] at ht
      rw [skipSpace_append_cons hfront rfl] at ht
      obtain ⟨-, rfl⟩ := List.cons.inj ht
      exact .member hnext hname hcolon hvalue hwritten (.append hafter (.cons rfl _))
        (.close (nextMember_close (skipSpace_append_cons hafter rfl more)))
  | @cons member members front text after rest hfront hmember hafter hrest ih =>
      obtain ⟨quoted, rfl, hparts⟩ := Member.parts hmember
      obtain ⟨unread, behind, written, hname, hcolon, hvalue, hwritten⟩ :=
        hparts (after ++ ',' :: (rest ++ '\x7d' :: more))
      simp only [List.append_assoc, List.cons_append] at ht
      rw [skipSpace_append_cons hfront rfl] at ht
      obtain ⟨-, rfl⟩ := List.cons.inj ht
      have hcomma := skipSpace_append_cons hafter (c := ',') rfl (rest ++ '\x7d' :: more)
      obtain ⟨c, u, hu, rfl⟩ :=
        hrest.skipSpace_head Member.head isSpace_quote ('\x7d' :: more)
      exact .member hnext hname hcolon hvalue hwritten (.append hafter (.cons rfl _))
        (ih (nextMember_next hcomma hu) hu.symm)

/-- The members of a written object are found behind its opening bracket. -/
theorem Spaced.found {members : List (String × Json)} {text : List Char}
    (h : Spaced (.object members) text) :
    ∃ body, text = '\x7b' :: body ∧ ∀ more, Found true members (body ++ more) more := by
  cases h with
  | @emptyObject blanks hblank =>
      refine ⟨blanks ++ ['\x7d'], rfl, fun more => ?_⟩
      rw [List.append_assoc]
      exact .close (nextMember_close (skipSpace_append_cons hblank rfl more))
  | @object _ text hrow =>
      refine ⟨text ++ ['\x7d'], rfl, fun more => ?_⟩
      rw [List.append_assoc]
      obtain ⟨c, t, ht, rfl⟩ := hrow.skipSpace_head Member.head isSpace_quote ('\x7d' :: more)
      exact found_of_row hrow more (nextMember_first ht) ht.symm

/-! ### Records and maps -/

section

variable {α : Type} {record : Record α} {nesting depth : Nat}

/-- A member of an object gives the field of its name a value, which makes the change. -/
def AcceptsMember (record : Record α) (nesting : Nat) (member : String × Json)
    (change : α → α) : Prop :=
  ∃ field, record.fields.find? (fun field => field.name = member.1) = some field ∧
    Accepts field.read nesting member.2 change

/-- The members of a record are read when each is one of a field, no name comes twice and none of
the required is missing; their changes are made in turn. -/
theorem reads_readRecordMembers {members : List (String × Json)} {changes : List (α → α)}
    {first : Bool} {seen : List String} {s more : List Char} (hfound : Found first members s more)
    (hdepth : nesting < depth)
    (hmembers : List.Forall₂ (AcceptsMember record nesting) members changes)
    (hnames : (members.map Prod.fst ++ seen).Nodup)
    (hrequired : ∀ field ∈ record.fields, field.required = true →
      field.name ∈ members.map Prod.fst ++ seen) (value : α) :
    Reads (readRecordMembers record depth first seen value s)
      (changes.foldl (fun value change => change value) value) more := by
  induction hfound generalizing changes seen value with
  | @close first s more hclose =>
      obtain rfl := List.forall₂_nil_left_iff.1 hmembers
      obtain ⟨_, hclose⟩ := hclose
      have hmissing :
          (record.fields.find? fun f => f.required && !seen.contains f.name) = none := by
        refine List.find?_eq_none.2 fun field hfield hmissing => ?_
        rw [Bool.and_eq_true, Bool.not_eq_true'] at hmissing
        have hseen := List.contains_iff_mem.2 (hrequired field hfield hmissing.1)
        exact Bool.false_ne_true (hmissing.2.symm.trans hseen)
      rw [readRecordMembers, hclose]
      dsimp only
      rw [hmissing]
      exact reads_ok.2 ⟨rfl, rfl⟩
  | @member first name written members s quoted unread behind text rest more hnext hname hcolon
      hvalue hwritten hends _ ih =>
      obtain ⟨change, changes, ⟨field, hfield, hread⟩, hchanges, rfl⟩ :=
        List.forall₂_cons_left_iff.1 hmembers
      -- The name goes over from the members that are left to the names that were seen.
      rw [List.map_cons, List.cons_append, ← List.perm_middle.nodup_iff] at hnames
      have hunseen : name ∉ seen := fun h => by
        have := (List.nodup_append.1 hnames).2.1
        exact (List.nodup_cons.1 this).1 h
      have hrest := ih hchanges hnames (fun field hmem hreq => by
        have := hrequired field hmem hreq
        rw [List.map_cons, List.cons_append] at this
        exact List.perm_middle.mem_iff.2 this) (change value)
      obtain ⟨_, hnext⟩ := hnext
      obtain ⟨_, hname⟩ := hname
      obtain ⟨_, hcolon⟩ := hcolon
      obtain ⟨_, hstep⟩ := hread.reads hdepth hvalue hwritten hends
      rw [readRecordMembers, hnext]
      dsimp only
      rw [hname]
      dsimp only
      rw [hfield, if_neg (by simpa using hunseen), hcolon]
      dsimp only
      rw [hstep]
      exact reads_widen.2 hrest

/-- A record is accepted that gives each of its fields at most once, and those that are required. -/
theorem accepts_record {members : List (String × Json)} {changes : List (α → α)}
    (hmembers : List.Forall₂ (AcceptsMember record nesting) members changes)
    (hnames : (members.map Prod.fst).Nodup)
    (hrequired : ∀ field ∈ record.fields, field.required = true →
      field.name ∈ members.map Prod.fst) :
    Accepts (readRecord record) (nesting + 1) (.object members)
      (changes.foldl (fun value change => change value) record.blank) := by
  intro depth front text more hdepth hfront htext _
  obtain ⟨body, rfl, hfound⟩ := htext.found
  rw [List.append_assoc, List.cons_append]
  refine (reads_dispatch (skipSpace_append_cons hfront rfl _)).2 ?_
  rw [if_pos rfl, if_neg (by omega)]
  refine reads_settleStep.2 (reads_cons.2 ?_)
  exact reads_readRecordMembers (hfound more) (by omega) hmembers (by rwa [List.append_nil])
    (by rwa [List.append_nil]) record.blank

end

section

variable {κ α : Type} {key : String → Except Cause κ} {item : Reader α} {nesting depth : Nat}
  {insert : κ → α → List (κ × α) → List (κ × α)}

/-- The members of a map are read as its entries, which are put in one after another. -/
theorem reads_readMapMembers {members : List (String × Json)} {entries : List (κ × α)}
    {first : Bool} {s more : List Char} (hfound : Found first members s more)
    (hdepth : nesting < depth)
    (hmembers : List.Forall₂ (fun member entry => key member.1 = .ok entry.1 ∧
      Accepts item nesting member.2 entry.2) members entries) (read : List (κ × α)) :
    Reads (readMapMembers key insert item depth first read s)
      (entries.foldl (fun read entry => insert entry.1 entry.2 read) read) more := by
  induction hfound generalizing entries read with
  | @close first s more hclose =>
      obtain rfl := List.forall₂_nil_left_iff.1 hmembers
      obtain ⟨_, hclose⟩ := hclose
      rw [readMapMembers, hclose]
      exact reads_ok.2 ⟨rfl, rfl⟩
  | @member first name written members s quoted unread behind text rest more hnext hname hcolon
      hvalue hwritten hends _ ih =>
      obtain ⟨entry, entries, ⟨hkey, hread⟩, hentries, rfl⟩ :=
        List.forall₂_cons_left_iff.1 hmembers
      obtain ⟨_, hnext⟩ := hnext
      obtain ⟨_, hname⟩ := hname
      obtain ⟨_, hcolon⟩ := hcolon
      obtain ⟨_, hstep⟩ := hread.reads hdepth hvalue hwritten hends
      rw [readMapMembers, hnext]
      dsimp only
      rw [hname]
      dsimp only
      rw [hkey]
      dsimp only
      rw [hcolon]
      dsimp only
      rw [hstep]
      exact reads_widen.2 (ih hentries (insert entry.1 entry.2 read))

/-- An object is accepted as a map when its members are entries. -/
theorem accepts_map {members : List (String × Json)} {entries : List (κ × α)}
    (hmembers : List.Forall₂ (fun member entry => key member.1 = .ok entry.1 ∧
      Accepts item nesting member.2 entry.2) members entries) :
    Accepts (readMap key insert item) (nesting + 1) (.object members)
      (entries.foldl (fun read entry => insert entry.1 entry.2 read) []) := by
  intro depth front text more hdepth hfront htext _
  obtain ⟨body, rfl, hfound⟩ := htext.found
  rw [List.append_assoc, List.cons_append]
  refine (reads_dispatch (skipSpace_append_cons hfront rfl _)).2 ?_
  rw [if_pos rfl, if_neg (by omega)]
  exact reads_settleStep.2 (reads_cons.2
    (reads_readMapMembers (hfound more) (by omega) hmembers []))

end

end Studio.Json
