import Studio.Proofs.Json.Accepting

/-!
# What readers yield

`Yields reader P` says that whatever a reader returns, from any text, has the property `P`. A record
has a property that its value without any fields has, and that every field keeps
(`yields_readRecord`).
-/

namespace Studio.Json

/-- Whatever the reader returns has the property. -/
def Yields {α : Type} (reader : Reader α) (P : α → Prop) : Prop :=
  ∀ ⦃depth : Nat⦄ ⦃s rest : List Char⦄ ⦃a : α⦄, Reads (reader depth s) a rest → P a

section

variable {α β : Type} {reader : Reader α} {P : α → Prop}

/-- A reader yields something. -/
theorem yields_true (reader : Reader α) : Yields reader fun _ => True :=
  fun _ _ _ _ _ => trivial

/-- A reader whose result is changed yields the changed results. -/
theorem Yields.map {Q : β → Prop} {f : α → β} (h : Yields reader P) (hf : ∀ a, P a → Q (f a)) :
    Yields (reader.map f) Q := by
  intro depth s rest b hb
  rw [Reader.map] at hb
  split at hb
  · exact absurd hb not_reads_error
  · next a r hread =>
    obtain ⟨rfl, -⟩ := reads_ok.1 hb
    exact hf a (h ⟨r.property, hread⟩)

/-- What a reader yields holds of what a text is read as. -/
theorem Yields.readText (h : Yields reader P) {source : List Char} {a : α}
    (ha : readText reader source = .ok a) : P a := by
  rw [Json.readText] at ha
  split at ha
  · cases ha
  · next value r hread =>
    split at ha
    · obtain rfl := Except.ok.inj ha
      exact h ⟨r.property, hread⟩
    · cases ha

/-- A step behind blanks was one on the first character that is none. -/
theorem exists_of_reads_dispatch {s rest : List Char} {a : α}
    {step : (c : Char) → (rest : List Char) → Step (c :: rest) α}
    (h : Reads (dispatch s step) a rest) : ∃ c t, Reads (step c t) a rest := by
  unfold dispatch behindSpace at h
  rw [reads_widen] at h
  generalize skipSpace s = text at h
  cases text with
  | nil => exact absurd h not_reads_error
  | cons c t => exact ⟨c, t, h⟩

/-- A whole number that is read is below the bound. -/
theorem yields_readNat (title : String) (bound : Nat) :
    Yields (readNat title bound) (· < bound) := by
  intro depth s rest n h
  obtain ⟨c, t, h⟩ := exists_of_reads_dispatch h
  split at h
  · dsimp only at h
    split at h
    · exact absurd h not_reads_error
    · split at h
      · next hn =>
        obtain ⟨rfl, -⟩ := reads_ok.1 h
        simp only [Bool.and_eq_true, decide_eq_true_eq] at hn
        omega
      · exact absurd h not_reads_error
    · exact absurd h not_reads_error
  · exact absurd h not_reads_error

/-- A word is read as what it stands for. -/
theorem eq_of_reads_wordAs {a b : α} {letters s rest : List Char} {first : Char}
    (h : Reads (wordAs a letters first s) b rest) : b = a := by
  unfold wordAs at h
  split at h
  · exact (reads_ok.1 h).1
  · exact absurd h not_reads_error

/-- What is read where nothing may stand is nothing, or what the reader yields. -/
theorem yields_readOpt (h : Yields reader P) :
    Yields (readOpt reader) fun o => ∀ a, o = some a → P a := by
  intro depth s rest o ho
  unfold readOpt at ho
  split at ho
  · next t hnull =>
    unfold behindSpace at ho
    rw [reads_widen, reads_cast hnull] at ho
    obtain rfl := eq_of_reads_wordAs ho
    exact fun a ha => nomatch ha
  · have hsome : Yields (reader.map some) fun o => ∀ a, o = some a → P a :=
      h.map fun a ha b hb => Option.some.inj hb ▸ ha
    exact hsome ho

end

/-! ### Records -/

section

variable {α : Type} {record : Record α} {P : α → Prop}

/-- The members of a record keep what the changes of its fields do. -/
theorem readRecordMembers_elim (hfields : ∀ field ∈ record.fields,
      Yields field.read fun change => ∀ a, P a → P (change a))
    {depth : Nat} {first : Bool} {seen : List String} {value a : α} {s rest : List Char}
    (hvalue : P value) (h : Reads (readRecordMembers record depth first seen value s) a rest) :
    P a := by
  rw [readRecordMembers] at h
  split at h
  · exact absurd h not_reads_error
  · split at h
    · exact absurd h not_reads_error
    · exact (reads_ok.1 h).1 ▸ hvalue
  · next r hnext =>
    split at h
    · exact absurd h not_reads_error
    · next key rk hkey =>
      dsimp only at h
      split at h
      · exact absurd h not_reads_error
      · split at h
        · exact absurd h not_reads_error
        · next rc hcolon =>
          split at h
          · exact absurd h not_reads_error
          · next change r' hchange =>
            rw [reads_widen] at h
            refine readRecordMembers_elim hfields ?_ h
            -- The value of an unknown member is skipped, which changes nothing.
            split at hchange
            · next field hfield =>
              have hmem := List.mem_of_find?_eq_some hfield
              exact hfields field hmem ⟨r'.property, hchange⟩ value hvalue
            · split at hchange
              · cases hchange
              · obtain ⟨rfl, -⟩ := Prod.mk.inj (Except.ok.inj hchange)
                exact hvalue
termination_by s.length

/-- The list of the fields of a record keeps what the changes of the fields do. -/
theorem readRecordItems_elim {fields : List (Field α)} (hfields : ∀ field ∈ fields,
      Yields field.read fun change => ∀ a, P a → P (change a))
    {depth index : Nat} {first : Bool} {value a : α} {s rest : List Char}
    (hvalue : P value)
    (h : Reads (readRecordItems record depth index first value fields s) a rest) : P a := by
  induction fields generalizing index first value s with
  | nil =>
      unfold readRecordItems behindSpace at h
      rw [reads_widen] at h
      generalize skipSpace s = text at h
      split at h
      · exact absurd h not_reads_error
      · exact (reads_ok.1 h).1 ▸ hvalue
      · split at h <;> exact absurd h not_reads_error
      · exact absurd h not_reads_error
  | cons field fields ih =>
      obtain ⟨hfield, hrest⟩ := List.forall_mem_cons.1 hfields
      rw [readRecordItems] at h
      split at h
      · exact absurd h not_reads_error
      · split at h
        · exact absurd h not_reads_error
        · exact (reads_ok.1 h).1 ▸ hvalue
      · split at h
        · exact absurd h not_reads_error
        · next change r' hchange =>
          rw [reads_widen] at h
          exact ih hrest (hfield ⟨r'.property, hchange⟩ value hvalue) h

/-- A record has a property that it has without any fields, and that every field keeps. -/
theorem yields_readRecord (hblank : P record.blank) (hfields : ∀ field ∈ record.fields,
    Yields field.read fun change => ∀ a, P a → P (change a)) : Yields (readRecord record) P := by
  intro depth s rest a h
  obtain ⟨c, t, h⟩ := exists_of_reads_dispatch h
  split at h
  · split at h
    · exact absurd h not_reads_error
    · rw [reads_settleStep, reads_cons] at h
      exact readRecordMembers_elim hfields hblank h
  · split at h
    · split at h
      · exact absurd h not_reads_error
      · rw [reads_settleStep, reads_cons] at h
        exact readRecordItems_elim hfields hblank h
    · exact absurd h not_reads_error

end

end Studio.Json
