import Studio.Proofs.Grammar.Phrases
import Studio.Script.Parser

/-!
# Grammars with meanings

A form is a phrase together with what its texts say: where the phrase puts parts together, the form
puts together what they say. `Form.Expresses` relates texts to what they say, and `Form.phrase`
forgets it. Whatever text the phrase allows, the form reads it as something
(`Form.exists_meaning`). The forms for arguments, calls and scripts stand at the end.
-/

namespace Studio.Grammar

open Studio.Number (isDigit)
open Studio.Script (Argument Call Program Statement Value)

/-- A phrase whose texts say something. -/
inductive Form (Name : Type) : Type → Type 1 where
  /-- A phrase without rules; what it says depends on its text alone. -/
  | whole {α : Type} (phrase : Phrase Name) (value : List Char → α) : Form Name α
  /-- A rule, with the form that it stands for. -/
  | rule {α : Type} (name : Name) (form : Form Name α) : Form Name α
  | seq {α β γ : Type} (join : α → β → γ) (first : Form Name α) (second : Form Name β) :
      Form Name γ
  | alt {α : Type} (first second : Form Name α) : Form Name α
  | optional {α : Type} (body : Form Name α) : Form Name (Option α)
  /-- Any number of times. -/
  | many {α : Type} (body : Form Name α) : Form Name (List α)
  /-- At least once. -/
  | several {α : Type} (body : Form Name α) : Form Name (List α)
  | map {α β : Type} (f : α → β) (body : Form Name α) : Form Name β

/-- Texts one behind another that each say something. -/
inductive Repeated {α : Type} (means : List Char → α → Prop) : List Char → List α → Prop
  | nil : Repeated means [] []
  | cons {s t : List Char} {a : α} {rest : List α} (h : means s a) (hrest : Repeated means t rest) :
      Repeated means (s ++ t) (a :: rest)

/-- Whether a phrase contains no rules. -/
def Phrase.isPlain {Name : Type} : Phrase Name → Bool
  | .text _ | .chars _ => true
  | .rule _ => false
  | .regex body | .optional body | .many body | .several body => body.isPlain
  | .seq p q | .alt p q => p.isPlain && q.isPlain

namespace Form

variable {Name : Type} {α β : Type}

/-- The phrase of a form. -/
def phrase {α : Type} : Form Name α → Phrase Name
  | whole phrase _ => phrase
  | rule name _ => .rule name
  | seq _ p q => .seq p.phrase q.phrase
  | alt p q => .alt p.phrase q.phrase
  | optional p => .optional p.phrase
  | many p => .many p.phrase
  | several p => .several p.phrase
  | map _ p => p.phrase

/-- The phrase that a rule stands for. -/
def body {α : Type} : Form Name α → Phrase Name
  | rule _ form => form.phrase
  | form => form.phrase

/-- A text says something by a form, when every rule is held to a condition on its texts. -/
def Expresses (holds : Name → List Char → Bool) {α : Type} :
    Form Name α → List Char → α → Prop
  | whole phrase value, s, a => phrase.Denotes (fun _ _ => False) s ∧ a = value s
  | rule name p, s, a => holds name s = true ∧ p.Expresses holds s a
  | seq join p q, s, c => ∃ t u a b, s = t ++ u ∧ p.Expresses holds t a ∧ q.Expresses holds u b ∧
      c = join a b
  | alt p q, s, a => p.Expresses holds s a ∨ q.Expresses holds s a
  | optional p, s, found => (s = [] ∧ found = none) ∨ ∃ a, p.Expresses holds s a ∧ found = some a
  | many p, s, items => Repeated (p.Expresses holds) s items
  | several p, s, items => items ≠ [] ∧ Repeated (p.Expresses holds) s items
  | map f p, s, b => ∃ a, p.Expresses holds s a ∧ b = f a

/-- Every rule in the form stands for what it stands for in a grammar. -/
def Fits (rules : Name → Phrase Name) {α : Type} : Form Name α → Prop
  | whole phrase _ => phrase.isPlain = true
  | rule name p => rules name = p.phrase ∧ p.Fits rules
  | seq _ p q => p.Fits rules ∧ q.Fits rules
  | alt p q => p.Fits rules ∧ q.Fits rules
  | optional p | many p | several p => p.Fits rules
  | map _ p => p.Fits rules

end Form

/-! ### Whatever is allowed says something -/

section

variable {Name : Type} {rules : Name → Phrase Name} {holds : Name → List Char → Bool}

/-- Without rules, what a phrase allows does not depend on the grammar. -/
theorem Derives.denotes_of_isPlain {p : Phrase Name} {s : List Char}
    (h : Derives rules holds p s) (hplain : p.isPlain = true) (means : Name → List Char → Prop) :
    p.Denotes means s := by
  induction h with
  | text word => exact rfl
  | chars hc => exact ⟨_, hc, rfl⟩
  | rule => cases hplain
  | regex _ ih => exact ih hplain
  | seq _ _ ihp ihq =>
      obtain ⟨hp, hq⟩ := Bool.and_eq_true_iff.1 hplain
      exact ⟨_, _, ihp hp, ihq hq, rfl⟩
  | first _ _ ih => exact .inl (ih (Bool.and_eq_true_iff.1 hplain).1)
  | second _ _ ih => exact .inr (ih (Bool.and_eq_true_iff.1 hplain).2)
  | absent => exact .inl rfl
  | present _ ih => exact .inr (ih hplain)
  | done => exact ⟨[], by simp, rfl⟩
  | more _ _ ih ihrest =>
      obtain ⟨parts, hparts, rfl⟩ := ihrest hplain
      exact ⟨_ :: parts, List.forall_mem_cons.2 ⟨ih hplain, hparts⟩, rfl⟩
  | several _ _ ih ihrest =>
      obtain ⟨parts, hparts, rfl⟩ := ihrest hplain
      exact ⟨_, parts, ih hplain, hparts, rfl⟩

/-- By induction on the derivation of what is repeated. -/
theorem Derives.exists_repeated {α : Type} {p : Phrase Name} {s : List Char}
    {means : List Char → α → Prop} (hmeans : ∀ t, Derives rules holds p t → ∃ a, means t a)
    (h : Derives rules holds (.many p) s) : ∃ items, Repeated means s items := by
  generalize hq : Phrase.many p = q at h
  induction h with
  | done => exact ⟨[], .nil⟩
  | more hfirst _ _ ih =>
      obtain rfl := Phrase.many.inj hq
      obtain ⟨a, ha⟩ := hmeans _ hfirst
      obtain ⟨items, hitems⟩ := ih rfl
      exact ⟨a :: items, .cons ha hitems⟩
  | _ => cases hq

/-- What the phrase of a form allows says something by the form. -/
theorem Form.exists_meaning {α : Type} {form : Form Name α} (hfits : form.Fits rules)
    {s : List Char} (h : Derives rules holds form.phrase s) : ∃ a, form.Expresses holds s a := by
  induction form generalizing s with
  | whole phrase value => exact ⟨value s, h.denotes_of_isPlain hfits _, rfl⟩
  | rule name p ih =>
      obtain ⟨hrule, hp⟩ := hfits
      cases h with
      | rule h hholds =>
          rw [hrule] at h
          obtain ⟨a, ha⟩ := ih hp h
          exact ⟨a, hholds, ha⟩
  | seq join p q ihp ihq =>
      cases h with
      | seq hp hq =>
          obtain ⟨a, ha⟩ := ihp hfits.1 hp
          obtain ⟨b, hb⟩ := ihq hfits.2 hq
          exact ⟨join a b, _, _, a, b, rfl, ha, hb, rfl⟩
  | alt p q ihp ihq =>
      cases h with
      | first _ h => exact (ihp hfits.1 h).imp fun _ => .inl
      | second _ h => exact (ihq hfits.2 h).imp fun _ => .inr
  | optional p ih =>
      cases h with
      | absent => exact ⟨none, .inl ⟨rfl, rfl⟩⟩
      | present h =>
          obtain ⟨a, ha⟩ := ih hfits h
          exact ⟨some a, .inr ⟨a, ha, rfl⟩⟩
  | many p ih => exact h.exists_repeated fun _ => ih hfits
  | several p ih =>
      cases h with
      | several hfirst hrest =>
          obtain ⟨a, ha⟩ := ih hfits hfirst
          obtain ⟨items, hitems⟩ := hrest.exists_repeated fun _ => ih hfits
          exact ⟨a :: items, List.cons_ne_nil _ _, .cons ha hitems⟩
  | map f p ih =>
      obtain ⟨a, ha⟩ := ih hfits h
      exact ⟨f a, a, ha, rfl⟩

end

/-! ### Forms of scripts -/

namespace Form

open Phrase (sequence)

variable {Name : Type} {α : Type}

/-- A word of the language, which says nothing by itself. -/
def word (text : String) : Form Name Unit :=
  whole (.text text) fun _ => ()

/-- A form behind a word. -/
def behind (text : String) (form : Form Name α) : Form Name α :=
  seq (fun _ a => a) (word text) form

/-- A form in front of a word. -/
def before (form : Form Name α) (text : String) : Form Name α :=
  seq (fun a _ => a) form (word text)

/-- Blanks, which are a rule of their own. -/
def space (name : Name) : Form Name Unit :=
  rule name (whole (.several " ") fun _ => ())

/-- A form behind a comma and perhaps blanks. -/
def further (blanks : Name) (form : Form Name α) : Form Name α :=
  behind "," (seq (fun _ a => a) (optional (space blanks)) form)

/-- A form, and any more of it behind commas. -/
def listed (blanks : Name) (form : Form Name α) : Form Name (List α) :=
  seq List.cons form (many (further blanks form))

/-- The number that digits are, and further digits behind a point. -/
def numberOf (s : List Char) : Value :=
  .number (Script.ofDecimal false (s.takeWhile isDigit) (s.dropWhile isDigit).tail)

/-- The text between two quotes. -/
def textOf (s : List Char) : Value :=
  .string (String.ofList s.tail.dropLast)

/-- Digits, which are a rule of their own. -/
def integer (name : Name) : Form Name Value :=
  rule name (whole (.regex (.several (.chars .digit))) numberOf)

/-- Digits, and perhaps further ones behind a point, which are a rule of their own. -/
def decimal (name : Name) : Form Name Value :=
  rule name (whole (.regex (sequence [.several (.chars .digit),
    .optional (sequence [".", .several (.chars .digit)])])) numberOf)

/-- An argument with a name. -/
def given (key : String) (value : Form Name Value) : Form Name Argument :=
  behind key (behind "=" (map (fun v => ⟨some key, v⟩) value))

/-- An argument whose name may be left out. -/
def labelled (key : String) (value : Form Name Value) : Form Name Argument :=
  seq (fun label v => ⟨label, v⟩) (optional (map (fun _ => key) (before (word key) "="))) value

/-- Brackets around the arguments of a call, behind the word that is written for its name. -/
def called (written name : String) (arguments : Form Name (List Argument)) : Form Name Call :=
  map (fun list => ⟨name, list⟩) (behind written (behind "(" (before arguments ")")))

/-- Square brackets around values. -/
def array (blanks : Name) (value : Form Name Value) : Form Name Value :=
  map .array (behind "[" (before (listed blanks value) "]"))

/-- A call that stands for a value. -/
def nested (call : Form Name Call) : Form Name Value :=
  map (Value.invocation none) call

/-- A call that is a statement. -/
def single (call : Form Name Call) : Form Name Statement :=
  map (fun first => ⟨first, []⟩) call

/-- Statements with line ends between them. -/
def script (start lineEnds : Name) (statement : Form Name Statement) : Form Name Program :=
  rule start (seq List.cons statement (many (seq (fun _ next => next)
    (rule lineEnds (whole (.regex (.several "\n")) fun _ => ())) statement)))

end Form

end Studio.Grammar
