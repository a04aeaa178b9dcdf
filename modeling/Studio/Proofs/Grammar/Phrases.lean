import Mathlib.Data.List.Basic
import Studio.Number.Reading
import Studio.Proofs.Text.Cutting

/-!
# Grammars and the texts they allow

A grammar gives every rule a phrase. `Derives` says which texts a phrase allows: nothing stands
between its parts but what the grammar puts there. A rule may be held to a condition on its texts,
so that parts of a language can be named. What all texts of the rules have in common is shown rule
by rule (`Derives.denotes`); `derives_of_accepts` finds a derivation. `Phrase.written` writes a
phrase in the notation that grammars have in prompts.
-/

namespace Studio.Grammar

/-- A class of characters. -/
inductive CharClass where
  /-- The ten digits. -/
  | digit
  /-- The characters of some ranges. -/
  | among (ranges : List (Char × Char))
  /-- Every character but one. -/
  | except (c : Char)

/-- Whether a character belongs to a class. -/
def CharClass.contains : CharClass → Char → Bool
  | digit, c => Number.isDigit c
  | among ranges, c => ranges.any fun (first, last) => first ≤ c && c ≤ last
  | except d, c => c != d

/-- The right-hand side of a rule, over the names of rules. -/
inductive Phrase (Name : Type) where
  | text (word : String)
  | chars (kind : CharClass)
  | rule (name : Name)
  /-- A regular expression; what it allows is what the phrase in it allows. -/
  | regex (body : Phrase Name)
  | seq (first second : Phrase Name)
  | alt (first second : Phrase Name)
  | optional (body : Phrase Name)
  /-- Any number of times. -/
  | many (body : Phrase Name)
  /-- At least once. -/
  | several (body : Phrase Name)

namespace Phrase

variable {Name : Type}

instance : Coe String (Phrase Name) := ⟨text⟩

/-- Phrases one behind another. -/
def sequence : List (Phrase Name) → Phrase Name
  | [] => text ""
  | [phrase] => phrase
  | phrase :: rest => seq phrase (sequence rest)

/-- One of several phrases. -/
def choice : List (Phrase Name) → Phrase Name
  | [] => text ""
  | [phrase] => phrase
  | phrase :: rest => alt phrase (choice rest)

end Phrase

/-- A phrase allows a text: every rule in the derivation derives a text of which the condition of
the rule holds. -/
inductive Derives {Name : Type} (rules : Name → Phrase Name) (holds : Name → List Char → Bool) :
    Phrase Name → List Char → Prop where
  | text (word : String) : Derives rules holds (.text word) word.toList
  | chars {kind : CharClass} {c : Char} (h : kind.contains c = true) :
      Derives rules holds (.chars kind) [c]
  | rule {name : Name} {s : List Char} (h : Derives rules holds (rules name) s)
      (hholds : holds name s = true) : Derives rules holds (.rule name) s
  | regex {body : Phrase Name} {s : List Char} (h : Derives rules holds body s) :
      Derives rules holds (.regex body) s
  | seq {p q : Phrase Name} {s t : List Char} (hp : Derives rules holds p s)
      (hq : Derives rules holds q t) : Derives rules holds (.seq p q) (s ++ t)
  | first {p : Phrase Name} (q : Phrase Name) {s : List Char} (h : Derives rules holds p s) :
      Derives rules holds (.alt p q) s
  | second (p : Phrase Name) {q : Phrase Name} {s : List Char} (h : Derives rules holds q s) :
      Derives rules holds (.alt p q) s
  | absent (p : Phrase Name) : Derives rules holds (.optional p) []
  | present {p : Phrase Name} {s : List Char} (h : Derives rules holds p s) :
      Derives rules holds (.optional p) s
  | done (p : Phrase Name) : Derives rules holds (.many p) []
  | more {p : Phrase Name} {s t : List Char} (h : Derives rules holds p s)
      (hrest : Derives rules holds (.many p) t) : Derives rules holds (.many p) (s ++ t)
  | several {p : Phrase Name} {s t : List Char} (h : Derives rules holds p s)
      (hrest : Derives rules holds (.many p) t) : Derives rules holds (.several p) (s ++ t)

/-- What a phrase allows when each rule stands for some texts. -/
def Phrase.Denotes {Name : Type} (means : Name → List Char → Prop) :
    Phrase Name → List Char → Prop
  | .text word, s => s = word.toList
  | .chars kind, s => ∃ c, kind.contains c = true ∧ s = [c]
  | .rule name, s => means name s
  | .regex body, s => body.Denotes means s
  | .seq p q, s => ∃ t u, p.Denotes means t ∧ q.Denotes means u ∧ s = t ++ u
  | .alt p q, s => p.Denotes means s ∨ q.Denotes means s
  | .optional body, s => s = [] ∨ body.Denotes means s
  | .many body, s => ∃ parts : List (List Char), (∀ part ∈ parts, body.Denotes means part) ∧
      s = parts.flatten
  | .several body, s => ∃ (part : List Char) (parts : List (List Char)), body.Denotes means part ∧
      (∀ part ∈ parts, body.Denotes means part) ∧ s = part ++ parts.flatten

section

variable {Name : Type} {rules : Name → Phrase Name} {holds : Name → List Char → Bool}
  {p : Phrase Name} {s : List Char}

/-! ### What derivations preserve -/

namespace Phrase

variable {means : Name → List Char → Prop}

/-- A row of characters of a class denotes the texts of such characters. -/
theorem denotes_many_chars {kind : CharClass} :
    (many (chars kind) : Phrase Name).Denotes means s ↔ ∀ c ∈ s, kind.contains c = true := by
  constructor
  · rintro ⟨parts, hparts, rfl⟩ c hc
    obtain ⟨part, hpart, hc⟩ := List.mem_flatten.1 hc
    obtain ⟨d, hd, rfl⟩ := hparts part hpart
    rwa [List.mem_singleton.1 hc]
  · intro h
    refine ⟨s.map fun c => [c], ?_, by simp [← List.flatMap_def]⟩
    intro part hpart
    obtain ⟨c, hc, rfl⟩ := List.mem_map.1 hpart
    exact ⟨c, h c hc, rfl⟩

/-- A row with one part at least is a part with a row behind it. -/
theorem denotes_several {body : Phrase Name} :
    (several body).Denotes means s ↔ (seq body (many body)).Denotes means s := by
  constructor
  · rintro ⟨part, parts, hpart, hparts, rfl⟩
    exact ⟨part, _, hpart, ⟨parts, hparts, rfl⟩, rfl⟩
  · rintro ⟨part, _, hpart, ⟨parts, hparts, rfl⟩, rfl⟩
    exact ⟨part, parts, hpart, hparts, rfl⟩

/-- A row of characters with one at least denotes the texts of such characters that are not
empty. -/
theorem denotes_several_chars {kind : CharClass} :
    (several (chars kind) : Phrase Name).Denotes means s ↔
      s ≠ [] ∧ ∀ c ∈ s, kind.contains c = true := by
  rw [denotes_several]
  constructor
  · rintro ⟨_, u, ⟨c, hc, rfl⟩, hrest, rfl⟩
    exact ⟨List.cons_ne_nil c u, List.forall_mem_cons.2 ⟨hc, denotes_many_chars.1 hrest⟩⟩
  · rintro ⟨hne, h⟩
    cases s with
    | nil => exact absurd rfl hne
    | cons c rest =>
        obtain ⟨hc, hrest⟩ := List.forall_mem_cons.1 h
        exact ⟨[c], rest, ⟨c, hc, rfl⟩, denotes_many_chars.2 hrest, rfl⟩

/-- Whether a character stands nowhere in the words and the classes of a phrase without rules. -/
def avoids (c : Char) : Phrase Name → Bool
  | text word => !word.toList.contains c
  | chars kind => !kind.contains c
  | rule _ => false
  | regex body | optional body | many body | several body => body.avoids c
  | seq p q | alt p q => p.avoids c && q.avoids c

/-- A phrase that avoids a character has it in none of its texts. -/
theorem not_mem_of_avoids {c : Char} (havoids : p.avoids c = true) (h : p.Denotes means s) :
    c ∉ s := by
  induction p generalizing s with
  | text word =>
      obtain rfl := h
      simpa [avoids] using havoids
  | chars kind =>
      obtain ⟨d, hd, rfl⟩ := h
      rw [List.mem_singleton]
      rintro rfl
      simp [avoids, hd] at havoids
  | rule => cases havoids
  | regex _ ih => exact ih havoids h
  | seq p q ihp ihq =>
      obtain ⟨hp, hq⟩ := Bool.and_eq_true_iff.1 havoids
      obtain ⟨t, u, ht, hu, rfl⟩ := h
      exact List.not_mem_append (ihp hp ht) (ihq hq hu)
  | alt p q ihp ihq =>
      obtain ⟨hp, hq⟩ := Bool.and_eq_true_iff.1 havoids
      exact h.elim (ihp hp) (ihq hq)
  | optional _ ih =>
      rcases h with rfl | h
      · exact List.not_mem_nil
      · exact ih havoids h
  | many _ ih =>
      obtain ⟨parts, hparts, rfl⟩ := h
      simpa using fun part hpart => ih havoids (hparts part hpart)
  | several _ ih =>
      obtain ⟨part, parts, hpart, hparts, rfl⟩ := h
      refine List.not_mem_append (ih havoids hpart) ?_
      simpa using fun part hpart => ih havoids (hparts part hpart)

/-- One character any number of times, but at least once. -/
theorem eq_of_denotes_several {word : String} {c : Char} (hword : word.toList = [c])
    (h : (several (text word) : Phrase Name).Denotes means s) : s ≠ [] ∧ ∀ d ∈ s, d = c := by
  obtain ⟨part, parts, hpart, hparts, rfl⟩ := h
  obtain rfl : part = [c] := hword ▸ hpart
  refine ⟨by simp, ?_⟩
  intro d hd
  rcases List.mem_append.1 hd with hd | hd
  · exact List.mem_singleton.1 hd
  · obtain ⟨other, hother, hd⟩ := List.mem_flatten.1 hd
    obtain rfl : other = [c] := hword ▸ hparts other hother
    exact List.mem_singleton.1 hd

end Phrase

/-! ### Finding derivations -/

/-- What may be left of a text behind a phrase, as far as a number of steps shows. -/
def rests (rules : Name → Phrase Name) (holds : Name → List Char → Bool) :
    Nat → Phrase Name → List Char → List (List Char)
  | 0, _, _ => []
  | steps + 1, phrase, s =>
    match phrase with
    | .text word => (Text.dropStart? word.toList s).toList
    | .chars kind =>
      match s with
      | c :: rest => if kind.contains c then [rest] else []
      | [] => []
    | .rule name =>
      (rests rules holds steps (rules name) s).filter fun rest =>
        holds name (s.take (s.length - rest.length))
    | .regex body => rests rules holds steps body s
    | .seq p q => (rests rules holds steps p s).flatMap (rests rules holds steps q)
    | .alt p q => rests rules holds steps p s ++ rests rules holds steps q s
    | .optional body => s :: rests rules holds steps body s
    | .many body =>
      s :: (rests rules holds steps body s).flatMap (rests rules holds steps (.many body))
    | .several body =>
      (rests rules holds steps body s).flatMap (rests rules holds steps (.many body))

/-- Whether a number of steps shows that a phrase allows a text. -/
def accepts (rules : Name → Phrase Name) (holds : Name → List Char → Bool) (steps : Nat)
    (phrase : Phrase Name) (s : List Char) : Bool :=
  (rests rules holds steps phrase s).any List.isEmpty

/-- What is in front of a rest is allowed by the phrase. -/
theorem derives_of_mem_rests {steps : Nat} {rest : List Char}
    (h : rest ∈ rests rules holds steps p s) : ∃ t, Derives rules holds p t ∧ s = t ++ rest := by
  induction steps generalizing p s rest with
  | zero => simp [rests] at h
  | succ steps ih =>
      cases p with
      | text word =>
          rw [rests, Option.mem_toList] at h
          exact ⟨_, .text word, Text.append_of_dropStart? h⟩
      | chars kind =>
          cases s with
          | nil => simp [rests] at h
          | cons c tail =>
              simp only [rests] at h
              split at h
              · next hc =>
                rw [List.mem_singleton.1 h]
                exact ⟨[c], .chars hc, rfl⟩
              · simp at h
      | rule name =>
          obtain ⟨h, hholds⟩ := List.mem_filter.1 h
          obtain ⟨t, ht, rfl⟩ := ih h
          rw [List.length_append, Nat.add_sub_cancel, List.take_left'  rfl] at hholds
          exact ⟨t, .rule ht hholds, rfl⟩
      | regex body =>
          obtain ⟨t, ht, rfl⟩ := ih h
          exact ⟨t, .regex ht, rfl⟩
      | seq p q =>
          obtain ⟨middle, hp, hq⟩ := List.mem_flatMap.1 h
          obtain ⟨t, ht, rfl⟩ := ih hp
          obtain ⟨u, hu, rfl⟩ := ih hq
          exact ⟨t ++ u, .seq ht hu, (List.append_assoc t u rest).symm⟩
      | alt p q =>
          rcases List.mem_append.1 h with h | h
          · obtain ⟨t, ht, rfl⟩ := ih h
            exact ⟨t, .first q ht, rfl⟩
          · obtain ⟨t, ht, rfl⟩ := ih h
            exact ⟨t, .second p ht, rfl⟩
      | optional body =>
          rcases List.mem_cons.1 h with rfl | h
          · exact ⟨[], .absent body, rfl⟩
          · obtain ⟨t, ht, rfl⟩ := ih h
            exact ⟨t, .present ht, rfl⟩
      | many body =>
          rcases List.mem_cons.1 h with rfl | h
          · exact ⟨[], .done body, rfl⟩
          · obtain ⟨middle, hfirst, hrest⟩ := List.mem_flatMap.1 h
            obtain ⟨t, ht, rfl⟩ := ih hfirst
            obtain ⟨u, hu, rfl⟩ := ih hrest
            exact ⟨t ++ u, .more ht hu, (List.append_assoc t u rest).symm⟩
      | several body =>
          obtain ⟨middle, hfirst, hrest⟩ := List.mem_flatMap.1 h
          obtain ⟨t, ht, rfl⟩ := ih hfirst
          obtain ⟨u, hu, rfl⟩ := ih hrest
          exact ⟨t ++ u, .several ht hu, (List.append_assoc t u rest).symm⟩

/-- A text that is accepted in some steps is derived. -/
theorem derives_of_accepts (steps : Nat) (h : accepts rules holds steps p s = true) :
    Derives rules holds p s := by
  obtain ⟨rest, hrest, hempty⟩ := List.any_eq_true.1 h
  obtain ⟨t, ht, rfl⟩ := derives_of_mem_rests hrest
  rwa [List.isEmpty_iff.1 hempty, List.append_nil]

end

/-! ### Notation -/

/-- A character class in a regular expression. -/
def CharClass.written : CharClass → List Char
  | digit => ['\\', 'd']
  | among ranges => '[' :: ranges.flatMap (fun (first, last) =>
      if first ≠ last then [first, '-', last]
      else if first = '-' then ['\\', first]
      else [first]) ++ [']']
  | except c => ['[', '^', c, ']']

/-- A character of a regular expression that stands for itself. -/
def escaped (c : Char) : List Char :=
  if c = '\n' then ['\\', 'n']
  else if c = '.' || c = '+' || c = '/' then ['\\', c]
  else [c]

/-- A character of a word between quotes. -/
def escapedQuote (c : Char) : List Char :=
  if c = '"' then ['\\', c] else [c]

namespace Phrase

variable {Name : Type}

/-- Whether a phrase needs no brackets in front of a sign for repetition. -/
def isAtom : Phrase Name → Bool
  | text _ | chars _ | rule _ => true
  | _ => false

/-- Whether a phrase is a choice of two. -/
def isAlt : Phrase Name → Bool
  | alt _ _ => true
  | _ => false

/-- Brackets around what is written. -/
def bracketed (brackets : Bool) (written : List Char) : List Char :=
  if brackets then '(' :: written ++ [')'] else written

/-- A phrase in the notation of grammars; `plain` says that it is a part of a regular expression,
where texts stand without quotes and nothing stands between the parts. -/
def written (name : Name → String) (plain : Bool) : Phrase Name → List Char
  | text word =>
    if plain then word.toList.flatMap escaped
    else '"' :: word.toList.flatMap escapedQuote ++ ['"']
  | chars kind => kind.written
  | rule called => (name called).toList
  | regex body => '/' :: body.written name true ++ ['/']
  | seq p q =>
    bracketed p.isAlt (p.written name plain) ++ (if plain then [] else [' ']) ++
      bracketed q.isAlt (q.written name plain)
  | alt p q =>
    p.written name plain ++ (if plain then ['|'] else [' ', '|', ' ']) ++ q.written name plain
  | optional body => bracketed (!body.isAtom) (body.written name plain) ++ ['?']
  | many body => bracketed (!body.isAtom) (body.written name plain) ++ ['*']
  | several body => bracketed (!body.isAtom) (body.written name plain) ++ ['+']

/-- The alternatives that a phrase consists of. -/
def alternatives : Phrase Name → List (Phrase Name)
  | alt p q => p :: q.alternatives
  | phrase => [phrase]

/-- The lines of a rule, of which the second and those behind it begin with a sign for alternatives
below the colon of the first. -/
def lines (name : Name → String) (title : String) : List (Phrase Name) → List (List Char)
  | [] => []
  | first :: others =>
    (title.toList ++ ':' :: ' ' :: first.written name false) :: others.map fun other =>
      title.toList.map (fun _ => ' ') ++ '|' :: ' ' :: other.written name false

end Phrase

end Studio.Grammar
