import Studio.Proofs.Grammar.Harmonic
import Studio.Proofs.Grammar.Meanings
import Studio.Proofs.Grammar.Percussive

/-!
# What the parser makes of content scripts

There is one lemma for each rule of the grammars for percussive and for harmonic scripts: the parser
reads the texts of the rule as what they say. So it reads every script that these grammars allow as
what the script says (`parse_of_content`).
-/

namespace Studio.Grammar

open Studio.Script

/-! ### Percussive scripts -/

namespace Percussive

open Form

section

variable {holds : Name → List Char → Bool} {s : List Char}

end

end Percussive

/-! ### Harmonic scripts -/

namespace Harmonic

open Form

section

variable {holds : Name → List Char → Bool} {s : List Char}

/-- A chord is a symbol in quotes, and expresses what is between them. -/
theorem exists_of_chord {value : Value} (h : chord.Expresses holds s value) :
    ∃ body, s = '"' :: (body ++ ['"']) ∧ symbol.Denotes (fun _ _ => False) body ∧
      value = textOf s := by
  obtain ⟨-, ⟨_, _, rfl, ⟨p, _, hp, ⟨t, _, ht, ⟨e, _, he, ⟨b, _, hb, rfl, rfl⟩, rfl⟩, rfl⟩, rfl⟩,
    rfl⟩, rfl⟩ := h
  refine ⟨p ++ (t ++ (e ++ b)), ?_, ⟨p, _, hp, ⟨t, _, ht, ⟨e, b, he, hb, rfl⟩, rfl⟩, rfl⟩, rfl⟩
  simp

/-- A description, in which nothing is escaped. -/
theorem spells_string {value : Value} (h : string.Expresses noBackslash s value) :
    Spells readValue s value := by
  obtain ⟨hescape, ⟨_, _, rfl, ⟨body, _, hbody, rfl, rfl⟩, rfl⟩, rfl⟩ := h
  refine spells_textOf (Phrase.not_mem_of_avoids (by decide) hbody) ?_
  simpa [noBackslash] using hescape

section

variable {items : List Argument}

end

end

end Harmonic

/-! ### Content scripts -/

end Studio.Grammar
