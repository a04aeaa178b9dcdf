import Studio.Production.Composer
import Studio.Proofs.Script.Growth
import Studio.Proofs.Text.Cutting

/-!
# Scripts in replies

A script is cut out of a reply: blanks around it are dropped, and fences. `opens_scriptOf` says that
what can be read from the front of a reply opens the script in it all the same: blanks hold no
statement, and nothing can be read that begins with a fence.
-/

namespace Studio.Production

open Script (Opens Program Yields readProgram parse)
open Session (Snapshot)
open Text (exists_blanks_trimList isBlank trimList)

variable {capability : Capability} {snapshot : Snapshot}

/-- What can be read from the front of a text can be read without the blanks in front. -/
theorem readProgram_of_prefix_blanks {front text part : List Char} {program : Program}
    (hfront : ∀ c ∈ front, isBlank c = true) (hpart : part <+: front ++ text)
    (h : readProgram part = .ok program) :
    ∃ rest, rest <+: text ∧ readProgram rest = .ok program := by
  rcases List.prefix_or_prefix_of_prefix hpart (List.prefix_append front text) with
      hshort | ⟨rest, rfl⟩
  · -- All of it is blank, so it is a script without statements.
    have hblank : ∀ c ∈ part, isBlank c = true := fun c hc => hfront c (hshort.subset hc)
    refine ⟨[], List.nil_prefix, Script.readProgram_blank_append hblank ?_⟩
    rw [List.append_nil, h]
  · exact ⟨rest, (List.prefix_append_right_inj front).1 hpart,
      Script.readProgram_blank_append hfront h⟩

/-- What can be read from the front of a text opens the script that the trimmed text is. -/
theorem opens_trimList {text part : List Char} {first second : Program} (hpart : part <+: text)
    (hfirst : readProgram part = .ok first) (hsecond : readProgram (trimList text) = .ok second) :
    Opens first second := by
  obtain ⟨front, back, htext, hfront, hback⟩ := exists_blanks_trimList text
  rw [htext] at hpart
  obtain ⟨rest, hrest, hfirst⟩ := readProgram_of_prefix_blanks hfront hpart hfirst
  rcases List.prefix_or_prefix_of_prefix hrest (List.prefix_append (trimList text) back) with
      ⟨more, hmore⟩ | ⟨blanks, rfl⟩
  · rw [← hmore] at hsecond
    exact Script.opens_of_readProgram_append hfirst hsecond
  · have hblanks := ((List.prefix_append_right_inj (trimList text)).1 hrest).subset
    rw [Script.readProgram_append_blank (fun c hc => hback c (hblanks hc)) hsecond hfirst]
    exact .refl second

/-- Nothing can be read that begins with a fence. -/
theorem readProgram_of_fence {text rest part : List Char} {program : Program}
    (htext : Text.dropStart? fence (trimList text) = some rest) (hpart : part <+: text)
    (h : readProgram part = .ok program) : program = [] := by
  obtain ⟨front, back, hsplit, hfront, -⟩ := exists_blanks_trimList text
  rw [hsplit] at hpart
  obtain ⟨script, hscript, h⟩ := readProgram_of_prefix_blanks hfront hpart h
  rcases Script.readProgram_eq_ok.1 h with ⟨-, hnil⟩ | ⟨_, _, _, hstatement, -, -⟩
  · exact hnil
  · cases script with
    | nil => exact absurd rfl hstatement.ne_nil
    | cons c script =>
        -- What was read begins as the trimmed text does, and so with the mark of a fence.
        have hmark : c = '\x60' := by
          cases htrim : trimList text with
          | nil => simp [htrim, fence, Text.dropStart?] at htext
          | cons d trimmed =>
              rw [htrim, List.cons_append] at hscript
              obtain rfl := (List.cons_prefix_cons.1 hscript).1
              by_contra hne
              rw [htrim, fence] at htext
              exact absurd htext (by simp [Text.dropStart?, Ne.symm hne])
        subst hmark
        have hfence : Script.skipFiller [';'] false ('\x60' :: script) = '\x60' :: script := by
          rw [Script.skipFiller, if_neg (by decide), if_neg (by simp [Script.commentAhead])]
        obtain ⟨d, t, hskip, hname⟩ := Script.beginsName_of_readStatement hstatement
        obtain rfl := (List.cons.inj (hfence.symm.trans hskip)).1
        exact absurd hname (by decide)

/-- What can be read from the front of a reply opens the script in the reply. -/
theorem opens_scriptOf {reply : String} {part : List Char} {first second : Program}
    (hpart : part <+: reply.toList) (hfirst : readProgram part = .ok first)
    (hsecond : parse (scriptOf reply) = .ok second) : Opens first second := by
  rw [Script.parse_eq_ok] at hsecond
  unfold scriptOf at hsecond
  dsimp only at hsecond
  split at hsecond
  · rw [String.toList_ofList] at hsecond
    exact opens_trimList hpart hfirst hsecond
  · next rest hfence =>
    rw [readProgram_of_fence hfence hpart hfirst]
    exact .nil second

/-- The script in a reply makes the actions of the lines in front first. -/
theorem prefix_of_interpret {reply : String} {part : List Char} (hpart : part <+: reply.toList)
    {actions : List Action} (hyields : Yields capability snapshot part actions)
    {interpretation : Script.Interpretation}
    (h : Script.interpret capability snapshot (scriptOf reply) = .ok interpretation) :
    actions <+: interpretation.actions := by
  obtain ⟨first, state, hfirst, hrun, rfl⟩ := hyields
  obtain ⟨second, final, hsecond, hfinal, hactions⟩ := Script.yields_of_interpret h
  rw [← hactions]
  exact Script.actions_of_execute (opens_scriptOf hpart hfirst (Script.parse_eq_ok.2 hsecond)) hrun
    hfinal

end Studio.Production
