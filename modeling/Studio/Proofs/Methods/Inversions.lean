import Studio.Proofs.Methods.Rendering
import Studio.Proofs.Music.Voicing
import Studio.Proofs.Payload.Harmony

/-!
# The notes of inverted chords

What a call for a chord puts into its action is read back when notes are laid out for it: the symbol
in two parts, the octave, the repetitions and the inversion. So the notes of the action are the
repetitions of the chord as the call asks for it, except where the bass is sunk (`chord_sounds`).
-/

namespace Studio

open Studio.Action
open Studio.Music

/-! ### Symbols in two parts -/

namespace Methods.Chords

open Studio.Script

variable {symbol : String} {sound : Chord}

/-- A symbol that was split has no bass left, and its bass where it had one. -/
theorem parts_splitSymbol (symbol : String) :
    Chord.parts (splitSymbol symbol).1.toList = ((Chord.parts symbol.toList).1, none) ∧
      (splitSymbol symbol).2.isSome = (Chord.parts symbol.toList).2.isSome := by
  unfold splitSymbol
  cases hsplit : Text.splitOnce '/' symbol.toList with
  | none =>
      rw [Chord.parts_of_splitOnce_eq_none hsplit]
      refine ⟨?_, rfl⟩
      rw [Text.trim, String.toList_ofList, Chord.parts_trimList,
        Chord.parts_of_splitOnce_eq_none hsplit]
  | some found =>
      obtain ⟨body, bass⟩ := found
      have hbody : Text.splitOnce '/' body = none :=
        Text.splitOnce_of_not_mem (Text.not_mem_of_splitOnce hsplit)
      rw [Chord.parts_of_splitOnce hsplit]
      refine ⟨?_, rfl⟩
      show Chord.parts (Text.trim (String.ofList body)).toList = (Text.trimList body, none)
      rw [Text.trim, String.toList_ofList, String.toList_ofList, Chord.parts_trimList,
        Chord.parts_of_splitOnce_eq_none hbody]

/-- Without its bass a symbol is the chord without its bass. -/
theorem parse_splitSymbol (h : Chord.parse symbol = .ok sound) :
    Chord.parse (splitSymbol symbol).1 = .ok sound.upper := by
  obtain ⟨root, rest, bass, added, hroot, -, hadded, rfl⟩ := Chord.parse_eq_ok.1 h
  refine Chord.parse_eq_ok.2 ⟨root, rest, none, added, ?_, ?_, hadded, rfl⟩
  · rwa [(parts_splitSymbol symbol).1]
  · rw [(parts_splitSymbol symbol).1]
    rfl

/-- A symbol is split off its bass just when its chord has one. -/
theorem isSome_bass (h : Chord.parse symbol = .ok sound) :
    (splitSymbol symbol).2.isSome = sound.bass.isSome := by
  obtain ⟨root, rest, bass, added, -, hbass, -, rfl⟩ := Chord.parse_eq_ok.1 h
  rw [(parts_splitSymbol symbol).2]
  cases hparts : (Chord.parts symbol.toList).2 with
  | none =>
      rw [hparts] at hbass
      obtain rfl := Except.ok.inj hbass
      rfl
  | some text =>
      rw [hparts, Chord.bassOf] at hbass
      split at hbass
      · obtain rfl := Except.ok.inj hbass
        rfl
      · cases hbass

/-- The tones of a symbol are those that it has without its bass. -/
theorem resolve_splitSymbol {octave : Nat} {pitches : List Nat} (hoctave : octave ≤ 9)
    (h : Chord.resolve symbol octave = .ok pitches) :
    ∃ sound, Chord.parse symbol = .ok sound ∧ pitches = sound.pitches octave ∧
      Chord.resolve (splitSymbol symbol).1 octave = .ok (sound.upper.pitches octave) := by
  obtain ⟨sound, hparse, hreaches, -, rfl⟩ := Chord.resolve_eq_ok.1 h
  refine ⟨sound, hparse, rfl, Chord.resolve_eq_ok.2 ⟨sound.upper, parse_splitSymbol hparse, ?_, ?_,
    rfl⟩⟩
  · simp only [Chord.reaches, Bool.and_eq_true] at hreaches ⊢
    exact ⟨hreaches.1, rfl⟩
  · obtain ⟨lowest, third, fifth, more, htones, -⟩ := Chord.exists_tones hparse hoctave
    rw [htones]
    exact List.cons_ne_nil _ _

end Methods.Chords

/-! ### The notes of a chord -/

namespace Payload

open Methods.Chords (Common SymbolIn)

/-- A description that follows others is laid out where they end. -/
theorem harmonyFrom_append {start : Float} {before after : List Action} {notes : List Note}
    (h : harmonyFrom start (before ++ after) = .ok notes) :
    ∃ front beat back, harmonyFrom start before = .ok front ∧ harmonyFrom beat after = .ok back ∧
      notes = front ++ back := by
  induction before generalizing start notes with
  | nil => exact ⟨[], start, notes, rfl, h, rfl⟩
  | cons action before ih =>
      rcases harmonyFrom_cons_eq_ok.1 h with ⟨hnone, hmore⟩ | ⟨own, span, more, hown, hmore, rfl⟩
      · obtain ⟨front, beat, back, hfront, hback, rfl⟩ := ih hmore
        exact ⟨front, beat, back, harmonyFrom_cons_eq_ok.2 (.inl ⟨hnone, hfront⟩), hback, rfl⟩
      · obtain ⟨front, beat, back, hfront, hback, rfl⟩ := ih hmore
        refine ⟨own ++ front, beat, back, ?_, hback, (List.append_assoc ..).symm⟩
        exact harmonyFrom_cons_eq_ok.2 (.inr ⟨own, span, front, hown, hfront, rfl⟩)

/-- A chord is laid out where it begins. -/
theorem exists_of_harmonyFrom_chord {action : Action} (hkind : action.kind = Kind.chord)
    {start : Float} {after : List Action} {notes : List Note}
    (h : harmonyFrom start (action :: after) = .ok notes) :
    ∃ own span back, chordNotes action start = .ok (own, span) ∧
      harmonyFrom (start + span) after = .ok back ∧ notes = own ++ back := by
  have hdescribed : descriptionNotes? action start = some (chordNotes action start) := by
    rw [descriptionNotes?, if_neg (by rw [hkind]; decide), if_pos hkind]
  rcases harmonyFrom_cons_eq_ok.1 h with ⟨hnone, -⟩ | ⟨own, span, back, hown, hback, rfl⟩
  · cases hdescribed.symm.trans hnone
  · exact ⟨own, span, back, Option.some.inj (hdescribed.symm.trans hown), hback, rfl⟩

/-- As many repetitions as may be given are read as they are. -/
theorem toIndex_times : ∀ n ≤ Methods.Chords.timesLimit, 1 ≤ n →
    Number.toIndex (if Float.ofInt (n : Nat) > 1 then Float.ofInt n else 1) = n := by
  decide +kernel

section

variable {action : Action} {c : Common} (hin : c.In action) (bounded : c.Bounded)
include hin bounded

/-- The shape of a description is made of what was given. -/
theorem exists_of_shape {start : Float} {result : Shape} (h : shape action start = .ok result) :
    ∃ length, action.number? "length" = some length ∧
      result = ⟨length, c.times, c.velocity, start⟩ := by
  obtain ⟨length, v, hlength, hv, rfl⟩ := shape_eq_ok.1 h
  obtain rfl := Except.ok.inj (hv.symm.trans (hin.velocity_eq_ok bounded))
  refine ⟨length, hlength, ?_⟩
  rw [Action.number?_nat hin.times, Option.getD_some,
    toIndex_times c.times bounded.times.2 bounded.times.1]

/-- The notes of a chord are the repetitions of its inversion. -/
theorem exists_of_chordNotes {symbol : String} {pitches : List Nat} {inversion : Nat}
    (hsymbol : SymbolIn symbol action) (hpitches : Chord.resolve symbol c.octave = .ok pitches)
    (hinversion : action.get? "inversion" = some (.nat inversion)) (hmost : inversion ≤ 3)
    {start span : Float} {notes : List Note} (h : chordNotes action start = .ok (notes, span)) :
    ∃ length, action.number? "length" = some length ∧
      notes = block (voice pitches inversion (action.get? "bass").isSome)
        ⟨length, c.times, c.velocity, start⟩ := by
  obtain ⟨text, htext, hparts⟩ := hsymbol.exists_symbol
  have hresolve : Chord.resolve text (octave action) = .ok pitches := by
    rw [hin.octave_eq bounded]
    exact (Chord.resolve_congr hparts).2 hpitches
  have hindex : Number.toIndex ((action.number? "inversion").getD 0) = inversion := by
    rw [Action.number?_nat hinversion, Option.getD_some]
    exact Number.toIndex_ofInt (by omega)
  rw [chordNotes] at h
  obtain ⟨result, hshape, h⟩ := bind_eq_ok.1 h
  obtain ⟨length, hlength, rfl⟩ := exists_of_shape hin bounded hshape
  simp only [htext, hresolve, hindex, bind, Except.bind, pure, Except.pure] at h
  exact ⟨length, hlength, (Prod.mk.inj (Except.ok.inj h)).1.symm⟩

end

end Payload

namespace Methods.Chords

open Studio.Script

/-- A chord that is accepted sounds as often as the call asks for, wherever it stands: its bass in
the octave below, if that is a pitch, and behind it the tones that the symbol has without its bass,
the lowest of them raised as often as the inversion says. This is so unless the bass is below all
pitches and the tones are to be inverted. Then the lowest tone is taken for the bass: it stays, and
the other tones are inverted. -/
theorem chord_sounds {call : Call} {action : Action} (h : chord call = .ok action) :
    ∃ c symbol inversion sound tones voiced, common call defaultLength = .ok c ∧
      call.string (.inSlot "symbol" 0) = .ok symbol ∧
      (call.count? "inversion").map (·.getD 0) = .ok inversion ∧ inversion ≤ 3 ∧
      Chord.parse symbol = .ok sound ∧
      Chord.resolve (splitSymbol symbol).1 c.octave = .ok tones ∧
      (voiced = (sound.bassPitch? c.octave).toList ++ Chord.lift tones inversion ↔
        ¬ sound.Sunk c.octave inversion) ∧
      (sound.Sunk c.octave inversion →
        voiced = tones.take 1 ++ Chord.invert (tones.drop 1) inversion) ∧
      (c.length.isFinite = true → ∃ notes, payload .arranger [action] = .ok notes) ∧
      ∀ before after notes, payload .arranger (before ++ action :: after) = .ok notes →
        ∃ front start length beat back, payload .arranger before = .ok front ∧
          Payload.harmonyFrom beat after = .ok back ∧
          notes = front ++ (List.range c.times).flatMap (fun turn => voiced.map fun pitch =>
            ⟨pitch, c.velocity, start + Float.ofNat turn * length, length⟩) ++ back := by
  have hharmonic := harmonic_of_chord h
  obtain ⟨c, symbol, pitches, inversion, hcommon, hsymbol, hpitches, hinversion, hmost, hkind, hin,
    hparts, hgiven⟩ := exists_of_chord h
  have bounded := bounded_of_common hcommon
  obtain ⟨sound, hparse, rfl, htones⟩ := resolve_splitSymbol bounded.octave hpitches
  have hbass : (action.get? "bass").isSome = sound.bass.isSome := by
    rw [hparts.bass, Option.isSome_map, isSome_bass hparse]
  refine ⟨c, symbol, inversion, sound, _,
    Payload.voice (sound.pitches c.octave) inversion sound.bass.isSome, hcommon, hsymbol,
    hinversion, hmost, hparse, htones, ⟨?_, ?_⟩, ?_, ?_, ?_⟩
  · intro hvoiced hsunk
    exact Chord.ne_of_sunk hparse hmost hsunk
      ((Chord.voice_of_sunk hparse hsunk).symm.trans hvoiced)
  · exact Chord.voice_of_not_sunk hparse bounded.octave hmost
  · exact Chord.voice_of_sunk hparse
  · intro hfinite
    refine (Payload.harmonyFrom_eq_ok (List.forall_mem_singleton.2 hharmonic) 0).2 ?_
    intro other hother hnull
    rw [List.mem_singleton.1 hother, hin.length] at hnull
    have hinfinite := Json.ofNumber_eq_null.1 (Option.some.inj hnull)
    rw [hfinite] at hinfinite
    cases hinfinite
  · intro before after notes hnotes
    obtain ⟨front, start, more, hfront, hmore, rfl⟩ := Payload.harmonyFrom_append hnotes
    obtain ⟨own, span, back, hown, hback, rfl⟩ :=
      Payload.exists_of_harmonyFrom_chord hkind hmore
    obtain ⟨length, -, rfl⟩ :=
      Payload.exists_of_chordNotes hin bounded hparts hpitches hgiven hmost hown
    rw [hbass]
    exact ⟨front, start, length, start + span, back, hfront, hback, (List.append_assoc ..).symm⟩

/-- The bass of an inverted chord, an octave below its raised tones. -/
theorem chord_sounds_slash :
    let call : Call := ⟨"chord", [⟨none, .string "C/G"⟩, ⟨some "inversion", .number 1⟩]⟩
    ∃ action notes, chord call = .ok action ∧ payload .arranger [action] = .ok notes ∧
      notes.map Note.pitch = [43, 52, 55, 60] := by
  intro call
  have haccepted : (chord call).toOption.isSome = true := by decide +kernel
  obtain ⟨action, haction⟩ := Option.isSome_iff_exists.1 haccepted
  obtain ⟨c, symbol, inversion, sound, tones, voiced, hcommon, hsymbol, hinversion, -, hparse,
    htones, hvoiced, -, hfinite, hnotes⟩ := chord_sounds (toOption_eq_some.1 haction)
  have hgiven : ((common call defaultLength).toOption.map fun c =>
      (c.length.isFinite, c.times, c.octave)) = some (true, 1, 4) := by decide +kernel
  simp only [hcommon, Except.toOption, Option.map_some, Option.some.injEq, Prod.mk.injEq] at hgiven
  obtain ⟨hlength, htimes, hoctave⟩ := hgiven
  obtain rfl : symbol = "C/G" := Except.ok.inj (hsymbol.symm.trans rfl)
  obtain rfl : inversion = 1 := by
    have hone : ((call.count? "inversion").map (·.getD 0)).toOption = some 1 := by decide +kernel
    rw [hinversion] at hone
    exact Option.some.inj hone
  obtain rfl : sound = ⟨0, [0, 4, 7], some 7⟩ := by
    have hsound : (Chord.parse "C/G").toOption = some ⟨0, [0, 4, 7], some 7⟩ := by decide +kernel
    rw [hparse] at hsound
    exact Option.some.inj hsound
  obtain rfl : tones = [48, 52, 55] := by
    have hresolve : (Chord.resolve (splitSymbol "C/G").1 (4 : Nat)).toOption =
      some [48, 52, 55] := by decide +kernel
    rw [← hoctave, htones] at hresolve
    exact Option.some.inj hresolve
  obtain ⟨notes, hpayload⟩ := hfinite hlength
  obtain ⟨front, start, length, beat, back, hfront, hback, rfl⟩ := hnotes [] [] notes hpayload
  obtain rfl : front = [] := (Except.ok.inj hfront).symm
  obtain rfl : back = [] := (Except.ok.inj hback).symm
  refine ⟨action, _, toOption_eq_some.1 haction, hpayload, ?_⟩
  rw [htimes, hvoiced.2 (by simp [Chord.Sunk, hoctave]), hoctave]
  rfl

/-- The bass of this chord would be below the first octave, so the tone C is not raised. -/
theorem sunk_not_lifted :
    let call : Call := ⟨"chord", [⟨none, .string "C/G"⟩, ⟨some "octave", .number 0⟩,
      ⟨some "inversion", .number 1⟩]⟩
    ∃ action notes sound tones, chord call = .ok action ∧ payload .arranger [action] = .ok notes ∧
      Chord.parse "C/G" = .ok sound ∧ Chord.resolve "C" 0 = .ok tones ∧
      notes.map Note.pitch = [0, 7, 16] ∧
      (sound.bassPitch? 0).toList ++ Chord.lift tones 1 = [4, 7, 12] := by
  intro call
  have hpitches : ((chord call).toOption.bind fun action =>
      (payload .arranger [action]).toOption.map (·.map Note.pitch)) = some [0, 7, 16] := by
    decide +kernel
  obtain ⟨action, haction, hpayload⟩ := Option.bind_eq_some_iff.1 hpitches
  obtain ⟨notes, hnotes, hpitch⟩ := Option.map_eq_some_iff.1 hpayload
  have hsound : (Chord.parse "C/G").toOption = some ⟨0, [0, 4, 7], some 7⟩ := by decide +kernel
  have htones : (Chord.resolve "C" 0).toOption = some [0, 4, 7] := by decide +kernel
  exact ⟨action, notes, _, _, toOption_eq_some.1 haction, toOption_eq_some.1 hnotes,
    toOption_eq_some.1 hsound, toOption_eq_some.1 htones, hpitch, by decide⟩

end Methods.Chords

end Studio
