import Studio.Payload.Chords
import Studio.Proofs.Methods.Effects

/-!
# When harmonic content has notes

A description has a shape if it gives a length and a velocity (`shape_eq_ok`). A progression
resolves chord by chord (`resolveAll_cons_eq_ok`), and descriptions are laid out one by one, each
where the one before it ends (`harmonyFrom_cons_eq_ok`).
-/

namespace Studio.Payload

open Studio.Action
open Studio.Music

variable {action : Action}

/-- A shape has a length, a velocity in range and a number of repetitions. -/
theorem shape_eq_ok {start : Float} {result : Shape} : shape action start = .ok result ↔
    ∃ length v, action.number? "length" = some length ∧ velocity action = .ok v ∧
      result = ⟨length, Number.toIndex (if (action.number? "repeat").getD 1 > 1
        then (action.number? "repeat").getD 1 else 1), v, start⟩ := by
  unfold shape
  cases action.number? "length" with
  | none => simp [invalid, bind, Except.bind]
  | some length =>
      cases velocity action with
      | error e => simp [bind, Except.bind, pure, Except.pure]
      | ok v => simp [bind, Except.bind, pure, Except.pure, eq_comm]

/-- Whether a shape is right does not depend on the beat at which it starts. -/
theorem exists_shape_iff (action : Action) (start : Float) :
    (∃ result, shape action start = .ok result) ↔ ∃ result, shape action 0 = .ok result := by
  simp only [shape_eq_ok, exists_comm, exists_and_left, exists_eq]

/-- The velocity of a shape is in range. -/
theorem velocity_of_shape {start : Float} {result : Shape} (h : shape action start = .ok result) :
    1 ≤ result.velocity ∧ result.velocity ≤ 127 := by
  obtain ⟨length, v, -, hv, rfl⟩ := shape_eq_ok.1 h
  exact velocity_mem hv

/-- Symbols resolve just when the first does and the others behind it. -/
theorem resolveAll_cons_eq_ok {item : Json} {items : List Json} {chords : List (List Nat)} :
    resolveAll action (item :: items) = .ok chords ↔
      ∃ symbol pitches more, item.asString? = some symbol ∧
        Chord.resolve symbol (octave action) = .ok pitches ∧
        resolveAll action items = .ok more ∧ chords = pitches :: more := by
  rw [resolveAll]
  cases item.asString? with
  | none => simp [invalid]
  | some symbol =>
      cases hresolve : Chord.resolve symbol (octave action) with
      | error e => simp [hresolve]
      | ok pitches => cases resolveAll action items <;> simp [hresolve, eq_comm]

/-- Harmony has notes just when its first action describes nothing or has notes, and the others have
theirs behind its span. -/
theorem harmonyFrom_cons_eq_ok {start : Float} {rest : List Action} {notes : List Note} :
    harmonyFrom start (action :: rest) = .ok notes ↔
      (descriptionNotes? action start = none ∧ harmonyFrom start rest = .ok notes) ∨
      ∃ own span more, descriptionNotes? action start = some (.ok (own, span)) ∧
        harmonyFrom (start + span) rest = .ok more ∧ notes = own ++ more := by
  rw [harmonyFrom]
  cases descriptionNotes? action start with
  | none => simp
  | some result =>
      cases result with
      | error e => simp
      | ok found =>
          obtain ⟨own, span⟩ := found
          dsimp only
          cases hmore : harmonyFrom (start + span) rest <;> simp [hmore, eq_comm]

end Studio.Payload
