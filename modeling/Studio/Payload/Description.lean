import Studio.Action
import Studio.Music.Chord
import Studio.Music.Layout

/-!
# Descriptions of content

Actions that describe music say by their fields what is to be played. Here are the fields that all
such actions share, read as what they stand for.
-/

namespace Studio.Payload

open Studio.Music (Fault Note Shape DescriptionFlaw)

/-- The fault of a description. -/
def invalid {α : Type} (action : Action) (flaw : DescriptionFlaw) : Except Fault α :=
  .error (.invalidDescription action.kind flaw)

/-- A text that a description must give. -/
def requiredText (action : Action) (field : String) : Except Fault String :=
  match action.text? field with
  | some text => .ok text
  | none => invalid action (.missing field)

/-- The velocity unless a description gives one. -/
def defaultVelocity : Float := 100

/-- The velocity of a description. -/
def velocity (action : Action) : Except Fault Nat :=
  let given := (action.number? "velocity").getD defaultVelocity
  match Note.velocityOf? given with
  | some v => .ok v
  | none => invalid action (.velocity given)

/-- A velocity of a description is one. -/
theorem velocity_mem {action : Action} {v : Nat} (h : velocity action = .ok v) :
    1 ≤ v ∧ v ≤ 127 := by
  simp only [velocity] at h
  split at h
  · next h' => cases h; exact Note.velocityOf?_mem h'
  · simp [invalid] at h

end Studio.Payload
