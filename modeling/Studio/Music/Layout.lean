import Studio.Music.Note

/-!
# Laying out pitches

Pitches become notes one after another, together, or chord by chord.
-/

namespace Studio.Music

/-- The order in which the pitches of a chord follow one another. -/
inductive Direction where
  | up
  | down
  | upDown
deriving DecidableEq, Repr

/-- The direction that a word stands for. -/
def Direction.ofName? (word : String) : Option Direction :=
  if word = "up" then some .up
  else if word = "down" then some .down
  else if word = "updown" || word = "up_down" then some .upDown
  else none

/-- The pitches in the order of the direction. On the way back the two ends are not repeated. -/
def Direction.order (direction : Direction) (pitches : List Nat) : List Nat :=
  match direction with
  | .up => pitches
  | .down => pitches.reverse
  | .upDown => pitches ++ (pitches.drop 1).dropLast.reverse

/-- What the notes of a layout share. -/
structure Shape where
  /-- The beats that one repetition covers. -/
  length : Float
  /-- The number of repetitions. -/
  times : Nat
  velocity : Nat
  /-- The beat at which the first note starts. -/
  start : Float

/-- The beats that all repetitions cover. -/
def Shape.span (shape : Shape) : Float :=
  shape.length * Float.ofNat shape.times

/-- Groups of pitches one after another, from a beat on; the pitches of a group sound together for
`step` beats. -/
def layFrom (velocity : Nat) (step beat : Float) : List (List Nat) → List Note
  | [] => []
  | pitches :: rest =>
    pitches.map (fun pitch => ⟨pitch, velocity, beat, step⟩) ++
      layFrom velocity step (beat + step) rest

/-- The beats between two notes of an arpeggio over so many pitches. -/
def arpeggioStep (duration : Option Float) (shape : Shape) (count : Nat) : Float :=
  match duration with
  | some beats => if beats > 0 then beats else shape.length / Float.ofNat count
  | none => shape.length / Float.ofNat count

/-- The pitches one after another. A repetition covers the length of the shape, unless the duration
of the notes is given. -/
def arpeggio (pitches : List Nat) (direction : Direction) (duration : Option Float)
    (shape : Shape) : List Note :=
  let ordered := direction.order pitches
  layFrom shape.velocity (arpeggioStep duration shape ordered.length) shape.start
    (List.replicate shape.times (ordered.map fun pitch => [pitch])).flatten

/-- The pitches together, repeated. -/
def block (pitches : List Nat) (shape : Shape) : List Note :=
  (List.range shape.times).flatMap fun turn =>
    let start := shape.start + Float.ofNat turn * shape.length
    pitches.map fun pitch => ⟨pitch, shape.velocity, start, shape.length⟩

/-- Chords one after another. They share the length of a repetition evenly. -/
def progression (chords : List (List Nat)) (shape : Shape) : List Note :=
  layFrom shape.velocity (shape.length / Float.ofNat chords.length) shape.start
    (List.replicate shape.times chords).flatten

end Studio.Music
