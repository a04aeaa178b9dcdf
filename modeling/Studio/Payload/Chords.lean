import Studio.Payload.Description

/-!
# Notes of harmonic content

Arpeggios, chords and progressions are laid out one behind another; each begins where the one before
it ends.
-/

namespace Studio.Payload

open Studio.Action
open Studio.Music

/-- The shape of a description that begins at a beat. -/
def shape (action : Action) (start : Float) : Except Fault Shape := do
  let length ← match action.number? "length" with
    | some length => pure length
    | none => invalid action (.missing "length")
  let times := (action.number? "repeat").getD 1
  let v ← velocity action
  pure ⟨length, Number.toIndex (if times > 1 then times else 1), v, start⟩

/-- The octave of a description. -/
def octave (action : Action) : Int :=
  Number.truncateInto (-0x80000000) 0x7FFFFFFF ((action.number? "octave").getD 4)

/-- The chord symbol of a description: its chord, and its bass behind a slash. -/
def symbol (action : Action) : Except Fault String := do
  let chord ← requiredText action "chord"
  match action.text? "bass" with
  | some bass => pure (chord ++ "/" ++ bass)
  | none => pure chord

/-- The notes of an arpeggio, and the beats until the next description begins. -/
def arpeggioNotes (action : Action) (start : Float) : Except Fault (List Note × Float) := do
  let shape ← shape action start
  let pitches ← Chord.resolve (← symbol action) (octave action)
  let direction := ((action.text? "direction").bind Direction.ofName?).getD .up
  let notes := arpeggio pitches direction (action.number? "note_duration") shape
  match notes.getLast? with
  | some last => pure (notes, last.stop - start)
  | none => pure (notes, shape.span)

/-- The pitches of an inverted chord. A bass stays where it is, below the tones. -/
def voice (pitches : List Nat) (inversion : Nat) (hasBass : Bool) : List Nat :=
  if inversion = 0 then pitches
  else if hasBass then pitches.take 1 ++ Chord.invert (pitches.drop 1) inversion
  else Chord.invert pitches inversion

/-- The notes of a chord, and the beats until the next description begins. -/
def chordNotes (action : Action) (start : Float) : Except Fault (List Note × Float) := do
  let shape ← shape action start
  let pitches ← Chord.resolve (← symbol action) (octave action)
  let inversion := Number.toIndex ((action.number? "inversion").getD 0)
  let pitches := voice pitches inversion (action.get? "bass").isSome
  pure (block pitches shape, shape.span)

/-- The pitches of the chords of a progression. -/
def resolveAll (action : Action) : List Json → Except Fault (List (List Nat))
  | [] => .ok []
  | item :: rest =>
    match item.asString? with
    | none => invalid action .chordNotText
    | some symbol =>
      match Chord.resolve symbol (octave action) with
      | .error e => .error e
      | .ok pitches =>
        match resolveAll action rest with
        | .error e => .error e
        | .ok more => .ok (pitches :: more)

/-- The notes of a progression, and the beats until the next description begins. -/
def progressionNotes (action : Action) (start : Float) : Except Fault (List Note × Float) := do
  let shape ← shape action start
  let symbols ← match (action.get? "chords").bind Json.asArray? with
    | some symbols => pure symbols
    | none => invalid action (.missing "chords")
  let chords ← resolveAll action symbols
  pure (progression chords shape, shape.span)

/-- The notes of one description, and the beats until the next one begins. Actions that describe
nothing take no time. -/
def descriptionNotes? (action : Action) (start : Float) :
    Option (Except Fault (List Note × Float)) :=
  if action.kind = Kind.arpeggio then some (arpeggioNotes action start)
  else if action.kind = Kind.chord then some (chordNotes action start)
  else if action.kind = Kind.progression then some (progressionNotes action start)
  else none

/-- The notes of descriptions from a beat on. -/
def harmonyFrom (start : Float) : List Action → Except Fault (List Note)
  | [] => .ok []
  | action :: rest =>
    match descriptionNotes? action start with
    | none => harmonyFrom start rest
    | some (.error e) => .error e
    | some (.ok (notes, span)) =>
      match harmonyFrom (start + span) rest with
      | .error e => .error e
      | .ok more => .ok (notes ++ more)

/-- The notes of harmonic content. -/
def harmony (actions : List Action) : Except Fault (List Note) :=
  harmonyFrom 0 actions

end Studio.Payload
