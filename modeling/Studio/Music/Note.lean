import Studio.Json.Basic

/-!
# Notes

A note has a pitch and a velocity, each a small number, and a place in time; times are in beats.
-/

namespace Studio.Music

/-- A note at its place in time. -/
structure Note where
  pitch : Nat
  velocity : Nat
  start : Float
  duration : Float

namespace Note

/-- The beat at which a note ends. -/
def stop (note : Note) : Float :=
  note.start + note.duration

/-- The note a number of beats later. -/
def delay (beats : Float) (note : Note) : Note :=
  { note with start := note.start + beats }

/-- A note as an object. -/
def toJson (note : Note) : Json :=
  .object [("duration", .ofFloat note.duration), ("pitch", .nat note.pitch),
    ("start", .ofFloat note.start), ("velocity", .nat note.velocity)]

/-- Whether a note has its place before another or the same: by its start, then by its pitch. -/
def precedes (a b : Note) : Bool :=
  let (ka, kb) := (Number.orderKey a.start, Number.orderKey b.start)
  ka < kb || (ka == kb && a.pitch ≤ b.pitch)

/-- The largest pitch, which is also the largest velocity. -/
def largest : Nat := 127

/-- A velocity: the number without its fraction, if that lies between 1 and 127. -/
def velocityOf? (x : Float) : Option Nat :=
  let n := Number.truncateInto (-0x8000000000000000) 0x7FFFFFFFFFFFFFFF x
  if 1 ≤ n && n ≤ 127 then some n.toNat else none

/-- A velocity that is accepted is one. -/
theorem velocityOf?_mem {x : Float} {v : Nat} (h : velocityOf? x = some v) : 1 ≤ v ∧ v ≤ 127 := by
  simp only [velocityOf?, Bool.and_eq_true, decide_eq_true_eq] at h
  split at h
  · simp only [Option.some.injEq] at h; omega
  · simp at h

end Note

end Studio.Music
