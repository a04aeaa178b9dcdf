import Studio.Payload.Basic
import Studio.Proofs.Music.Resolution
import Studio.Proofs.Payload.Harmony
import Studio.Proofs.Payload.Percussion

/-!
# Notes within their bounds

Whatever the fields of actions hold, the notes that are laid out for them have a pitch and a
velocity that a note can have (`playable_of_payload`). Pitches come from chords and from the table
of drums, and are put in another order or raised by an octave on the way; velocities come from a
field, or from the two signs of a grid that have one of their own.
-/

namespace Studio.Music

/-- The pitch and the velocity are ones that a note can have. -/
structure Note.Playable (note : Note) : Prop where
  pitch : note.pitch ≤ 127
  velocity : 1 ≤ note.velocity ∧ note.velocity ≤ 127

/-! ### Pitches -/

/-- All of these pitches are ones that a note can have. -/
def InRange (pitches : List Nat) : Prop :=
  ∀ pitch ∈ pitches, pitch ≤ Note.largest

namespace Chord

variable {symbol : String} {octave : Int} {pitches : List Nat}

/-- The pitches of a symbol are in range. -/
theorem inRange_of_resolve (h : resolve symbol octave = .ok pitches) : InRange pitches := by
  obtain ⟨chord, -, -, -, rfl⟩ := resolve_eq_ok.1 h
  exact fun pitch => le_of_mem_pitches

/-- A pitch is only raised where there is room. -/
theorem inRange_raise (h : InRange pitches) (times : Nat) : InRange (raise pitches times) := by
  induction times generalizing pitches with
  | zero => exact h
  | succ times ih =>
      rw [raise]
      cases pitches with
      | nil => exact h
      | cons lowest rest =>
          rw [raiseLowest?]
          obtain ⟨-, hrest⟩ := List.forall_mem_cons.1 h
          by_cases hroom : lowest + 12 ≤ Note.largest
          · rw [if_pos hroom]
            exact ih (List.forall_mem_append.2 ⟨hrest, List.forall_mem_singleton.2 hroom⟩)
          · rw [if_neg hroom]
            exact h

/-- Inversion keeps pitches in range. -/
theorem inRange_invert (h : InRange pitches) (inversion : Nat) :
    InRange (invert pitches inversion) :=
  inRange_raise h _

end Chord

/-- Playing pitches in a direction brings no others in. -/
theorem inRange_order {pitches : List Nat} (h : InRange pitches) (direction : Direction) :
    InRange (direction.order pitches) := by
  cases direction with
  | up => exact h
  | down => exact fun pitch hmem => h pitch (List.mem_reverse.1 hmem)
  | upDown =>
      refine List.forall_mem_append.2 ⟨h, fun pitch hmem => h pitch ?_⟩
      exact List.mem_of_mem_drop (List.mem_of_mem_dropLast (List.mem_reverse.1 hmem))

/-- The pitch of a drum is at most 127. -/
theorem drumPitch?_le {name : String} {pitch : Nat} (h : drumPitch? name = some pitch) :
    pitch ≤ 127 := by
  have hall : ∀ drum ∈ drums, drum.2 ≤ 127 := by decide
  obtain ⟨drum, hdrum, rfl⟩ := Option.map_eq_some_iff.1 h
  exact hall drum (List.mem_of_find?_eq_some hdrum)

/-! ### Layouts -/

section

variable {velocity : Nat} (hvelocity : 1 ≤ velocity ∧ velocity ≤ 127)
include hvelocity

/-- Notes that are laid out are playable if their pitches are in range. -/
theorem playable_layFrom {step beat : Float} {groups : List (List Nat)}
    (h : ∀ pitches ∈ groups, InRange pitches) :
    ∀ note ∈ layFrom velocity step beat groups, note.Playable := by
  induction groups generalizing beat with
  | nil => exact fun note hmem => absurd hmem List.not_mem_nil
  | cons pitches groups ih =>
      obtain ⟨hfirst, hrest⟩ := List.forall_mem_cons.1 h
      refine List.forall_mem_append.2 ⟨List.forall_mem_map.2 fun pitch hpitch => ?_, ih hrest⟩
      exact ⟨hfirst pitch hpitch, hvelocity⟩

/-- Repetitions of groups are in range when the groups are. -/
theorem playable_layFrom_replicate {step beat : Float} {groups : List (List Nat)} (times : Nat)
    (h : ∀ pitches ∈ groups, InRange pitches) :
    ∀ note ∈ layFrom velocity step beat (List.replicate times groups).flatten, note.Playable := by
  refine playable_layFrom hvelocity fun pitches hmem => ?_
  obtain ⟨repetition, hrepetition, hpitches⟩ := List.mem_flatten.1 hmem
  exact h pitches (List.eq_of_mem_replicate hrepetition ▸ hpitches)

end

section

variable {shape : Shape} (hvelocity : 1 ≤ shape.velocity ∧ shape.velocity ≤ 127)
include hvelocity

/-- The notes of an arpeggio are playable if its pitches are in range. -/
theorem playable_arpeggio {pitches : List Nat} (h : InRange pitches) (direction : Direction)
    (duration : Option Float) :
    ∀ note ∈ arpeggio pitches direction duration shape, note.Playable := by
  refine playable_layFrom_replicate hvelocity _ (List.forall_mem_map.2 fun pitch hpitch => ?_)
  exact List.forall_mem_singleton.2 (inRange_order h direction pitch hpitch)

/-- The notes of a block are playable if its pitches are in range. -/
theorem playable_block {pitches : List Nat} (h : InRange pitches) :
    ∀ note ∈ block pitches shape, note.Playable := by
  intro note hmem
  obtain ⟨turn, -, hmem⟩ := List.mem_flatMap.1 hmem
  obtain ⟨pitch, hpitch, rfl⟩ := List.mem_map.1 hmem
  exact ⟨h pitch hpitch, hvelocity⟩

/-- The notes of a progression are playable if the pitches of its chords are in range. -/
theorem playable_progression {chords : List (List Nat)} (h : ∀ pitches ∈ chords, InRange pitches) :
    ∀ note ∈ progression chords shape, note.Playable :=
  playable_layFrom_replicate hvelocity _ h

end

/-- A hit has the velocity of the grid, unless its sign gives one. -/
theorem Strikes.mem {velocity v : Nat} {cell : Char} (hvelocity : 1 ≤ velocity ∧ velocity ≤ 127)
    (h : Strikes velocity cell v) : 1 ≤ v ∧ v ≤ 127 := by
  cases h with
  | hit => exact hvelocity
  | accent | ghost => decide

/-- The notes of a grid are playable if its pitch and its velocity are in range. -/
theorem playable_gridNotes {grid : String} {pitch velocity : Nat} {settings : GridSettings}
    {notes : List Note} (hpitch : pitch ≤ 127) (hvelocity : 1 ≤ velocity ∧ velocity ≤ 127)
    (h : gridNotes grid pitch velocity settings = .ok notes) : ∀ note ∈ notes, note.Playable := by
  obtain ⟨-, rfl⟩ := gridNotes_eq_ok.1 h
  intro note hmem
  obtain ⟨bar, -, hmem⟩ := List.mem_flatMap.1 hmem
  rw [turnNotes_eq] at hmem
  obtain ⟨hit, hhit, rfl⟩ := List.mem_map.1 hmem
  obtain ⟨cell, -, hstrikes⟩ := ((hits_hitsOf velocity _).mem_iff hit.1 hit.2).1 hhit
  exact ⟨hpitch, hstrikes.mem hvelocity⟩

end Studio.Music

namespace Studio

open Studio.Action
open Studio.Music

namespace Payload

variable {action : Action} {start span : Float} {notes : List Note}

/-! ### Harmonic content -/

/-- The notes of an action for an arpeggio are playable. -/
theorem playable_of_arpeggioNotes (h : arpeggioNotes action start = .ok (notes, span)) :
    ∀ note ∈ notes, note.Playable := by
  obtain ⟨result, hshape, h⟩ := bind_eq_ok.1 h
  obtain ⟨text, -, h⟩ := bind_eq_ok.1 h
  obtain ⟨pitches, hpitches, h⟩ := bind_eq_ok.1 h
  have hplayable := playable_arpeggio (velocity_of_shape hshape)
    (Chord.inRange_of_resolve hpitches)
    (((action.text? "direction").bind Direction.ofName?).getD .up) (action.number? "note_duration")
  dsimp only at h
  split at h <;>
  · obtain ⟨rfl, -⟩ := Prod.mk.inj (Except.ok.inj h)
    exact hplayable

/-- Voicing keeps pitches in range. -/
theorem inRange_voice {pitches : List Nat} (h : InRange pitches) (inversion : Nat)
    (hasBass : Bool) : InRange (voice pitches inversion hasBass) := by
  unfold voice
  split
  · exact h
  · split
    · refine List.forall_mem_append.2 ⟨fun pitch hmem => h pitch (List.mem_of_mem_take hmem), ?_⟩
      exact Chord.inRange_invert (fun pitch hmem => h pitch (List.mem_of_mem_drop hmem)) inversion
    · exact Chord.inRange_invert h inversion

/-- The notes of an action for a chord are playable. -/
theorem playable_of_chordNotes (h : chordNotes action start = .ok (notes, span)) :
    ∀ note ∈ notes, note.Playable := by
  obtain ⟨result, hshape, h⟩ := bind_eq_ok.1 h
  obtain ⟨text, -, h⟩ := bind_eq_ok.1 h
  obtain ⟨pitches, hpitches, h⟩ := bind_eq_ok.1 h
  obtain ⟨rfl, -⟩ := Prod.mk.inj (Except.ok.inj h)
  exact playable_block (velocity_of_shape hshape)
    (inRange_voice (Chord.inRange_of_resolve hpitches) _ _)

/-- The pitches of all symbols of a progression are in range. -/
theorem inRange_of_resolveAll {items : List Json} {chords : List (List Nat)}
    (h : resolveAll action items = .ok chords) : ∀ pitches ∈ chords, InRange pitches := by
  induction items generalizing chords with
  | nil =>
      obtain rfl := Except.ok.inj h
      exact fun pitches hmem => absurd hmem List.not_mem_nil
  | cons item items ih =>
      obtain ⟨symbol, pitches, more, -, hpitches, hmore, rfl⟩ := resolveAll_cons_eq_ok.1 h
      exact List.forall_mem_cons.2 ⟨Chord.inRange_of_resolve hpitches, ih hmore⟩

/-- The notes of an action for a progression are playable. -/
theorem playable_of_progressionNotes (h : progressionNotes action start = .ok (notes, span)) :
    ∀ note ∈ notes, note.Playable := by
  obtain ⟨result, hshape, h⟩ := bind_eq_ok.1 h
  cases hitems : (action.get? "chords").bind Json.asArray? with
  | none => rw [hitems] at h; cases h
  | some items =>
      rw [hitems] at h
      obtain ⟨_, -, h⟩ := bind_eq_ok.1 h
      obtain ⟨chords, hchords, h⟩ := bind_eq_ok.1 h
      obtain ⟨rfl, -⟩ := Prod.mk.inj (Except.ok.inj h)
      exact playable_progression (velocity_of_shape hshape) (inRange_of_resolveAll hchords)

/-- The notes of a description are playable. -/
theorem playable_of_descriptionNotes?
    (h : descriptionNotes? action start = some (.ok (notes, span))) :
    ∀ note ∈ notes, note.Playable := by
  unfold descriptionNotes? at h
  split at h
  · exact playable_of_arpeggioNotes (Option.some.inj h)
  · split at h
    · exact playable_of_chordNotes (Option.some.inj h)
    · split at h
      · exact playable_of_progressionNotes (Option.some.inj h)
      · cases h

/-- The notes of harmony are playable. -/
theorem playable_of_harmonyFrom {actions : List Action}
    (h : harmonyFrom start actions = .ok notes) : ∀ note ∈ notes, note.Playable := by
  induction actions generalizing start notes with
  | nil =>
      obtain rfl := Except.ok.inj h
      exact fun note hmem => absurd hmem List.not_mem_nil
  | cons action rest ih =>
      rcases harmonyFrom_cons_eq_ok.1 h with ⟨-, hrest⟩ | ⟨own, span, more, hown, hmore, rfl⟩
      · exact ih hrest
      · exact List.forall_mem_append.2 ⟨playable_of_descriptionNotes? hown, ih hmore⟩

/-! ### Percussive content -/

/-- The notes that sound at a place are playable. -/
theorem Placed.Sounds.playable {place : Placed} (h : place.Sounds notes) :
    ∀ note ∈ notes, note.Playable := by
  obtain ⟨drum, pitch, v, hits, -, hpitch, -, hvelocity, hhits, rfl⟩ := h
  have hplayable := playable_gridNotes (drumPitch?_le hpitch) (velocity_mem hvelocity) hhits
  -- A delay changes neither the pitch nor the velocity.
  exact List.forall_mem_map.2 fun hit hhit =>
    ⟨(hplayable hit hhit).pitch, (hplayable hit hhit).velocity⟩

/-- The notes that sound at all places are playable. -/
theorem playable_of_sounds {places : List Placed} {hits : List (List Note)}
    (h : List.Forall₂ Placed.Sounds places hits) : ∀ note ∈ hits.flatten, note.Playable := by
  induction h with
  | nil => exact fun note hmem => absurd hmem List.not_mem_nil
  | cons hsound _ ih =>
      rw [List.flatten_cons]
      exact List.forall_mem_append.2 ⟨hsound.playable, ih⟩

/-- The notes of percussion are playable. -/
theorem playable_of_percussion {actions : List Action} (h : percussion actions = .ok notes) :
    ∀ note ∈ notes, note.Playable := by
  rw [percussion_eq] at h
  obtain ⟨unsorted, hunsorted, rfl⟩ := map_eq_ok.1 h
  obtain ⟨hits, hsounds, rfl⟩ := forall₂_of_layOut hunsorted
  exact fun note hmem => playable_of_sounds hsounds note (List.mem_mergeSort.1 hmem)

end Payload

/-- Every note of a payload has a pitch from 0 to 127 and a velocity from 1 to 127. -/
theorem playable_of_payload {capability : Capability} {actions : List Action} {notes : List Note}
    (h : payload capability actions = .ok notes) :
    ∀ note ∈ notes, note.pitch ≤ 127 ∧ 1 ≤ note.velocity ∧ note.velocity ≤ 127 := by
  have hplayable : ∀ note ∈ notes, note.Playable := by
    cases capability with
    | daw =>
        obtain rfl := Except.ok.inj h
        exact fun note hmem => absurd hmem List.not_mem_nil
    | arranger => exact Payload.playable_of_harmonyFrom h
    | drummer => exact Payload.playable_of_percussion h
  exact fun note hmem => ⟨(hplayable note hmem).pitch, (hplayable note hmem).velocity⟩

/-- An inverted chord at the upper end of the pitches, an arpeggio whose velocity has a fraction,
and a pattern with an accent and a ghost hit. -/
theorem playable_of_payload_fields :
    let chord : Action := ⟨Kind.chord, [("bass", .string "G"), ("chord", .string "C"),
      ("inversion", .nat 2), ("length", .nat 4), ("octave", .nat 10)]⟩
    let arpeggio : Action := ⟨Kind.arpeggio, [("chord", .string "Am"),
      ("direction", .string "updown"), ("length", .nat 1), ("velocity", .float 1.5)]⟩
    let pattern : Action :=
      ⟨Kind.drumPattern, [("drum", .string "kick"), ("grid", .string "X-xo")]⟩
    (∃ notes, payload .arranger [chord, arpeggio] = .ok notes ∧
        ∀ note ∈ notes, note.pitch ≤ 127 ∧ 1 ≤ note.velocity ∧ note.velocity ≤ 127) ∧
      ∃ notes, payload .drummer [pattern] = .ok notes ∧
        ∀ note ∈ notes, note.pitch ≤ 127 ∧ 1 ≤ note.velocity ∧ note.velocity ≤ 127 := by
  intro chord arpeggio pattern
  have harmony : (payload .arranger [chord, arpeggio]).toOption.isSome = true := by decide +kernel
  have percussion : (payload .drummer [pattern]).toOption.isSome = true := by decide +kernel
  constructor
  · obtain ⟨notes, hnotes⟩ := Option.isSome_iff_exists.1 harmony
    exact ⟨notes, toOption_eq_some.1 hnotes, playable_of_payload (toOption_eq_some.1 hnotes)⟩
  · obtain ⟨notes, hnotes⟩ := Option.isSome_iff_exists.1 percussion
    exact ⟨notes, toOption_eq_some.1 hnotes, playable_of_payload (toOption_eq_some.1 hnotes)⟩

end Studio
