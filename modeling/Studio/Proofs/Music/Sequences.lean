import Mathlib.Data.List.Chain
import Mathlib.Data.List.Nodup
import Studio.Music.Layout

/-!
# Sequences without gaps

Arpeggios and progressions place groups of notes one after another. A group starts at the very beat
at which the one in front of it ends, also where a repetition follows another
(`gapless_groupsFrom`). `sequences_gapless` says this of both layouts, and which pitches they have;
up and down, an arpeggio strikes no pitch twice in a row.
-/

namespace Studio.Music

/-- How a direction orders pitches. On the way back neither end is repeated, so that a single pitch
and a pair of pitches have no way back. -/
inductive Direction.Orders : Direction → List Nat → List Nat → Prop
  | up (pitches : List Nat) : Orders .up pitches pitches
  | down (pitches : List Nat) : Orders .down pitches pitches.reverse
  | single {pitches : List Nat} (h : pitches.length ≤ 1) : Orders .upDown pitches pitches
  | upDown (first : Nat) (inner : List Nat) (last : Nat) :
    Orders .upDown (first :: (inner ++ [last])) (first :: (inner ++ [last]) ++ inner.reverse)

/-- Groups of notes one after another, from a beat on. -/
structure Gapless (beat : Float) (groups : List (List Note)) : Prop where
  /-- The first group starts at the beat. -/
  start : ∀ group ∈ groups.head?, ∀ note ∈ group, note.start = beat
  /-- The notes of a group sound together. -/
  together : ∀ group ∈ groups, ∀ a ∈ group, ∀ b ∈ group,
    a.start = b.start ∧ a.duration = b.duration
  /-- A group starts where the notes of the one in front of it end. -/
  follows : groups.IsChain fun before after => ∀ a ∈ before, ∀ b ∈ after, b.start = a.stop

/-! ### Pitches in order -/

/-- Two pitches at least have two ends. -/
theorem exists_ends {pitches : List Nat} (h : 2 ≤ pitches.length) :
    ∃ first inner last, pitches = first :: (inner ++ [last]) := by
  cases pitches with
  | nil => cases h
  | cons first rest =>
      have hrest : rest ≠ [] := by
        rintro rfl
        cases h with
        | step h => cases h
      exact ⟨first, rest.dropLast, rest.getLast hrest,
        congrArg _ (List.dropLast_concat_getLast hrest).symm⟩

/-- Up and down, the first and the last pitch are played once. -/
theorem order_ends (first : Nat) (inner : List Nat) (last : Nat) :
    Direction.upDown.order (first :: (inner ++ [last])) =
      first :: (inner ++ [last]) ++ inner.reverse := by
  rw [Direction.order, List.drop_one, List.tail_cons, List.dropLast_concat]

/-- The order of a direction is the one that it asks for. -/
theorem orders_order (direction : Direction) (pitches : List Nat) :
    direction.Orders pitches (direction.order pitches) := by
  cases direction with
  | up => exact .up pitches
  | down => exact .down pitches
  | upDown =>
      by_cases hshort : pitches.length ≤ 1
      · have hinner : (pitches.drop 1).dropLast = [] := by
          rw [List.drop_eq_nil_of_le hshort, List.dropLast_nil]
        rw [Direction.order, hinner, List.reverse_nil, List.append_nil]
        exact .single hshort
      · obtain ⟨first, inner, last, rfl⟩ := exists_ends (by omega : 2 ≤ pitches.length)
        rw [order_ends]
        exact .upDown first inner last

/-! ### Neighbours -/

/-- Neighbours are related in the repetitions of a word, if they are in the word and where it meets
itself. -/
theorem isChain_flatten_replicate {α : Type} {R : α → α → Prop} {word : List α} (times : Nat)
    (h : word.IsChain R) (hwrap : ∀ last ∈ word.getLast?, ∀ first ∈ word.head?, R last first) :
    (List.replicate times word).flatten.IsChain R := by
  cases word with
  | nil => rw [List.flatten_replicate_nil]; exact .nil
  | cons first rest =>
      have hne : [] ∉ List.replicate times (first :: rest) := fun hmem =>
        List.cons_ne_nil _ _ (List.eq_of_mem_replicate hmem).symm
      refine (List.isChain_flatten hne).2 ⟨fun word hmem => ?_, ?_⟩
      · rw [List.eq_of_mem_replicate hmem]
        exact h
      · exact List.isChain_replicate_of_rel times hwrap

/-- Up and down, different pitches do not follow themselves. -/
theorem isChain_order {pitches : List Nat} (times : Nat) (h : 2 ≤ pitches.length)
    (distinct : pitches.Nodup) :
    (List.replicate times (Direction.upDown.order pitches)).flatten.IsChain (· ≠ ·) := by
  obtain ⟨first, inner, last, rfl⟩ := exists_ends h
  obtain ⟨hfirst, htail⟩ := List.nodup_cons.1 distinct
  obtain ⟨hinner, -, hlast⟩ := List.nodup_append.1 htail
  rw [order_ends]
  refine isChain_flatten_replicate times (.append distinct.isChain ?_ ?_) ?_
  · exact (List.nodup_reverse.2 hinner).isChain
  · intro turning hturning back hback
    rw [← List.cons_append, List.getLast?_concat] at hturning
    obtain rfl := Option.some.inj hturning
    have hmem := List.mem_reverse.1 (List.mem_of_mem_head? hback)
    exact (hlast back hmem last List.mem_cons_self).symm
  · intro final hfinal initial hinitial
    obtain rfl := Option.some.inj hinitial
    -- The word ends behind its first pitch, in the inner pitches or in the last one.
    have hmem : final ∈ inner ++ [last] ++ inner.reverse := by
      rw [List.cons_append, List.getLast?_cons_of_ne_nil (by simp)] at hfinal
      exact List.mem_of_getLast? hfinal
    rintro rfl
    rcases List.mem_append.1 hmem with hmem | hmem
    · exact hfirst hmem
    · exact hfirst (List.mem_append_left _ (List.mem_reverse.1 hmem))

/-! ### Groups of notes -/

/-- The groups of notes that are laid out one after another from a beat on. -/
def groupsFrom (velocity : Nat) (step beat : Float) : List (List Nat) → List (List Note)
  | [] => []
  | pitches :: rest =>
    pitches.map (fun pitch => ⟨pitch, velocity, beat, step⟩) ::
      groupsFrom velocity step (beat + step) rest

section

variable (velocity : Nat) (step beat : Float) (groups : List (List Nat))

/-- The notes of all groups are those that are laid out. -/
theorem flatten_groupsFrom :
    (groupsFrom velocity step beat groups).flatten = layFrom velocity step beat groups := by
  induction groups generalizing beat with
  | nil => rfl
  | cons pitches rest ih => rw [groupsFrom, List.flatten_cons, ih, layFrom]

/-- The groups of notes have the pitches they are laid out from. -/
theorem map_pitch_groupsFrom :
    (groupsFrom velocity step beat groups).map (List.map Note.pitch) = groups := by
  induction groups generalizing beat with
  | nil => rfl
  | cons pitches rest ih =>
      rw [groupsFrom, List.map_cons, ih, List.map_map]
      exact congrArg (· :: rest) (List.map_id pitches)

/-- The notes that are laid out have the pitches of the groups, one behind the other. -/
theorem map_pitch_layFrom :
    (layFrom velocity step beat groups).map Note.pitch = groups.flatten := by
  rw [← flatten_groupsFrom, List.map_flatten, map_pitch_groupsFrom]

/-- The next group starts a step later, which is where the notes of this one end. -/
theorem gapless_groupsFrom : Gapless beat (groupsFrom velocity step beat groups) := by
  induction groups generalizing beat with
  | nil => exact ⟨nofun, nofun, .nil⟩
  | cons pitches rest ih =>
      have hrest := ih (beat + step)
      have hown : ∀ note ∈ pitches.map (fun pitch => (⟨pitch, velocity, beat, step⟩ : Note)),
          note.start = beat ∧ note.duration = step :=
        List.forall_mem_map.2 fun pitch _ => ⟨rfl, rfl⟩
      refine ⟨?_, List.forall_mem_cons.2 ⟨?_, hrest.together⟩, List.isChain_cons.2 ⟨?_, ?_⟩⟩
      · rintro group ⟨⟩ note hnote
        exact (hown note hnote).1
      · intro a ha b hb
        exact ⟨(hown a ha).1.trans (hown b hb).1.symm, (hown a ha).2.trans (hown b hb).2.symm⟩
      · intro group hgroup a ha b hb
        rw [hrest.start group hgroup b hb, Note.stop, (hown a ha).1, (hown a ha).2]
      · exact hrest.follows

end

/-- Single notes one after another. -/
theorem Gapless.single {beat : Float} {notes : List Note}
    (h : Gapless beat (notes.map fun note => [note])) :
    (∀ note ∈ notes.head?, note.start = beat) ∧ notes.IsChain fun a b => b.start = a.stop := by
  refine ⟨fun note hnote => ?_, ((List.isChain_map _).1 h.follows).imp fun a b hstop => ?_⟩
  · refine h.start [note] ?_ note List.mem_cons_self
    rw [List.head?_map, Option.mem_def.1 hnote]
    rfl
  · exact hstop a List.mem_cons_self b List.mem_cons_self

/-- Groups of one pitch are laid out as single notes. -/
theorem groupsFrom_singles (velocity : Nat) (step beat : Float) (pitches : List Nat) :
    groupsFrom velocity step beat (pitches.map fun pitch => [pitch]) =
      (layFrom velocity step beat (pitches.map fun pitch => [pitch])).map fun note => [note] := by
  induction pitches generalizing beat with
  | nil => rfl
  | cons pitch rest ih =>
      rw [List.map_cons, groupsFrom, ih, layFrom]
      rfl

/-! ### Both layouts -/

/-- The groups of an arpeggio are single pitches. -/
theorem arpeggio_eq_layFrom (pitches : List Nat) (direction : Direction)
    (duration : Option Float) (shape : Shape) : ∃ step, arpeggio pitches direction duration shape =
      layFrom shape.velocity step shape.start
        ((List.replicate shape.times (direction.order pitches)).flatten.map
          fun pitch => [pitch]) := by
  refine ⟨arpeggioStep duration shape (direction.order pitches).length, ?_⟩
  rw [List.map_flatten, List.map_replicate, arpeggio]

/-- An arpeggio repeats its pitches in the order of the direction, and a progression its chords.
The first note starts with the shape, and every other note of an arpeggio exactly at the end of the
one in front of it. The notes of a chord start and end together, and each chord exactly at the end
of the one in front of it. Two or more different pitches are never struck twice in a row up and
down. -/
theorem sequences_gapless (pitches : List Nat) (direction : Direction) (duration : Option Float)
    (chords : List (List Nat)) (shape : Shape) :
    let notes := arpeggio pitches direction duration shape
    (∃ ordered, direction.Orders pitches ordered ∧
        notes.map Note.pitch = (List.replicate shape.times ordered).flatten) ∧
      (∀ note ∈ notes.head?, note.start = shape.start) ∧
      (notes.IsChain fun a b => b.start = a.stop) ∧
      (direction = .upDown → 2 ≤ pitches.length → pitches.Nodup →
        (notes.map Note.pitch).IsChain (· ≠ ·)) ∧
      ∃ groups : List (List Note), progression chords shape = groups.flatten ∧
        groups.map (List.map Note.pitch) = (List.replicate shape.times chords).flatten ∧
        Gapless shape.start groups := by
  intro notes
  obtain ⟨step, hnotes⟩ := arpeggio_eq_layFrom pitches direction duration shape
  have hpitches : notes.map Note.pitch =
      (List.replicate shape.times (direction.order pitches)).flatten := by
    rw [show notes = _ from hnotes, map_pitch_layFrom, ← List.flatMap_def, List.flatMap_singleton']
  have hsingle := gapless_groupsFrom shape.velocity step shape.start
    ((List.replicate shape.times (direction.order pitches)).flatten.map fun pitch => [pitch])
  rw [groupsFrom_singles, ← hnotes] at hsingle
  refine ⟨⟨_, orders_order direction pitches, hpitches⟩, hsingle.single.1, hsingle.single.2, ?_,
    groupsFrom shape.velocity (shape.length / Float.ofNat chords.length) shape.start
      (List.replicate shape.times chords).flatten, ?_, ?_, ?_⟩
  · rintro rfl hlength distinct
    rw [hpitches]
    exact isChain_order shape.times hlength distinct
  · exact (flatten_groupsFrom ..).symm
  · exact map_pitch_groupsFrom ..
  · exact gapless_groupsFrom ..

/-- A triad up and down, twice: the second time starts with the pitch that the first one does not
end with. -/
theorem sequences_gapless_triad :
    let notes := arpeggio [60, 64, 67] .upDown none ⟨4, 2, 100, 1⟩
    (2 ≤ [60, 64, 67].length ∧ [60, 64, 67].Nodup) ∧
      notes.map Note.pitch = [60, 64, 67, 64, 60, 64, 67, 64] ∧
      (∀ note ∈ notes.head?, note.start = 1) ∧
      (notes.IsChain fun a b => b.start = a.stop) ∧
      (notes.map Note.pitch).IsChain (· ≠ ·) := by
  intro notes
  obtain ⟨-, hstart, hfollows, hdistinct, -⟩ :=
    sequences_gapless [60, 64, 67] .upDown none [] ⟨4, 2, 100, 1⟩
  exact ⟨by decide, rfl, hstart, hfollows, hdistinct rfl (by decide) (by decide)⟩

end Studio.Music
