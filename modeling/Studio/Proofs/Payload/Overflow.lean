import Studio.Payload.Basic
import Studio.Proofs.Music.Machine
import Studio.Proofs.Payload.Harmony

/-!
# Payloads on a machine

The functions that lead to a payload are written with the operations of a machine. Whatever the
fields of actions hold, the machine comes to a payload or to a fault, with one exception
(`payload_stops`): the octave of a description can be so far off that the numbers of its chord are
no integers of 32 bits.
-/

namespace Studio.Machine

open Studio.Music
open Studio.Music.Chord (isWord)

/-! ### Faults of octaves -/

section

variable {α β : Type} {x : Except Fault α}

/-- The computation ends at an octave that is out of reach. -/
def OutOfReach (x : Except Fault α) : Prop :=
  ∃ octave, x = .error (.octaveOutOfReach octave)

/-- A sequence ends out of reach where its first part does, or where what follows a result does. -/
theorem outOfReach_bind {f : α → Except Fault β} :
    OutOfReach (x >>= f) ↔ OutOfReach x ∨ ∃ a, x = .ok a ∧ OutOfReach (f a) := by
  cases x with
  | error e => simp [OutOfReach, bind, Except.bind]
  | ok a => simp [OutOfReach, bind, Except.bind]

/-- A sequence stays within reach if all its parts do. -/
theorem not_outOfReach_bind {f : α → Except Fault β} (hx : ¬ OutOfReach x)
    (hf : ∀ a, ¬ OutOfReach (f a)) : ¬ OutOfReach (x >>= f) := by
  rintro h
  rcases outOfReach_bind.1 h with h | ⟨a, -, h⟩
  · exact hx h
  · exact hf a h

/-- A fault is out of reach just when it is the fault of an octave. -/
theorem outOfReach_error {e : Fault} :
    OutOfReach (.error e : Except Fault α) ↔ ∃ octave, e = .octaveOutOfReach octave := by
  simp [OutOfReach]

/-- A fault that is passed on is out of reach only where it comes from. -/
theorem not_outOfReach_error {e : Fault} (hx : x = .error e) (h : ¬ OutOfReach x) :
    ¬ OutOfReach (.error e : Except Fault β) := by
  rwa [outOfReach_error, ← @outOfReach_error α, ← hx]

/-- What is done with a result puts nothing out of reach. -/
theorem outOfReach_map {f : α → β} : OutOfReach (x.map f) ↔ OutOfReach x := by
  cases x <;> simp [OutOfReach, Except.map]

/-- There is a result behind a map just when there is one in front of it. -/
theorem exists_map_ok {f : α → β} : (∃ b, x.map f = .ok b) ↔ ∃ a, x = .ok a := by
  cases x <;> simp [Except.map]

/-- A result is not out of reach. -/
theorem not_outOfReach_ok (a : α) : ¬ OutOfReach (.ok a : Except Fault α) :=
  fun ⟨_, h⟩ => nomatch h

/-- A flaw of a description is not the fault of an octave. -/
theorem not_outOfReach_invalid (action : Action) (flaw : DescriptionFlaw) :
    ¬ OutOfReach (Payload.invalid action flaw : Except Fault α) :=
  fun ⟨_, h⟩ => nomatch h

/-- Where no octave is out of reach, a computation is lifted as it runs. -/
theorem lift_eq_run (h : ¬ OutOfReach x) : lift x = run x := by
  cases x with
  | ok a => rfl
  | error e =>
      cases e with
      | octaveOutOfReach octave => exact absurd ⟨octave, rfl⟩ h
      | _ => rfl

/-- A run traps only with an overflow, and just where an octave is out of reach. -/
theorem run_eq_trap {trap : Trap} :
    run x = .error (.trap trap) ↔ trap = .overflow ∧ OutOfReach x := by
  cases x with
  | ok a => simp [run, Except.mapError, OutOfReach]
  | error e => cases e <;> simp [run, Except.mapError, Stop.ofFault, OutOfReach, eq_comm]

end

/-- Reading a text never ends at an octave. -/
theorem not_outOfReach_requiredText (action : Action) (field : String) :
    ¬ OutOfReach (Payload.requiredText action field) := by
  unfold Payload.requiredText
  split
  · exact not_outOfReach_ok _
  · exact not_outOfReach_invalid _ _

/-- Reading a velocity never ends at an octave. -/
theorem not_outOfReach_velocity (action : Action) : ¬ OutOfReach (Payload.velocity action) := by
  unfold Payload.velocity
  dsimp only
  split
  · exact not_outOfReach_ok _
  · exact not_outOfReach_invalid _ _

/-- Reading the shape of a description never ends at an octave. -/
theorem not_outOfReach_shape (action : Action) (start : Float) :
    ¬ OutOfReach (Payload.shape action start) := by
  unfold Payload.shape
  cases action.number? "length" with
  | none => exact not_outOfReach_invalid action _
  | some length =>
      refine not_outOfReach_bind (not_outOfReach_ok length) fun length => ?_
      exact not_outOfReach_bind (not_outOfReach_velocity action) fun v => not_outOfReach_ok _

/-- Reading a symbol never ends at an octave. -/
theorem not_outOfReach_symbol (action : Action) : ¬ OutOfReach (Payload.symbol action) := by
  refine not_outOfReach_bind (not_outOfReach_requiredText action "chord") fun chord => ?_
  cases action.text? "bass" <;> exact not_outOfReach_ok _

/-- The notes of a pattern never end at an octave. -/
theorem not_outOfReach_patternNotes (settings : GridSettings) (action : Action) :
    ¬ OutOfReach (Payload.patternNotes settings action) := by
  refine not_outOfReach_bind (not_outOfReach_requiredText action "drum") fun drum => ?_
  cases drumPitch? drum with
  | none => exact fun ⟨_, h⟩ => nomatch h
  | some pitch =>
      refine not_outOfReach_bind (not_outOfReach_ok pitch) fun pitch => ?_
      refine not_outOfReach_bind (not_outOfReach_requiredText action "grid") fun grid => ?_
      refine not_outOfReach_bind (not_outOfReach_velocity action) fun v => ?_
      unfold gridNotes checkGrid
      cases grid.toList.find? fun c => !isGridChar c with
      | none => exact not_outOfReach_ok _
      | some c => exact fun ⟨_, h⟩ => nomatch h

/-- The hits of patterns and beats never end at an octave. -/
theorem not_outOfReach_hitsFrom (settings : GridSettings) (start : Float) (used : Bool)
    (actions : List Action) : ¬ OutOfReach (Payload.hitsFrom settings start used actions) := by
  fun_induction Payload.hitsFrom settings start used actions with
  | case1 => exact not_outOfReach_ok _
  | case2 _ _ _ _ _ _ ih => exact ih
  | case3 settings _ _ action _ _ _ e hpattern =>
      exact not_outOfReach_error hpattern (not_outOfReach_patternNotes settings action)
  | case4 _ _ _ _ _ _ _ _ _ _ hrest ih => exact not_outOfReach_error hrest ih
  | case5 => exact not_outOfReach_ok _
  | case6 _ _ _ _ _ _ _ ih => exact ih

/-- Percussive content has no octave. -/
theorem not_outOfReach_percussion (actions : List Action) :
    ¬ OutOfReach (Payload.percussion actions) := by
  rw [Payload.percussion]
  split
  · next hhits =>
    exact not_outOfReach_error hhits (not_outOfReach_hitsFrom {} 0 false actions)
  · exact not_outOfReach_ok _

/-! ### Notes -/

/-- The notes of an arpeggio, and the beats until the next description begins. -/
def arpeggioNotes (action : Action) (start : Float) : Run (List Note × Float) := do
  let shape ← lift (Payload.shape action start)
  let pitches ← resolve (← lift (Payload.symbol action)) (Payload.octave action)
  let direction := ((action.text? "direction").bind Direction.ofName?).getD .up
  let notes ← arpeggio pitches direction (action.number? "note_duration") shape
  match notes.getLast? with
  | some last => pure (notes, last.stop - start)
  | none => pure (notes, shape.span)

/-- The machine makes the notes of an arpeggio as the payload does. -/
theorem arpeggioNotes_eq (action : Action) (start : Float) :
    arpeggioNotes action start = run (Payload.arpeggioNotes action start) := by
  simp only [arpeggioNotes, Payload.arpeggioNotes, run_bind, resolve_eq, arpeggio_eq,
    lift_eq_run (not_outOfReach_shape action start), lift_eq_run (not_outOfReach_symbol action)]
  refine bind_congr fun shape => bind_congr fun symbol => bind_congr fun pitches => ?_
  simp only [bind, Except.bind]
  generalize Music.arpeggio pitches _ _ shape = notes
  cases notes.getLast? <;> rfl

/-- The notes of a chord, and the beats until the next description begins. -/
def chordNotes (action : Action) (start : Float) : Run (List Note × Float) := do
  let shape ← lift (Payload.shape action start)
  let pitches ← resolve (← lift (Payload.symbol action)) (Payload.octave action)
  let inversion := Number.toIndex ((action.number? "inversion").getD 0)
  let voiced ← voice pitches inversion (action.get? "bass").isSome
  pure (block voiced shape, shape.span)

/-- The machine makes the notes of a chord as the payload does. -/
theorem chordNotes_eq (action : Action) (start : Float) :
    chordNotes action start = run (Payload.chordNotes action start) := by
  simp only [chordNotes, Payload.chordNotes, run_bind, resolve_eq,
    lift_eq_run (not_outOfReach_shape action start), lift_eq_run (not_outOfReach_symbol action)]
  refine bind_congr fun shape => bind_congr fun symbol => bind_congr_ok fun pitches hpitches => ?_
  obtain ⟨chord, -, -, hne, rfl⟩ := Chord.resolve_eq_ok.1 (run_eq_ok.1 hpitches)
  rw [voice_eq hne]
  rfl

/-- The pitches of the chords of a progression. -/
def resolveAll (action : Action) : List Json → Run (List (List Nat))
  | [] => pure []
  | item :: rest => do
    let symbol ← match item.asString? with
      | some symbol => pure symbol
      | none => lift (Payload.invalid action .chordNotText)
    let pitches ← resolve symbol (Payload.octave action)
    let more ← resolveAll action rest
    pure (pitches :: more)

/-- The machine resolves the symbols of a progression as the payload does. -/
theorem resolveAll_eq (action : Action) (items : List Json) :
    resolveAll action items = run (Payload.resolveAll action items) := by
  induction items with
  | nil => rfl
  | cons item rest ih =>
      rw [resolveAll, Payload.resolveAll]
      cases item.asString? with
      | none => rfl
      | some symbol =>
          simp only [resolve_eq, ih, pure_bind]
          cases Chord.resolve symbol (Payload.octave action) with
          | error e => rfl
          | ok pitches => cases Payload.resolveAll action rest <;> rfl

/-- The notes of a progression, and the beats until the next description begins. -/
def progressionNotes (action : Action) (start : Float) : Run (List Note × Float) := do
  let shape ← lift (Payload.shape action start)
  let symbols ← match (action.get? "chords").bind Json.asArray? with
    | some symbols => pure symbols
    | none => lift (Payload.invalid action (.missing "chords"))
  let chords ← resolveAll action symbols
  pure (progression chords shape, shape.span)

/-- The machine makes the notes of a progression as the payload does. -/
theorem progressionNotes_eq (action : Action) (start : Float) :
    progressionNotes action start = run (Payload.progressionNotes action start) := by
  unfold progressionNotes Payload.progressionNotes
  rw [run_bind, lift_eq_run (not_outOfReach_shape action start)]
  refine bind_congr fun shape => ?_
  cases (action.get? "chords").bind Json.asArray? with
  | none => rfl
  | some items =>
      simp only [resolveAll_eq, pure_bind, run_bind]
      rfl

/-- The notes of one description, and the beats until the next one begins. -/
def descriptionNotes? (action : Action) (start : Float) : Option (Run (List Note × Float)) :=
  if action.kind = Action.Kind.arpeggio then some (arpeggioNotes action start)
  else if action.kind = Action.Kind.chord then some (chordNotes action start)
  else if action.kind = Action.Kind.progression then some (progressionNotes action start)
  else none

/-- The machine makes the notes of any description as the payload does. -/
theorem descriptionNotes?_eq (action : Action) (start : Float) :
    descriptionNotes? action start = (Payload.descriptionNotes? action start).map run := by
  unfold descriptionNotes? Payload.descriptionNotes?
  rw [arpeggioNotes_eq, chordNotes_eq, progressionNotes_eq]
  split
  · rfl
  · split
    · rfl
    · split <;> rfl

/-- The notes of descriptions from a beat on. -/
def harmonyFrom (start : Float) : List Action → Run (List Note)
  | [] => pure []
  | action :: rest =>
    match descriptionNotes? action start with
    | none => harmonyFrom start rest
    | some notes => do
      let (notes, span) ← notes
      let more ← harmonyFrom (start + span) rest
      pure (notes ++ more)

/-- The machine lays harmony out as the payload does. -/
theorem harmonyFrom_eq (start : Float) (actions : List Action) :
    harmonyFrom start actions = run (Payload.harmonyFrom start actions) := by
  induction actions generalizing start with
  | nil => rfl
  | cons action rest ih =>
      rw [harmonyFrom, Payload.harmonyFrom, descriptionNotes?_eq]
      cases Payload.descriptionNotes? action start with
      | none => exact ih start
      | some result =>
          cases result with
          | error e => rfl
          | ok found =>
              obtain ⟨notes, span⟩ := found
              show (harmonyFrom (start + span) rest >>= _) = _
              rw [ih]
              dsimp only
              cases Payload.harmonyFrom (start + span) rest <;> rfl

/-- The notes that actions of a capability describe. To lay out grids takes no operation that could
stop a machine: cells and bars are counted and compared, and sums are of numbers with fractions. -/
def payload : Capability → List Action → Run (List Note)
  | .daw, _ => pure []
  | .arranger, actions => harmonyFrom 0 actions
  | .drummer, actions => lift (Payload.percussion actions)

/-- The machine comes to the payload, or to the trap that stands for it. -/
theorem payload_eq (capability : Capability) (actions : List Action) :
    payload capability actions = run (Studio.payload capability actions) := by
  cases capability with
  | daw => rfl
  | arranger => exact harmonyFrom_eq 0 actions
  | drummer => exact lift_eq_run (not_outOfReach_percussion actions)

/-! ### Integers in fields -/

/-- What is read from the fields of an action are integers of the types that a machine has for them:
32 bits with a sign for octaves, 32 bits for bars and subdivisions, 64 bits for repetitions and
inversions, and a byte for velocities. -/
structure FieldsFit (action : Action) : Prop where
  octave : isWord (Payload.octave action) = true
  subdivision : (Payload.beatSettings action).subdivision < 2 ^ 32
  bars : (Payload.beatSettings action).bars < 2 ^ 32
  times : ∀ start shape, Payload.shape action start = .ok shape → shape.times < 2 ^ 64
  inversion : Number.toIndex ((action.number? "inversion").getD 0) < 2 ^ 64
  velocity : ∀ v, Payload.velocity action = .ok v → v < 2 ^ 8

/-- A double that is cut to an index has 64 bits. -/
theorem toIndex_lt (x : Float) : Number.toIndex x < 2 ^ 64 := by
  have hmem := @Number.truncateInto_mem 0 (Number.indexBound - 1 : Nat) x (by decide) (by decide)
  unfold Number.toIndex
  unfold Number.indexBound at *
  omega

/-- A field that is read as a word has 32 bits, if its default has. -/
theorem word_lt (action : Action) (field : String) {default : Nat} (h : default < 2 ^ 32) :
    Payload.word action field default < 2 ^ 32 := by
  unfold Payload.word
  split
  · next x _ =>
    have hmem := @Number.truncateInto_mem 0 0xFFFFFFFF x (by decide) (by decide)
    omega
  · exact h

/-- Numbers that are too large for a type become its largest integer. -/
theorem fieldsFit (action : Action) : FieldsFit action where
  octave := by
    have hmem := @Number.truncateInto_mem (-0x80000000) 0x7FFFFFFF
      ((action.number? "octave").getD 4) (by decide) (by decide)
    rw [Chord.isWord_iff, Payload.octave]
    omega
  subdivision := word_lt action "subdivision" (by decide)
  bars := word_lt action "bars" (by decide)
  times := by
    intro start shape h
    obtain ⟨length, v, -, -, rfl⟩ := Payload.shape_eq_ok.1 h
    exact toIndex_lt _
  inversion := toIndex_lt _
  velocity := by
    intro v h
    have hmem := Payload.velocity_mem h
    omega

/-! ### Where integers overflow -/

/-- A number that leads to the pitches of the chord is no integer of 32 bits: that of the octave,
that of the octave of the bass, or that of a tone. -/
def ChordOverflows (chord : Chord) (octave : Int) : Prop :=
  octave * 12 < -0x80000000 ∨ (chord.bass.isSome ∧ (octave - 1) * 12 < -0x80000000) ∨
    ∃ interval ∈ chord.intervals, 0x7FFFFFFF < octave * 12 + chord.root + (interval : Int)

/-- A symbol overflows if it is one of a chord, and that overflows. -/
def SymbolOverflows (symbol : String) (octave : Int) : Prop :=
  ∃ chord, Chord.parse symbol = .ok chord ∧ ChordOverflows chord octave

/-- A description overflows if its shape is right and its chord overflows, or the first of its
chords that does not resolve. -/
def Overflows (action : Action) : Prop :=
  (∃ shape, Payload.shape action 0 = .ok shape) ∧
    ((action.kind = Action.Kind.arpeggio ∨ action.kind = Action.Kind.chord) ∧
        (∃ symbol, Payload.symbol action = .ok symbol ∧
          SymbolOverflows symbol (Payload.octave action)) ∨
      action.kind = Action.Kind.progression ∧ ∃ before item after,
        (action.get? "chords").bind Json.asArray? = some (before ++ item :: after) ∧
          (∃ chords, Payload.resolveAll action before = .ok chords) ∧
          ∃ symbol, item.asString? = some symbol ∧
            SymbolOverflows symbol (Payload.octave action))

/-- All other numbers lie between those that are looked at. -/
theorem chordOverflows_iff {symbol : String} {chord : Chord} (h : Chord.parse symbol = .ok chord)
    (octave : Int) : ChordOverflows chord octave ↔ chord.reaches octave = false := by
  rw [← Bool.not_eq_true, ← not_iff_not, not_not]
  simp only [ChordOverflows, Chord.reaches, Bool.and_eq_true, List.all_eq_true,
    Option.all_eq_true, Chord.isWord_iff, Chord.tone]
  constructor
  · intro hwithin
    simp only [not_or, not_and, not_exists, not_lt] at hwithin
    obtain ⟨hoctave, hbass, htones⟩ := hwithin
    obtain ⟨third, fifth, more, hintervals, -⟩ := Chord.exists_triad h
    have hroot := htones 0 (by rw [hintervals]; exact List.mem_cons_self)
    refine ⟨⟨⟨by omega, fun interval hinterval => ?_⟩, by omega⟩, fun bass hsome => ?_⟩
    · have htone := htones interval hinterval
      omega
    · have hbelow := hbass (by rw [hsome]; rfl)
      have hlow := Chord.bass_lt h hsome
      omega
  · rintro ⟨⟨⟨hoctave, htones⟩, -⟩, hbass⟩
    simp only [not_or, not_and, not_exists, not_lt]
    refine ⟨by omega, fun hsome => ?_, fun interval hinterval => ?_⟩
    · obtain ⟨bass, hbass'⟩ := Option.isSome_iff_exists.1 hsome
      have hbelow := (hbass bass hbass').1.2
      omega
    · have htone := htones interval hinterval
      omega

/-- The bass of a symbol never ends at an octave. -/
theorem not_outOfReach_bassOf (symbol : String) (slash : Option (List Char)) :
    ¬ OutOfReach (Chord.bassOf symbol slash) := by
  unfold Chord.bassOf
  split
  · exact not_outOfReach_ok _
  · split
    · exact not_outOfReach_ok _
    · exact fun ⟨_, h⟩ => nomatch h

/-- Parsing a symbol never ends at an octave. -/
theorem not_outOfReach_parse (symbol : String) : ¬ OutOfReach (Chord.parse symbol) := by
  rw [Chord.parse_eq]
  cases Chord.readPitchClass? (Chord.parts symbol.toList).1 with
  | none => exact fun ⟨_, h⟩ => nomatch h
  | some found =>
      obtain ⟨root, rest⟩ := found
      cases hbass : Chord.bassOf symbol (Chord.parts symbol.toList).2 with
      | error e => exact not_outOfReach_error hbass (not_outOfReach_bassOf symbol _)
      | ok bass =>
          dsimp only
          cases Chord.readExtensions (Chord.readTriad rest).2 with
          | error unread => exact fun ⟨_, h⟩ => nomatch h
          | ok added => exact not_outOfReach_ok _

/-- Resolving a symbol ends out of reach just when the numbers of its pitches overflow. -/
theorem outOfReach_resolve (symbol : String) (octave : Int) :
    OutOfReach (Chord.resolve symbol octave) ↔ SymbolOverflows symbol octave := by
  unfold Chord.resolve SymbolOverflows
  cases hparse : Chord.parse symbol with
  | error e =>
      have hnot : ¬ OutOfReach (.error e : Except Fault (List Nat)) :=
        not_outOfReach_error hparse (not_outOfReach_parse symbol)
      simpa using hnot
  | ok chord =>
      simp only [Except.ok.injEq, exists_eq_left', chordOverflows_iff hparse]
      cases chord.reaches octave with
      | false => simp [OutOfReach]
      | true => cases (chord.pitches octave).isEmpty <;> simp [OutOfReach]

/-- What holds of a place in a list holds of its first element, or of a place behind it. -/
theorem exists_place_cons {α : Type} {head : α} {tail : List α} {P : List α → α → Prop} :
    (∃ before a after, head :: tail = before ++ a :: after ∧ P before a) ↔
      P [] head ∨ ∃ before a after, tail = before ++ a :: after ∧ P (head :: before) a := by
  constructor
  · rintro ⟨_ | ⟨first, before⟩, a, after, hlist, hp⟩
    · obtain ⟨rfl, rfl⟩ := List.cons.inj hlist
      exact .inl hp
    · obtain ⟨rfl, rfl⟩ := List.cons.inj hlist
      exact .inr ⟨before, a, after, rfl, hp⟩
  · rintro (hp | ⟨before, a, after, rfl, hp⟩)
    · exact ⟨[], head, tail, rfl, hp⟩
    · exact ⟨head :: before, a, after, rfl, hp⟩

/-- A progression is out of reach just when one of its symbols overflows and all those before it
resolve. -/
theorem outOfReach_resolveAll (action : Action) (items : List Json) :
    OutOfReach (Payload.resolveAll action items) ↔ ∃ before item after,
      items = before ++ item :: after ∧
        (∃ chords, Payload.resolveAll action before = .ok chords) ∧
        ∃ symbol, item.asString? = some symbol ∧
          SymbolOverflows symbol (Payload.octave action) := by
  induction items with
  | nil => simp [Payload.resolveAll, OutOfReach]
  | cons item rest ih =>
      rw [exists_place_cons]
      cases hitem : item.asString? with
      | none =>
          have hfail (items : List Json) : Payload.resolveAll action (item :: items) =
              Payload.invalid action .chordNotText := by
            rw [Payload.resolveAll, hitem]
          refine iff_of_false (hfail rest ▸ not_outOfReach_invalid _ _) ?_
          rintro (⟨-, symbol, hsymbol, -⟩ | ⟨before, -, -, -, ⟨chords, hbefore⟩, -⟩)
          · cases hsymbol
          · cases (hfail before).symm.trans hbefore
      | some symbol =>
          have hsymbol := outOfReach_resolve symbol (Payload.octave action)
          cases hresolve : Chord.resolve symbol (Payload.octave action) with
          | error e =>
              have hfail (items : List Json) :
                  Payload.resolveAll action (item :: items) = .error e := by
                simp only [Payload.resolveAll, hitem, hresolve]
              have hfirst : ∃ chords, Payload.resolveAll action [] = .ok chords := ⟨[], rfl⟩
              rw [hresolve, outOfReach_error] at hsymbol
              simp only [hfail, outOfReach_error, hsymbol, hfirst, true_and, Option.some.injEq,
                exists_eq_left', reduceCtorEq, exists_false, false_and, and_false, or_false]
          | ok pitches =>
              have hcons (items : List Json) : Payload.resolveAll action (item :: items) =
                  (Payload.resolveAll action items).map (pitches :: ·) := by
                simp only [Payload.resolveAll, hitem, hresolve]
                cases Payload.resolveAll action items <;> rfl
              have hnot : ¬ SymbolOverflows symbol (Payload.octave action) :=
                fun h => not_outOfReach_ok pitches (hresolve ▸ hsymbol.2 h)
              simp only [hcons, outOfReach_map, exists_map_ok, ih, Option.some.injEq,
                exists_eq_left', hnot, and_false, false_or]

/-- Where a chord is laid out, only its resolution asks for an octave. -/
theorem outOfReach_sounding {α : Type} (action : Action) (start : Float)
    {f : Shape → List Nat → Except Fault α} (hf : ∀ shape pitches, ¬ OutOfReach (f shape pitches)) :
    OutOfReach (do
      let shape ← Payload.shape action start
      let pitches ← Chord.resolve (← Payload.symbol action) (Payload.octave action)
      f shape pitches) ↔
    (∃ shape, Payload.shape action 0 = .ok shape) ∧
      ∃ symbol, Payload.symbol action = .ok symbol ∧
        SymbolOverflows symbol (Payload.octave action) := by
  rw [← Payload.exists_shape_iff action start]
  simp only [outOfReach_bind, not_outOfReach_shape, not_outOfReach_symbol, outOfReach_resolve, hf,
    false_or, and_false, exists_false, or_false, exists_and_right]

/-- An arpeggio is out of reach just when it has a shape and its symbol overflows. -/
theorem outOfReach_arpeggioNotes (action : Action) (start : Float) :
    OutOfReach (Payload.arpeggioNotes action start) ↔
      (∃ shape, Payload.shape action 0 = .ok shape) ∧
        ∃ symbol, Payload.symbol action = .ok symbol ∧
          SymbolOverflows symbol (Payload.octave action) := by
  refine outOfReach_sounding action start fun shape pitches => ?_
  dsimp only
  split <;> exact not_outOfReach_ok _

/-- A chord is out of reach just when it has a shape and its symbol overflows. -/
theorem outOfReach_chordNotes (action : Action) (start : Float) :
    OutOfReach (Payload.chordNotes action start) ↔
      (∃ shape, Payload.shape action 0 = .ok shape) ∧
        ∃ symbol, Payload.symbol action = .ok symbol ∧
          SymbolOverflows symbol (Payload.octave action) :=
  outOfReach_sounding action start fun _ _ => not_outOfReach_ok _

/-- A progression ends out of reach just when it has a shape, and one of its symbols overflows
behind symbols that resolve. -/
theorem outOfReach_progressionNotes (action : Action) (start : Float) :
    OutOfReach (Payload.progressionNotes action start) ↔
      (∃ shape, Payload.shape action 0 = .ok shape) ∧ ∃ before item after,
        (action.get? "chords").bind Json.asArray? = some (before ++ item :: after) ∧
          (∃ chords, Payload.resolveAll action before = .ok chords) ∧
          ∃ symbol, item.asString? = some symbol ∧
            SymbolOverflows symbol (Payload.octave action) := by
  rw [← Payload.exists_shape_iff action start, Payload.progressionNotes, outOfReach_bind]
  cases (action.get? "chords").bind Json.asArray? with
  | none =>
      refine iff_of_false ?_ fun ⟨_, _, _, _, hitems, _⟩ => nomatch hitems
      rintro (h | ⟨shape, -, h⟩)
      · exact not_outOfReach_shape action start h
      · exact not_outOfReach_invalid _ _ h
  | some items =>
      simp only [not_outOfReach_shape, false_or, pure_bind, outOfReach_bind, Option.some.injEq,
        outOfReach_resolveAll]
      have hlaid (chords : List (List Nat)) (shape : Shape) :
          ¬ OutOfReach (pure (progression chords shape, shape.span) :
            Except Fault (List Note × Float)) := not_outOfReach_ok _
      simp only [hlaid, and_false, exists_false, or_false, exists_and_right]

/-- A description ends out of reach just when it overflows. -/
theorem outOfReach_descriptionNotes? (action : Action) (start : Float) :
    (∃ result, Payload.descriptionNotes? action start = some result ∧ OutOfReach result) ↔
      Overflows action := by
  obtain ⟨hother, hthird, hlast⟩ : Action.Kind.chord ≠ Action.Kind.arpeggio ∧
      Action.Kind.progression ≠ Action.Kind.arpeggio ∧
      Action.Kind.progression ≠ Action.Kind.chord := by decide
  unfold Payload.descriptionNotes? Overflows
  by_cases harpeggio : action.kind = Action.Kind.arpeggio
  · simp only [harpeggio, if_true, Option.some.injEq, exists_eq_left', outOfReach_arpeggioNotes,
      true_or, true_and, hthird.symm, false_and, or_false]
  · by_cases hchord : action.kind = Action.Kind.chord
    · simp only [hchord, hother, if_true, if_false, Option.some.injEq, exists_eq_left',
        outOfReach_chordNotes, or_true, true_and, hlast.symm, false_and, or_false]
    · by_cases hprogression : action.kind = Action.Kind.progression
      · simp only [hprogression, hthird, hlast, if_true, if_false, Option.some.injEq,
          exists_eq_left', outOfReach_progressionNotes, or_self, false_and, false_or, true_and]
      · simp only [harpeggio, hchord, hprogression, if_false, reduceCtorEq, false_and,
          exists_false, or_self, and_false]

/-- Harmony ends out of reach just when a description overflows behind descriptions that have
notes. -/
theorem outOfReach_harmonyFrom (start : Float) (actions : List Action) :
    OutOfReach (Payload.harmonyFrom start actions) ↔ ∃ before action after,
      actions = before ++ action :: after ∧
        (∃ notes, Payload.harmonyFrom start before = .ok notes) ∧ Overflows action := by
  induction actions generalizing start with
  | nil => simp [Payload.harmonyFrom, OutOfReach]
  | cons action rest ih =>
      have hown := outOfReach_descriptionNotes? action start
      rw [exists_place_cons]
      cases hnotes : Payload.descriptionNotes? action start with
      | none =>
          have hskip (actions : List Action) : Payload.harmonyFrom start (action :: actions) =
              Payload.harmonyFrom start actions := by
            simp only [Payload.harmonyFrom, hnotes]
          have hnot : ¬ Overflows action := by simp [← hown, hnotes]
          simp only [hskip, ih, hnot, and_false, false_or]
      | some result =>
          simp only [hnotes, Option.some.injEq, exists_eq_left'] at hown
          cases result with
          | error e =>
              have hfail (actions : List Action) :
                  Payload.harmonyFrom start (action :: actions) = .error e := by
                simp only [Payload.harmonyFrom, hnotes]
              have hfirst : ∃ notes, Payload.harmonyFrom start [] = .ok notes := ⟨[], rfl⟩
              rw [outOfReach_error] at hown
              simp only [hfail, outOfReach_error, hown, hfirst, true_and, reduceCtorEq,
                exists_false, false_and, and_false, or_false]
          | ok found =>
              obtain ⟨notes, span⟩ := found
              have hcons (actions : List Action) : Payload.harmonyFrom start (action :: actions) =
                  (Payload.harmonyFrom (start + span) actions).map (notes ++ ·) := by
                simp only [Payload.harmonyFrom, hnotes]
                cases Payload.harmonyFrom (start + span) actions <;> rfl
              have hnot : ¬ Overflows action := fun h => not_outOfReach_ok _ (hown.2 h)
              simp only [hcons, outOfReach_map, exists_map_ok, ih, hnot, and_false, false_or]

/-- No chord of a description overflows in an octave that is not far off. -/
theorem not_overflows_of_near {action : Action}
    (h : -178956969 ≤ Payload.octave action ∧ Payload.octave action ≤ 178956967) :
    ¬ Overflows action := by
  have hnot (symbol : String) : ¬ SymbolOverflows symbol (Payload.octave action) := by
    rintro ⟨chord, hparse, hoverflows⟩
    have hreaches := Chord.reaches_of_near hparse h.1 h.2
    rw [(chordOverflows_iff hparse _).1 hoverflows] at hreaches
    cases hreaches
  rintro ⟨-, ⟨-, symbol, -, hsymbol⟩ | ⟨-, -, -, -, -, -, symbol, -, hsymbol⟩⟩
  · exact hnot symbol hsymbol
  · exact hnot symbol hsymbol

/-- An integer overflows just where harmonic content, up to a description that overflows, has
notes. -/
theorem payload_eq_trap {capability : Capability} {actions : List Action} {trap : Trap} :
    payload capability actions = .error (.trap trap) ↔
      trap = .overflow ∧ capability = .arranger ∧ ∃ before action after,
        actions = before ++ action :: after ∧
          (∃ notes, Payload.harmony before = .ok notes) ∧ Overflows action := by
  rw [payload_eq, run_eq_trap]
  refine and_congr_right fun _ => ?_
  cases capability with
  | daw => exact iff_of_false (not_outOfReach_ok _) fun h => nomatch h.1
  | arranger => exact (outOfReach_harmonyFrom 0 actions).trans ⟨fun h => ⟨rfl, h⟩, And.right⟩
  | drummer => exact iff_of_false (not_outOfReach_percussion actions) fun h => nomatch h.1

/-- What is read from fields fits into its types, and a machine comes to the payload or to its
fault, unless an integer overflows. No index is ever out of bounds, and no integer overflows but in
the octave of harmonic content; in octaves that are not far off it does not either. -/
theorem payload_stops (capability : Capability) (actions : List Action) :
    (∀ action ∈ actions, FieldsFit action) ∧
      payload capability actions = run (Studio.payload capability actions) ∧
      (∀ trap, payload capability actions = .error (.trap trap) ↔
        trap = .overflow ∧ capability = .arranger ∧ ∃ before action after,
          actions = before ++ action :: after ∧
            (∃ notes, Payload.harmony before = .ok notes) ∧ Overflows action) ∧
      ((∀ action ∈ actions,
          -178956969 ≤ Payload.octave action ∧ Payload.octave action ≤ 178956967) →
        (∃ notes, payload capability actions = .ok notes) ∨
          ∃ fault, payload capability actions = .error (.fault fault)) := by
  refine ⟨fun action _ => fieldsFit action, payload_eq capability actions,
    fun trap => payload_eq_trap, fun hnear => ?_⟩
  cases hresult : payload capability actions with
  | ok notes => exact .inl ⟨notes, rfl⟩
  | error stop =>
      cases stop with
      | fault fault => exact .inr ⟨fault, rfl⟩
      | trap trap =>
          obtain ⟨-, -, before, action, after, rfl, -, hoverflows⟩ := payload_eq_trap.1 hresult
          have hmem : action ∈ before ++ action :: after := by simp
          exact absurd hoverflows (not_overflows_of_near (hnear action hmem))

/-- The chord C in an octave. -/
def chordIn (octave : Nat) : Action :=
  ⟨Action.Kind.chord, [("chord", .string "C"), ("length", .nat 4), ("octave", .nat octave)]⟩

/-- The octave is the least whose pitches need more than 32 bits. -/
theorem overflows_chordIn : Overflows (chordIn 357913942) := by
  have hshape : (Payload.shape (chordIn 357913942) 0).toOption.isSome = true := by decide +kernel
  have hparse : (Chord.parse "C").toOption = some ⟨0, [0, 4, 7], none⟩ := by decide +kernel
  have hoctave : Payload.octave (chordIn 357913942) = 357913942 := by decide +kernel
  obtain ⟨shape, hshape⟩ := Option.isSome_iff_exists.1 hshape
  refine ⟨⟨shape, toOption_eq_some.1 hshape⟩, .inl ⟨.inr rfl, "C", rfl, _,
    toOption_eq_some.1 hparse, ?_⟩⟩
  rw [hoctave]
  exact .inr (.inr ⟨0, by decide, by decide⟩)

/-- In the fifth octave the chord does not stop the machine; far above, it does. -/
theorem payload_stops_chord :
    ((∃ notes, payload .arranger [chordIn 5] = .ok notes) ∨
        ∃ fault, payload .arranger [chordIn 5] = .error (.fault fault)) ∧
      payload .arranger [chordIn 357913942] = .error (.trap .overflow) := by
  obtain ⟨-, -, -, hnear⟩ := payload_stops .arranger [chordIn 5]
  obtain ⟨-, -, htrap, -⟩ := payload_stops .arranger [chordIn 357913942]
  refine ⟨hnear (List.forall_mem_singleton.2 (by decide +kernel)), ?_⟩
  exact (htrap .overflow).2 ⟨rfl, rfl, [], _, [], rfl, ⟨[], rfl⟩, overflows_chordIn⟩

/-- Far above no tone of the chord is a pitch. That is a fault, but the machine does not come to
it. -/
theorem overflow_not_reported :
    ∃ chord, Chord.parse "C" = .ok chord ∧ chord.pitches 357913942 = [] ∧
      ¬ ((∃ notes, payload .arranger [chordIn 357913942] = .ok notes) ∨
        ∃ fault, payload .arranger [chordIn 357913942] = .error (.fault fault)) := by
  have hparse : (Chord.parse "C").toOption = some ⟨0, [0, 4, 7], none⟩ := by decide +kernel
  have htrap : payload .arranger [chordIn 357913942] = .error (.trap .overflow) :=
    payload_eq_trap.2 ⟨rfl, rfl, [], _, [], rfl, ⟨[], rfl⟩, overflows_chordIn⟩
  refine ⟨_, toOption_eq_some.1 hparse, by decide, ?_⟩
  rw [htrap]
  rintro (⟨notes, h⟩ | ⟨fault, h⟩)
  · cases h
  · cases Except.error.inj h

end Studio.Machine
