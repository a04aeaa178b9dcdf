import Studio.Payload.Basic
import Studio.Proofs.Methods.Effects
import Studio.Proofs.Music.Symbols
import Studio.Proofs.Number.Exactness

/-!
# Notes of what methods make

What the methods of music make is checked when it is made, and read again when notes are laid out
for it. Both agree but for one thing: a length may be infinite, which an action has no number for.
`Payload.harmonyFrom_eq_ok` and `Payload.harmonyFrom_eq_error` say when descriptions of harmonic
content have notes; patterns of drums always have them (`Payload.exists_percussion`).
-/

namespace Studio

open Studio.Action

/-! ### Numbers in fields -/

/-- The number rule has no number for a double that is not finite. -/
theorem Json.ofNumber_eq_null {x : Float} : Json.ofNumber x = .null ↔ x.isFinite = false := by
  unfold ofNumber
  split
  · next n hinteger =>
    unfold Number.asInteger? at hinteger
    split at hinteger
    · next negative magnitude hread =>
      have hfinite := (Number.isFinite_iff x).2 ⟨negative, magnitude, hread⟩
      simp [hfinite]
    · cases hinteger
  · cases hfinite : x.isFinite <;> simp [ofFloat, hfinite]

/-- A number that is not written as null is read back as some number. -/
theorem Json.exists_asFloat?_ofNumber {x : Float} (h : ofNumber x ≠ .null) :
    ∃ y, (ofNumber x).asFloat? = some y := by
  unfold ofNumber at h ⊢
  split
  · exact ⟨_, rfl⟩
  · next hnone =>
    rw [hnone] at h
    unfold ofFloat at h ⊢
    split
    · exact ⟨_, rfl⟩
    · next hinfinite => exact absurd (if_neg hinfinite) h

/-- A field that holds a whole number has its double. -/
theorem Action.number?_nat {action : Action} {field : String} {n : Nat}
    (h : action.get? field = some (.nat n)) : action.number? field = some (Float.ofInt n) := by
  rw [number?, h]
  rfl

/-- A field that holds a text has this text. -/
theorem Action.text?_string {action : Action} {field text : String}
    (h : action.get? field = some (.string text)) : action.text? field = some text := by
  rw [text?, h]
  rfl

namespace Payload

open Studio.Music

variable {action : Action}

/-- A velocity that a description gives is read as it is. -/
theorem velocity_eq_ok {v : Nat} (h : action.get? "velocity" = some (.nat v)) (hleast : 1 ≤ v)
    (hmost : v ≤ 127) : velocity action = .ok v := by
  have htruncate : Number.truncateInto (-0x8000000000000000) 0x7FFFFFFFFFFFFFFF
      (Float.ofInt v) = v :=
    Number.truncateInto_ofInt (by omega) (by omega) (by omega)
  have hread : Note.velocityOf? (Float.ofInt v) = some v := by
    have hbounds : 1 ≤ (v : Int) ∧ (v : Int) ≤ 127 := by omega
    rw [Note.velocityOf?, htruncate]
    simp [hbounds]
  rw [velocity, Action.number?_nat h, Option.getD_some, hread]

/-- An octave up to nine is read back. -/
theorem octave_eq {n : Nat} (h : action.get? "octave" = some (.nat n)) (hmost : n ≤ 9) :
    octave action = n := by
  rw [octave, Action.number?_nat h, Option.getD_some]
  exact Number.truncateInto_ofInt (by omega) (by omega) (by omega)

/-- Without a number for the length there is no shape. -/
theorem shape_of_null (h : action.get? "length" = some .null) (start : Float) :
    shape action start = invalid action (.missing "length") := by
  have hnumber : action.number? "length" = none := by
    rw [Action.number?, h]
    rfl
  rw [shape, hnumber]
  rfl

/-- A description has a shape when its length is a number and its velocity is valid. -/
theorem exists_shape {length : Float} {v : Nat}
    (hlength : action.get? "length" = some (.ofNumber length))
    (hnumber : Json.ofNumber length ≠ .null) (hvelocity : velocity action = .ok v)
    (start : Float) : ∃ result, shape action start = .ok result := by
  obtain ⟨x, hx⟩ := Json.exists_asFloat?_ofNumber hnumber
  have hread : action.number? "length" = some x := by
    rw [Action.number?, hlength]
    exact hx
  rw [shape, hread, hvelocity]
  exact ⟨_, rfl⟩

/-- An action that describes harmonic content: it has a length, and there are notes for it wherever
it begins unless that length is null. -/
structure Harmonic (action : Action) : Prop where
  length : ∃ length : Float, ¬ length ≤ 0 ∧ action.get? "length" = some (.ofNumber length)
  faulty : action.get? "length" = some .null → ∀ start,
    descriptionNotes? action start = some (invalid action (.missing "length"))
  sound : action.get? "length" ≠ some .null → ∀ start, ∃ result,
    descriptionNotes? action start = some (.ok result)

/-- The pitches of a description that has a symbol. -/
def HasPitches (action : Action) : Prop :=
  ∃ text pitches, symbol action = .ok text ∧ Chord.resolve text (octave action) = .ok pitches

/-- Symbols that resolve one by one resolve together. -/
theorem exists_resolveAll {symbols : List String}
    (h : ∀ symbol ∈ symbols, ∃ pitches, Chord.resolve symbol (octave action) = .ok pitches) :
    ∃ chords, resolveAll action (symbols.map Json.string) = .ok chords := by
  induction symbols with
  | nil => exact ⟨[], rfl⟩
  | cons symbol rest ih =>
      obtain ⟨⟨pitches, hresolve⟩, hrest⟩ := List.forall_mem_cons.1 h
      obtain ⟨more, hmore⟩ := ih hrest
      exact ⟨pitches :: more, by simp [resolveAll, Json.asString?, hresolve, hmore]⟩

section

variable {length : Float} {v : Nat} (hpositive : ¬ length ≤ 0)
  (hlength : action.get? "length" = some (.ofNumber length)) (hvelocity : velocity action = .ok v)
include hpositive hlength hvelocity

/-- Nothing but its shape can be wrong with a description when all else of it is there. -/
theorem Harmonic.of_shape (notes : Float → Except Fault (List Note × Float))
    (hnotes : ∀ start, descriptionNotes? action start = some (notes start))
    (hfaulty : ∀ start, shape action start = invalid action (.missing "length") →
      notes start = invalid action (.missing "length"))
    (hsound : ∀ start result, shape action start = .ok result →
      ∃ laidOut, notes start = .ok laidOut) : Harmonic action where
  length := ⟨length, hpositive, hlength⟩
  faulty h start := by rw [hnotes, hfaulty start (shape_of_null h start)]
  sound h start := by
    have hnumber : Json.ofNumber length ≠ .null := fun hnull => h (hlength.trans (by rw [hnull]))
    obtain ⟨result, hshape⟩ := exists_shape hlength hnumber hvelocity start
    obtain ⟨laidOut, hlaidOut⟩ := hsound start result hshape
    exact ⟨laidOut, by rw [hnotes, hlaidOut]⟩

/-- An arpeggio whose symbol has pitches is harmonic. -/
theorem harmonic_arpeggio (hkind : action.kind = Kind.arpeggio) (hpitches : HasPitches action) :
    Harmonic action := by
  obtain ⟨text, pitches, hsymbol, hresolve⟩ := hpitches
  refine .of_shape hpositive hlength hvelocity (arpeggioNotes action) ?_ ?_ ?_
  · intro start
    rw [descriptionNotes?, if_pos hkind]
  · intro start hshape
    rw [arpeggioNotes, hshape]
    rfl
  · intro start result hshape
    simp only [arpeggioNotes, hshape, hsymbol, hresolve, bind, Except.bind]
    split <;> exact ⟨_, rfl⟩

/-- A chord whose symbol has pitches is harmonic. -/
theorem harmonic_chord (hkind : action.kind = Kind.chord) (hpitches : HasPitches action) :
    Harmonic action := by
  obtain ⟨text, pitches, hsymbol, hresolve⟩ := hpitches
  refine .of_shape hpositive hlength hvelocity (chordNotes action) ?_ ?_ ?_
  · intro start
    rw [descriptionNotes?, if_neg (by rw [hkind]; decide), if_pos hkind]
  · intro start hshape
    rw [chordNotes, hshape]
    rfl
  · intro start result hshape
    simp only [chordNotes, hshape, hsymbol, hresolve, bind, Except.bind]
    exact ⟨_, rfl⟩

/-- A progression whose symbols have pitches is harmonic. -/
theorem harmonic_progression (hkind : action.kind = Kind.progression) (symbols : List String)
    (hsymbols : action.get? "chords" = some (.listOf Json.string symbols))
    (hpitches : ∀ symbol ∈ symbols, ∃ pitches,
      Chord.resolve symbol (octave action) = .ok pitches) : Harmonic action := by
  obtain ⟨chords, hchords⟩ := exists_resolveAll hpitches
  refine .of_shape hpositive hlength hvelocity (progressionNotes action) ?_ ?_ ?_
  · intro start
    rw [descriptionNotes?, if_neg (by rw [hkind]; decide), if_neg (by rw [hkind]; decide),
      if_pos hkind]
  · intro start hshape
    rw [progressionNotes, hshape]
    rfl
  · intro start result hshape
    have hgiven : (action.get? "chords").bind Json.asArray? = some (symbols.map Json.string) := by
      rw [hsymbols]
      rfl
    simp only [progressionNotes, hshape, hgiven, hchords, bind, Except.bind, pure, Except.pure]
    exact ⟨_, rfl⟩

end

/-! ### Harmonic content -/

/-- There are notes for descriptions just when no length is null, and nothing else can be wrong. -/
theorem harmonyFrom_eq_ok {actions : List Action} (h : ∀ action ∈ actions, Harmonic action)
    (start : Float) : (∃ notes, harmonyFrom start actions = .ok notes) ↔
      ∀ action ∈ actions, action.get? "length" ≠ some .null := by
  induction actions generalizing start with
  | nil => simp [harmonyFrom]
  | cons action rest ih =>
      obtain ⟨hharmonic, hrest⟩ := List.forall_mem_cons.1 h
      rw [List.forall_mem_cons, harmonyFrom]
      by_cases hnull : action.get? "length" = some .null
      · simp [hharmonic.faulty hnull, invalid, hnull]
      · obtain ⟨⟨notes, span⟩, hsound⟩ := hharmonic.sound hnull start
        rw [hsound, ← ih hrest (start + span)]
        dsimp only
        cases harmonyFrom (start + span) rest <;> simp [hnull]

/-- Where harmony has no notes, the length of a description is null, and the fault says so. -/
theorem harmonyFrom_eq_error {actions : List Action} (h : ∀ action ∈ actions, Harmonic action)
    {start : Float} {fault : Fault} (hfault : harmonyFrom start actions = .error fault) :
    ∃ action ∈ actions, action.get? "length" = some .null ∧
      fault = .invalidDescription action.kind (.missing "length") := by
  induction actions generalizing start with
  | nil => simp [harmonyFrom] at hfault
  | cons action rest ih =>
      obtain ⟨hharmonic, hrest⟩ := List.forall_mem_cons.1 h
      rw [harmonyFrom] at hfault
      by_cases hnull : action.get? "length" = some .null
      · rw [hharmonic.faulty hnull] at hfault
        exact ⟨action, List.mem_cons_self, hnull, (Except.error.inj hfault).symm⟩
      · obtain ⟨⟨notes, span⟩, hsound⟩ := hharmonic.sound hnull start
        rw [hsound] at hfault
        dsimp only at hfault
        split at hfault
        · next more hmore =>
          obtain rfl := Except.error.inj hfault
          obtain ⟨other, hmem, hother⟩ := ih hrest hmore
          exact ⟨other, List.mem_cons_of_mem _ hmem, hother⟩
        · cases hfault

/-! ### Percussive content -/

/-- An action of percussive content: settings, or a pattern that has hits under any settings. -/
def Percussive (action : Action) : Prop :=
  action.kind = Kind.drumBeat ∨
    action.kind = Kind.drumPattern ∧ ∀ settings, ∃ notes, patternNotes settings action = .ok notes

/-- A pattern with a known drum, a valid grid and a valid velocity has notes under all settings. -/
theorem exists_patternNotes {drum grid : String} {pitch v : Nat}
    (hdrum : action.get? "drum" = some (.string drum)) (hpitch : drumPitch? drum = some pitch)
    (hgrid : action.get? "grid" = some (.string grid)) (hcheck : checkGrid grid = .ok ())
    (hvelocity : velocity action = .ok v) (settings : GridSettings) :
    ∃ notes, patternNotes settings action = .ok notes := by
  have hnotes : ∃ notes, gridNotes grid pitch v settings = .ok notes := by
    rw [gridNotes, hcheck]
    exact ⟨_, rfl⟩
  simpa only [patternNotes, requiredText, Action.text?_string hdrum, Action.text?_string hgrid,
    hpitch, hvelocity, bind, Except.bind, pure, Except.pure] using hnotes

/-- Patterns have hits under all settings. -/
theorem exists_hitsFrom {actions : List Action} (h : ∀ action ∈ actions, Percussive action)
    (settings : GridSettings) (start : Float) (used : Bool) :
    ∃ notes, hitsFrom settings start used actions = .ok notes := by
  induction actions generalizing settings start used with
  | nil => exact ⟨[], rfl⟩
  | cons action rest ih =>
      obtain ⟨hpercussive, hrest⟩ := List.forall_mem_cons.1 h
      rw [hitsFrom]
      rcases hpercussive with hkind | ⟨hkind, hnotes⟩
      · rw [if_pos hkind]
        exact ih hrest _ _ _
      · obtain ⟨notes, hpattern⟩ := hnotes settings
        obtain ⟨more, hmore⟩ := ih hrest settings start true
        rw [if_neg (by rw [hkind]; decide), if_pos hkind, hpattern, hmore]
        exact ⟨_, rfl⟩

/-- Percussive content always has notes. -/
theorem exists_percussion {actions : List Action} (h : ∀ action ∈ actions, Percussive action) :
    ∃ notes, percussion actions = .ok notes := by
  obtain ⟨notes, hnotes⟩ := exists_hitsFrom h {} 0 false
  rw [percussion, hnotes]
  exact ⟨_, rfl⟩

end Payload

/-! ### Methods of harmonic content -/

namespace Methods.Chords

open Studio.Music
open Studio.Script

/-- The shared arguments are within their bounds. -/
structure Common.Bounded (common : Common) : Prop where
  length : ¬ common.length ≤ 0
  times : 1 ≤ common.times ∧ common.times ≤ timesLimit
  velocity : 1 ≤ common.velocity ∧ common.velocity ≤ 127
  octave : common.octave ≤ 9

/-- The fields of an action hold the shared arguments. -/
structure Common.In (common : Common) (action : Action) : Prop where
  length : action.get? "length" = some (.ofNumber common.length)
  times : action.get? "repeat" = some (.nat common.times)
  velocity : action.get? "velocity" = some (.nat common.velocity)
  octave : action.get? "octave" = some (.nat common.octave)

/-- The fields of an action hold the parts of a symbol. -/
structure SymbolIn (symbol : String) (action : Action) : Prop where
  chord : action.get? "chord" = some (.string (splitSymbol symbol).1)
  bass : action.get? "bass" = (splitSymbol symbol).2.map .string

/-- A velocity that a call gives lies between 1 and 127. -/
theorem velocity_of_ok {call : Call} {v : Nat} (h : velocity call = .ok v) : 1 ≤ v ∧ v ≤ 127 := by
  obtain ⟨given, -, h⟩ := bind_eq_ok.1 h
  dsimp only at h
  split at h
  · simp at h
  · next hbounds =>
    obtain rfl := Except.ok.inj h
    simp only [Bool.or_eq_true, decide_eq_true_eq, not_or] at hbounds
    omega

/-- Arguments that were read are within their bounds. -/
theorem bounded_of_common {call : Call} {length : Float} {c : Common}
    (h : common call length = .ok c) : c.Bounded := by
  obtain ⟨given, -, h⟩ := bind_eq_ok.1 h
  dsimp only at h
  split at h
  · simp at h
  · next hlength =>
    obtain ⟨times, -, h⟩ := bind_eq_ok.1 h
    split at h
    · simp at h
    · next htimes =>
      obtain ⟨v, hv, h⟩ := bind_eq_ok.1 h
      obtain ⟨octave, -, h⟩ := bind_eq_ok.1 h
      split at h
      · simp at h
      · next hoctave =>
        obtain rfl := Except.ok.inj h
        simp only [Bool.or_eq_true, decide_eq_true_eq, not_or, Nat.not_lt] at htimes
        exact ⟨hlength, ⟨Nat.pos_of_ne_zero htimes.1, htimes.2⟩, velocity_of_ok hv,
          Nat.le_of_not_lt hoctave⟩

/-- A symbol that passes its check resolves. -/
theorem checkSymbol_eq_ok {call : Call} {param symbol : String} {octave : Nat}
    (h : checkSymbol call param symbol octave = .ok ()) :
    ∃ pitches, Chord.resolve symbol octave = .ok pitches := by
  unfold checkSymbol at h
  split at h
  · simp at h
  · next pitches hpitches => exact ⟨pitches, hpitches⟩

/-- The symbol in the fields of an action has the parts of the symbol that was given. -/
theorem SymbolIn.exists_symbol {action : Action} {symbol : String} (h : SymbolIn symbol action) :
    ∃ text, Payload.symbol action = .ok text ∧
      Chord.parts text.toList = Chord.parts symbol.toList := by
  obtain ⟨hchord, hbass⟩ := h
  have htext : Payload.requiredText action "chord" = .ok (splitSymbol symbol).1 := by
    rw [Payload.requiredText, Action.text?_string hchord]
  unfold splitSymbol at htext hbass
  cases hsplit : Text.splitOnce '/' symbol.toList with
  | none =>
      rw [hsplit] at htext hbass
      have hnone : action.text? "bass" = none := by
        rw [Action.text?, hbass]
        rfl
      refine ⟨Text.trim symbol, ?_, ?_⟩
      · rw [Payload.symbol, htext, hnone]
        rfl
      · rw [Text.trim, String.toList_ofList, Chord.parts_trimList]
  | some found =>
      obtain ⟨body, bass⟩ := found
      rw [hsplit] at htext hbass
      have hbassText : action.text? "bass" = some (Text.trim (String.ofList bass)) :=
        Action.text?_string hbass
      refine ⟨Text.trim (String.ofList body) ++ "/" ++ Text.trim (String.ofList bass), ?_, ?_⟩
      · rw [Payload.symbol, htext, hbassText]
        rfl
      · simp only [Text.trim, String.toList_append, String.toList_ofList]
        rw [← Chord.parts_joined hsplit]
        simp

/-- The symbol in the fields of an action has the pitches of the symbol that was given. -/
theorem SymbolIn.hasPitches {action : Action} {symbol : String} {octave : Nat} {pitches : List Nat}
    (h : SymbolIn symbol action) (hoctave : Payload.octave action = octave)
    (hresolve : Chord.resolve symbol octave = .ok pitches) : Payload.HasPitches action := by
  obtain ⟨text, htext, hparts⟩ := h.exists_symbol
  refine ⟨text, pitches, htext, ?_⟩
  rw [hoctave]
  exact (Chord.resolve_congr hparts).2 hresolve

/-- The fields of a description that decide whether there are notes for it. -/
def decisive : List String :=
  ["length", "repeat", "velocity", "octave", "chord", "bass", "chords"]

/-- An action is of the same kind as another and has the same decisive fields. -/
def Extends (base action : Action) : Prop :=
  action.kind = base.kind ∧ ∀ field ∈ decisive, action.get? field = base.get? field

section

variable {c : Common} {symbol : String} {base action : Action}

/-- An action extends itself. -/
theorem Extends.refl (base : Action) : Extends base base :=
  ⟨rfl, fun _ _ => rfl⟩

/-- A field that does not decide may be set. -/
theorem Extends.set (h : Extends base action) (name : String) (hname : name ∉ decisive)
    (value : Json) : Extends base (action.set name value) := by
  refine ⟨h.1, ?_⟩
  intro field hfield
  have hne : name ≠ field := fun heq => hname (heq ▸ hfield)
  rw [Action.get?_set, if_neg hne, h.2 field hfield]

/-- A field that does not decide may be set where there is a value for it. -/
theorem Extends.setSome (h : Extends base action) (name : String) (hname : name ∉ decisive)
    (value : Option Json) : Extends base (action.setSome name value) := by
  cases value with
  | none => exact h
  | some value => exact h.set name hname value

/-- The shared arguments are in the fields that are set for them. -/
theorem Common.in_setFields (c : Common) (action : Action) : c.In (c.setFields action) where
  length := by simp [setFields]
  times := by simp [setFields]
  velocity := by simp [setFields]
  octave := by simp [setFields]

/-- The shared arguments stay in an action that extends another. -/
theorem Common.In.mono (h : c.In base) (hextends : Extends base action) : c.In action where
  length := (hextends.2 "length" (by decide)).trans h.length
  times := (hextends.2 "repeat" (by decide)).trans h.times
  velocity := (hextends.2 "velocity" (by decide)).trans h.velocity
  octave := (hextends.2 "octave" (by decide)).trans h.octave

/-- The velocity of the shared arguments is read back from the action. -/
theorem Common.In.velocity_eq_ok (h : c.In action) (bounded : c.Bounded) :
    Payload.velocity action = .ok c.velocity :=
  Payload.velocity_eq_ok h.velocity bounded.velocity.1 bounded.velocity.2

/-- The octave of the shared arguments is read back from the action. -/
theorem Common.In.octave_eq (h : c.In action) (bounded : c.Bounded) :
    Payload.octave action = c.octave :=
  Payload.octave_eq h.octave bounded.octave

/-- A symbol is in the fields that are set for it, whatever is set behind them. -/
theorem symbolIn_setFields (c : Common) (symbol kind : String) :
    SymbolIn symbol (c.setFields (setSymbol symbol ⟨kind, []⟩)) where
  chord := by
    have hfields : (c.setFields (setSymbol symbol ⟨kind, []⟩)).get? "chord" =
        (setSymbol symbol ⟨kind, []⟩).get? "chord" := by simp [Common.setFields]
    rw [hfields, setSymbol, Tracks.setSome_get?_of_ne (by decide), Action.get?_set, if_pos rfl]
  bass := by
    have hfields : (c.setFields (setSymbol symbol ⟨kind, []⟩)).get? "bass" =
        (setSymbol symbol ⟨kind, []⟩).get? "bass" := by simp [Common.setFields]
    rw [hfields, setSymbol]
    cases (splitSymbol symbol).2 with
    | none => rfl
    | some bass => exact (Action.get?_set _ "bass" "bass" (.string bass)).trans (if_pos rfl)

/-- A symbol stays in an action that extends another. -/
theorem SymbolIn.mono (h : SymbolIn symbol base) (hextends : Extends base action) :
    SymbolIn symbol action where
  chord := (hextends.2 "chord" (by decide)).trans h.chord
  bass := (hextends.2 "bass" (by decide)).trans h.bass

/-- A symbol that was checked has pitches wherever it is read again. -/
theorem hasPitches_of_checkSymbol {call : Call} {param kind : String} (bounded : c.Bounded)
    (hcheck : checkSymbol call param symbol c.octave = .ok ())
    (hextends : Extends (c.setFields (setSymbol symbol ⟨kind, []⟩)) action) :
    Payload.HasPitches action := by
  obtain ⟨pitches, hresolve⟩ := checkSymbol_eq_ok hcheck
  have hin := (c.in_setFields _).mono hextends
  exact ((symbolIn_setFields c symbol kind).mono hextends).hasPitches (hin.octave_eq bounded)
    hresolve

end

/-- The action of an arpeggio is harmonic. -/
theorem harmonic_of_arpeggio {call : Call} {action : Action} (h : arpeggio call = .ok action) :
    Payload.Harmonic action := by
  obtain ⟨c, hcommon, h⟩ := bind_eq_ok.1 h
  obtain ⟨symbol, -, h⟩ := bind_eq_ok.1 h
  obtain ⟨_, hcheck, h⟩ := bind_eq_ok.1 h
  obtain ⟨direction, -, h⟩ := bind_eq_ok.1 h
  dsimp only at h
  split at h
  · simp at h
  · obtain ⟨duration, -, h⟩ := bind_eq_ok.1 h
    split at h
    · simp at h
    · have hextends : Extends (c.setFields (setSymbol symbol ⟨Kind.arpeggio, []⟩)) action := by
        rw [← Except.ok.inj h]
        exact ((Extends.refl _).set "direction" (by decide) _).setSome "note_duration" (by decide) _
      have bounded := bounded_of_common hcommon
      have hin := (c.in_setFields _).mono hextends
      exact Payload.harmonic_arpeggio bounded.length hin.length (hin.velocity_eq_ok bounded)
        hextends.1 (hasPitches_of_checkSymbol bounded hcheck hextends)

/-- What a call for a chord gives, and the fields of its action that hold it. -/
theorem exists_of_chord {call : Call} {action : Action} (h : chord call = .ok action) :
    ∃ c symbol pitches inversion, common call defaultLength = .ok c ∧
      call.string (.inSlot "symbol" 0) = .ok symbol ∧
      Chord.resolve symbol c.octave = .ok pitches ∧
      (call.count? "inversion").map (·.getD 0) = .ok inversion ∧ inversion ≤ 3 ∧
      action.kind = Kind.chord ∧ c.In action ∧ SymbolIn symbol action ∧
      action.get? "inversion" = some (.nat inversion) := by
  obtain ⟨c, hcommon, h⟩ := bind_eq_ok.1 h
  obtain ⟨symbol, hsymbol, h⟩ := bind_eq_ok.1 h
  obtain ⟨_, hcheck, h⟩ := bind_eq_ok.1 h
  obtain ⟨given, hgiven, h⟩ := bind_eq_ok.1 h
  obtain ⟨pitches, hpitches⟩ := checkSymbol_eq_ok hcheck
  dsimp only at h
  split at h
  · simp at h
  · next hmost =>
    obtain rfl := Except.ok.inj h
    have hextends : Extends (c.setFields (setSymbol symbol ⟨Kind.chord, []⟩))
        ((c.setFields (setSymbol symbol ⟨Kind.chord, []⟩)).set "inversion" (.nat (given.getD 0))) :=
      (Extends.refl _).set "inversion" (by decide) _
    refine ⟨c, symbol, pitches, given.getD 0, hcommon, hsymbol, hpitches, ?_,
      Nat.le_of_not_lt hmost, hextends.1, (c.in_setFields _).mono hextends,
      (symbolIn_setFields c symbol Kind.chord).mono hextends, by simp⟩
    rw [hgiven]
    rfl

/-- The action of a chord is harmonic. -/
theorem harmonic_of_chord {call : Call} {action : Action} (h : chord call = .ok action) :
    Payload.Harmonic action := by
  obtain ⟨c, symbol, pitches, inversion, hcommon, -, hpitches, -, -, hkind, hin, hsymbol, -⟩ :=
    exists_of_chord h
  have bounded := bounded_of_common hcommon
  exact Payload.harmonic_chord bounded.length hin.length (hin.velocity_eq_ok bounded) hkind
    (hsymbol.hasPitches (hin.octave_eq bounded) hpitches)

/-- The symbols of a progression are trimmed, and have the pitches that were checked. -/
theorem resolve_of_symbols {call : Call} {octave : Nat} {items : List Value} {given : List String}
    (h : symbols call octave items = .ok given) :
    ∀ symbol ∈ given, ∃ pitches, Chord.resolve symbol octave = .ok pitches := by
  induction items generalizing given with
  | nil =>
      obtain rfl := Except.ok.inj h
      simp
  | cons item rest ih =>
      rw [symbols] at h
      split at h
      · cases h
      · next symbol _ =>
        obtain ⟨_, hcheck, h⟩ := bind_eq_ok.1 h
        obtain ⟨more, hmore, h⟩ := bind_eq_ok.1 h
        obtain rfl := Except.ok.inj h
        obtain ⟨pitches, hresolve⟩ := checkSymbol_eq_ok hcheck
        have hparts : Chord.parts (Text.trim symbol).toList = Chord.parts symbol.toList := by
          rw [Text.trim, String.toList_ofList, Chord.parts_trimList]
        exact List.forall_mem_cons.2
          ⟨⟨pitches, (Chord.resolve_congr hparts).2 hresolve⟩, ih hmore⟩

/-- The action of a progression is harmonic. -/
theorem harmonic_of_progression {call : Call} {action : Action}
    (h : progression call = .ok action) : Payload.Harmonic action := by
  obtain ⟨items, -, h⟩ := bind_eq_ok.1 h
  split at h
  · simp at h
  · obtain ⟨c, hcommon, h⟩ := bind_eq_ok.1 h
    obtain ⟨given, hsymbols, h⟩ := bind_eq_ok.1 h
    obtain rfl := Except.ok.inj h
    have bounded := bounded_of_common hcommon
    have hin := c.in_setFields
      ((⟨Kind.progression, []⟩ : Action).set "chords" (.listOf Json.string given))
    refine Payload.harmonic_progression bounded.length hin.length (hin.velocity_eq_ok bounded) rfl
      given (by simp [Common.setFields]) ?_
    rw [hin.octave_eq bounded]
    exact resolve_of_symbols hsymbols

/-- Every action that a method makes describes harmonic content. -/
theorem harmonic_of_describe {call : Call} {actions : List Action}
    (h : describe call = .ok actions) : ∀ action ∈ actions, Payload.Harmonic action := by
  have hone {made : Except Script.Fault Action} (hmap : made.map ([·]) = .ok actions)
      (hmade : ∀ action, made = .ok action → Payload.Harmonic action) :
      ∀ action ∈ actions, Payload.Harmonic action := by
    obtain ⟨action, haction, rfl⟩ := map_eq_ok.1 hmap
    simpa using hmade action haction
  unfold describe at h
  split at h
  · exact hone h fun _ => harmonic_of_arpeggio
  · exact hone h fun _ => harmonic_of_arpeggio
  · exact hone h fun _ => harmonic_of_chord
  · exact hone h fun _ => harmonic_of_chord
  · exact hone h fun _ => harmonic_of_progression
  · exact hone h fun _ => harmonic_of_progression
  · obtain rfl := Except.ok.inj h
    simp
  · cases h

/-- By induction on the items of the choice. -/
theorem harmonic_of_chosen {call : Call} {items : List Value} {actions : List Action}
    (h : chosen call items = .ok actions) : ∀ action ∈ actions, Payload.Harmonic action := by
  induction items generalizing actions with
  | nil =>
      obtain rfl := Except.ok.inj h
      simp
  | cons item rest ih =>
      rw [chosen] at h
      split at h
      · cases h
      · obtain ⟨first, hfirst, h⟩ := bind_eq_ok.1 h
        obtain ⟨more, hmore, h⟩ := bind_eq_ok.1 h
        obtain rfl := Except.ok.inj h
        exact List.forall_mem_append.2 ⟨harmonic_of_describe hfirst, ih hmore⟩

/-- A call adds descriptions of harmonic content. -/
theorem harmonic_of_apply {call : Call} {state next : State} (h : apply call state = .ok next) :
    ∃ actions, next = state.emitAll actions ∧ ∀ action ∈ actions, Payload.Harmonic action := by
  obtain ⟨actions, hactions, rfl⟩ := map_eq_ok.1 h
  refine ⟨actions, rfl, ?_⟩
  split at hactions
  · obtain ⟨items, -, hchosen⟩ := bind_eq_ok.1 hactions
    exact harmonic_of_chosen hchosen
  · exact harmonic_of_describe hactions

end Methods.Chords

/-! ### Methods of percussive content -/

namespace Methods.Drums

open Studio.Music
open Studio.Script

/-- The action of a pattern is percussive. -/
theorem percussive_of_pattern {call : Call} {action : Action} (h : pattern call = .ok action) :
    Payload.Percussive action := by
  obtain ⟨drum, -, h⟩ := bind_eq_ok.1 h
  split at h
  · simp at h
  · next hdrum =>
    obtain ⟨grid, -, h⟩ := bind_eq_ok.1 h
    split at h
    · simp at h
    · split at h
      · simp at h
      · next hgrid =>
        obtain ⟨v, hv, h⟩ := bind_eq_ok.1 h
        obtain ⟨humanize, -, h⟩ := bind_eq_ok.1 h
        dsimp only at h
        split at h
        · simp at h
        · obtain rfl := Except.ok.inj h
          refine .inr ⟨rfl, ?_⟩
          intro settings
          have hpitch := Option.ne_none_iff_exists'.1 (mt Option.isNone_iff_eq_none.2 hdrum)
          obtain ⟨pitch, hpitch⟩ := hpitch
          obtain ⟨hleast, hmost⟩ := Chords.velocity_of_ok hv
          exact Payload.exists_patternNotes (by simp) hpitch (by simp) hgrid
            (Payload.velocity_eq_ok (by simp) hleast hmost) settings

/-- The actions of the patterns of a beat are percussive. -/
theorem percussive_of_patterns {call : Call} {items : List Value} {actions : List Action}
    (h : patterns call items = .ok actions) : ∀ action ∈ actions, Payload.Percussive action := by
  induction items generalizing actions with
  | nil =>
      obtain rfl := Except.ok.inj h
      simp
  | cons item rest ih =>
      rw [patterns] at h
      split at h
      · cases h
      · split at h
        · simp at h
        · obtain ⟨first, hfirst, h⟩ := bind_eq_ok.1 h
          obtain ⟨more, hmore, h⟩ := bind_eq_ok.1 h
          obtain rfl := Except.ok.inj h
          exact List.forall_mem_cons.2 ⟨percussive_of_pattern hfirst, ih hmore⟩

/-- The actions of a beat are percussive. -/
theorem percussive_of_beat {call : Call} {actions : List Action} (h : beat call = .ok actions) :
    ∀ action ∈ actions, Payload.Percussive action := by
  obtain ⟨items, -, h⟩ := bind_eq_ok.1 h
  split at h
  · simp at h
  · obtain ⟨bars, -, h⟩ := bind_eq_ok.1 h
    obtain ⟨tempo, -, h⟩ := bind_eq_ok.1 h
    split at h
    · simp at h
    · obtain ⟨swing, -, h⟩ := bind_eq_ok.1 h
      dsimp only at h
      split at h
      · simp at h
      · obtain ⟨subdivision, -, h⟩ := bind_eq_ok.1 h
        obtain ⟨hits, hhits, h⟩ := bind_eq_ok.1 h
        obtain rfl := Except.ok.inj h
        refine List.forall_mem_cons.2 ⟨.inl ?_, percussive_of_patterns hhits⟩
        cases tempo <;> rfl

/-- A call adds beats and patterns. -/
theorem percussive_of_apply {call : Call} {state next : State} (h : apply call state = .ok next) :
    ∃ actions, next = state.emitAll actions ∧ ∀ action ∈ actions, Payload.Percussive action := by
  unfold apply at h
  split at h
  · obtain ⟨action, haction, rfl⟩ := map_eq_ok.1 h
    exact ⟨[action], rfl, by simpa using percussive_of_pattern haction⟩
  · obtain ⟨actions, hactions, rfl⟩ := map_eq_ok.1 h
    exact ⟨actions, rfl, percussive_of_beat hactions⟩
  · cases h

end Methods.Drums

end Studio
