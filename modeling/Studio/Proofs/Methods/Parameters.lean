import Studio.Methods.Basic

/-!
# The parameters of methods

What a call does depends on its arguments only through the values that they give the parameters of
its method (`Call.parameters`). Two calls of one method that give these the same values are alike
(`Call.Alike`), and a method does with either what it does with the other (`Methods.apply_congr`).
-/

namespace Studio.Script

namespace Call

/-- Whether the first argument without a name is a method that is handed over. -/
def handsOverFirst (call : Call) : Bool :=
  ((call.positional? 0).bind Value.asFunction?).isSome

/-- The parameters of a description of harmony: those that all of them have, and its own. -/
def harmonic (own : List Param) : List Param :=
  "length" :: "repeat" :: "velocity" :: "octave" :: own

/-- The parameters of a method that goes through a collection: the collection and the method for its
entities, in the order of the call. -/
def walked (call : Call) : List Param :=
  if call.handsOverFirst then [.inSlot "function" 0, .inSlot "collection" 1]
  else [.inSlot "collection" 0, .inSlot "function" 1]

/-- The parameters of the method of a call. -/
def parameters (call : Call) : List Param :=
  match call.name with
  | "filter" => [.inSlot "collection" 0, .inSlot "predicate" 1]
  | "for_each" | "map" => call.walked
  | "store" => [.inSlot "name" 0, .inSlot "collection" 1]
  | "track" => [.inSlot "id" 0, "selected", "instrument", "name", "index"]
  | "new_clip" => ["bar", "length_bars", "position", "start", "length"]
  | "add_midi" => ["notes"]
  | "add_fx" => [.inSlot "fxname" 0, "instrument"]
  | "set_volume" => [.inSlot "volume_db" 0]
  | "set_pan" => [.inSlot "pan" 0]
  | "set_mute" => [.inSlot "mute" 0]
  | "set_solo" => [.inSlot "solo" 0]
  | "set_name" => [.inSlot "name" 0]
  | "set_selected" => [.inSlot "selected" 0]
  | "delete_clip" => ["clip", "position", "bar"]
  | "arpeggio" | "add_arpeggio" =>
    harmonic [.inSlot "symbol" 0, "direction", "note_duration"]
  | "chord" | "add_chord" => harmonic [.inSlot "symbol" 0, "inversion"]
  | "progression" | "add_progression" => harmonic [.inSlot "chords" 0]
  | "choice" => [.inSlot "calls" 1]
  | "pattern" => [.inSlot "drum" 0, .inSlot "grid" 1, "velocity", "humanize"]
  | "beat" => [.inSlot "patterns" 0, "bars", "tempo", "swing", "subdivision"]
  | _ => []

/-- Two calls of one method that give parameters the same values. -/
structure Alike (a : Call) (params : List Param) (b : Call) : Prop where
  name : a.name = b.name
  param? : ∀ param ∈ params, a.param? param = b.param? param

section

variable {params : List Param} {a b : Call} (h : a.Alike params b) {param : Param}

include h

/-- Calls that are alike name the same method in a fault about a value. -/
theorem Alike.invalid {α : Type} (param : String) (flaw : Flaw) :
    (a.invalid param flaw : Except Fault α) = b.invalid param flaw := by
  rw [Call.invalid, Call.invalid, h.name]

/-- A value of an expected kind is the same for both. -/
theorem Alike.typed (hmem : param ∈ params) {α : Type} (expected : ValueKind)
    (extract : Value → Option α) :
    a.typed param expected extract = b.typed param expected extract := by
  simp only [Call.typed, h.name, h.param? param hmem]

/-- A value that is missing is missed in the same words. -/
theorem Alike.required {α : Type} (value : Except Fault (Option α)) :
    a.required param value = b.required param value := by
  cases value with
  | error fault => rfl
  | ok value => cases value <;> simp only [Call.required, h.name]

/-- An optional text is the same for both. -/
theorem Alike.string? (hmem : param ∈ params) : a.string? param = b.string? param :=
  h.typed hmem ..

/-- A required text is the same for both. -/
theorem Alike.string (hmem : param ∈ params) : a.string param = b.string param := by
  rw [Call.string, h.string? hmem, h.required, Call.string]

/-- An optional number is the same for both. -/
theorem Alike.number? (hmem : param ∈ params) : a.number? param = b.number? param :=
  h.typed hmem ..

/-- A required number is the same for both. -/
theorem Alike.number (hmem : param ∈ params) : a.number param = b.number param := by
  rw [Call.number, h.number? hmem, h.required, Call.number]

/-- An optional flag is the same for both. -/
theorem Alike.bool? (hmem : param ∈ params) : a.bool? param = b.bool? param :=
  h.typed hmem ..

/-- A required flag is the same for both. -/
theorem Alike.bool (hmem : param ∈ params) : a.bool param = b.bool param := by
  rw [Call.bool, h.bool? hmem, h.required, Call.bool]

/-- An optional array is the same for both. -/
theorem Alike.array? (hmem : param ∈ params) : a.array? param = b.array? param :=
  h.typed hmem ..

/-- A required array is the same for both. -/
theorem Alike.array (hmem : param ∈ params) : a.array param = b.array param := by
  rw [Call.array, h.array? hmem, h.required, Call.array]

/-- The method that is handed over is the same for both. -/
theorem Alike.function (hmem : param ∈ params) : a.function param = b.function param := by
  rw [Call.function, h.typed hmem, h.required, Call.function]

/-- The predicate that is handed over is the same for both. -/
theorem Alike.predicate (hmem : param ∈ params) : a.predicate param = b.predicate param := by
  rw [Call.predicate, h.typed hmem, h.required, Call.predicate]

/-- An optional count is the same for both. -/
theorem Alike.count? (hmem : param ∈ params) : a.count? param = b.count? param := by
  simp only [Call.count?, h.number? hmem, h.invalid]

end

end Call

end Studio.Script

namespace Studio.Methods

open Studio.Script
open Studio.Session (Snapshot)

variable {params : List Param} {a b : Call}

/-! ### Harmony -/

namespace Chords

section

variable (h : a.Alike params b)
include h

/-- Calls with one velocity argument have one velocity, default and bounds included. -/
theorem velocity_congr (hmem : ("velocity" : Param) ∈ params) : velocity a = velocity b := by
  have hvelocity : a.count? "velocity" = b.count? "velocity" := h.count? hmem
  simp only [velocity, hvelocity, h.invalid]

/-- A chord symbol is checked with the same outcome for both. -/
theorem checkSymbol_congr (param symbol : String) (octave : Nat) :
    checkSymbol a param symbol octave = checkSymbol b param symbol octave := by
  simp only [checkSymbol, h.invalid]

/-- The symbols of a progression are read with the same outcome for both. -/
theorem symbols_congr (octave : Nat) (items : List Value) :
    symbols a octave items = symbols b octave items := by
  induction items with
  | nil => rfl
  | cons item rest ih => simp only [symbols, h.name, checkSymbol_congr h, ih]

/-- The calls of a choice are read with the same outcome for both. -/
theorem chosen_congr (items : List Value) : chosen a items = chosen b items := by
  induction items with
  | nil => rfl
  | cons item rest ih => simp only [chosen, h.name, ih]

end

/-- What all descriptions of harmony share is read alike. -/
theorem common_congr {own : List Param} (h : a.Alike (Call.harmonic own) b) (length : Float) :
    common a length = common b length := by
  have hlength : a.number? "length" = b.number? "length" := h.number? (by simp [Call.harmonic])
  have htimes : a.count? "repeat" = b.count? "repeat" := h.count? (by simp [Call.harmonic])
  have hvelocity : velocity a = velocity b := velocity_congr h (by simp [Call.harmonic])
  have hoctave : a.count? "octave" = b.count? "octave" := h.count? (by simp [Call.harmonic])
  simp only [common, hlength, htimes, hvelocity, hoctave, h.invalid]

/-- An arpeggio depends on its own parameters only. -/
theorem arpeggio_congr
    (h : a.Alike (Call.harmonic [.inSlot "symbol" 0, "direction", "note_duration"]) b) :
    arpeggio a = arpeggio b := by
  have hcommon := common_congr h
  have hsymbol : a.string (.inSlot "symbol" 0) = b.string (.inSlot "symbol" 0) :=
    h.string (by simp [Call.harmonic])
  have hdirection : a.string? "direction" = b.string? "direction" :=
    h.string? (by simp [Call.harmonic])
  have hduration : a.number? "note_duration" = b.number? "note_duration" :=
    h.number? (by simp [Call.harmonic])
  simp only [arpeggio, hcommon, hsymbol, hdirection, hduration, checkSymbol_congr h, h.invalid]

/-- A chord depends on its own parameters only. -/
theorem chord_congr (h : a.Alike (Call.harmonic [.inSlot "symbol" 0, "inversion"]) b) :
    chord a = chord b := by
  have hcommon := common_congr h
  have hsymbol : a.string (.inSlot "symbol" 0) = b.string (.inSlot "symbol" 0) :=
    h.string (by simp [Call.harmonic])
  have hinversion : a.count? "inversion" = b.count? "inversion" :=
    h.count? (by simp [Call.harmonic])
  simp only [chord, hcommon, hsymbol, hinversion, checkSymbol_congr h, h.invalid]

/-- A progression depends on its own parameters only. -/
theorem progression_congr (h : a.Alike (Call.harmonic [.inSlot "chords" 0]) b) :
    progression a = progression b := by
  have hcommon := common_congr h
  have hchords : a.array (.inSlot "chords" 0) = b.array (.inSlot "chords" 0) :=
    h.array (by simp [Call.harmonic])
  simp only [progression, hcommon, hchords, symbols_congr h, h.invalid]

/-- A choice depends on the calls that it is handed. -/
theorem choice_congr (h : a.Alike [.inSlot "calls" 1] b) : choice a = choice b := by
  have hcalls : a.array (.inSlot "calls" 1) = b.array (.inSlot "calls" 1) := h.array (by simp)
  simp only [choice, hcalls, chosen_congr h]

/-- Harmonic calls that are alike do the same to a state. -/
theorem apply_congr (hmem : a.name ∈ names) (h : a.Alike a.parameters b) (state : State) :
    apply a state = apply b state := by
  have hname := h.name
  simp only [names, List.mem_cons, List.not_mem_nil, or_false] at hmem
  rcases hmem with ha | ha | ha | ha | ha | ha | ha | ha <;>
    simp only [Call.parameters, ha] at h <;>
    simp only [apply, describe, ha, ha ▸ hname.symm, if_false, String.reduceEq, if_true]
  · rw [arpeggio_congr h]
  · rw [chord_congr h]
  · rw [progression_congr h]
  · rw [arpeggio_congr h]
  · rw [chord_congr h]
  · rw [progression_congr h]
  · rw [choice_congr h]

end Chords

/-! ### Percussion -/

namespace Drums

/-- A pattern depends on its own parameters only. -/
theorem pattern_congr
    (h : a.Alike [.inSlot "drum" 0, .inSlot "grid" 1, "velocity", "humanize"] b) :
    pattern a = pattern b := by
  have hdrum : a.string (.inSlot "drum" 0) = b.string (.inSlot "drum" 0) := h.string (by simp)
  have hgrid : a.string (.inSlot "grid" 1) = b.string (.inSlot "grid" 1) := h.string (by simp)
  have hvelocity : Chords.velocity a = Chords.velocity b := Chords.velocity_congr h (by simp)
  have hhumanize : a.number? "humanize" = b.number? "humanize" := h.number? (by simp)
  simp only [pattern, hdrum, hgrid, hvelocity, hhumanize, h.invalid]

/-- The patterns of a beat are read with the same outcome for both. -/
theorem patterns_congr (h : a.Alike params b) (items : List Value) :
    patterns a items = patterns b items := by
  induction items with
  | nil => rfl
  | cons item rest ih => simp only [patterns, h.name, h.invalid, ih]

/-- A count up to a bound is the same for both. -/
theorem countUpTo_congr (h : a.Alike params b) {param : String}
    (hmem : (param : Param) ∈ params) : countUpTo a param = countUpTo b param := by
  funext default limit
  simp only [countUpTo, h.count? hmem, h.invalid]

/-- A beat depends on its own parameters only. -/
theorem beat_congr
    (h : a.Alike [.inSlot "patterns" 0, "bars", "tempo", "swing", "subdivision"] b) :
    beat a = beat b := by
  have hitems : a.array (.inSlot "patterns" 0) = b.array (.inSlot "patterns" 0) :=
    h.array (by simp)
  have hbars : countUpTo a "bars" = countUpTo b "bars" :=
    countUpTo_congr h (by simp)
  have htempo : a.number? "tempo" = b.number? "tempo" := h.number? (by simp)
  have hswing : a.number? "swing" = b.number? "swing" := h.number? (by simp)
  have hsubdivision : countUpTo a "subdivision" = countUpTo b "subdivision" :=
    countUpTo_congr h (by simp)
  simp only [beat, hitems, hbars, htempo, hswing, hsubdivision, patterns_congr h, h.invalid]

/-- Percussive calls that are alike do the same to a state. -/
theorem apply_congr (hmem : a.name ∈ names) (h : a.Alike a.parameters b) (state : State) :
    apply a state = apply b state := by
  have hname := h.name
  simp only [names, List.mem_cons, List.not_mem_nil, or_false] at hmem
  rcases hmem with ha | ha <;>
    simp only [Call.parameters, ha] at h <;>
    simp only [apply, ha, ha ▸ hname.symm]
  · rw [pattern_congr h]
  · rw [beat_congr h]

end Drums

/-! ### Tracks -/

namespace Tracks

section

variable (h : a.Alike params b)
include h

/-- Two calls of one method have the same targets. -/
theorem targets_congr (state : State) : state.targets a = state.targets b := by
  simp only [State.targets, h.name]

/-- Two calls of one method emit for the targets of an entity alike. -/
theorem forTargets_congr (state : State) (make : Target → Action) :
    forTargets a state make = forTargets b state make := by
  simp only [forTargets, targets_congr h]

/-- Two calls of one method emit for the targets of a track alike. -/
theorem forTracks_congr (state : State) (make : Target → Action) :
    forTracks a state make = forTracks b state make := by
  simp only [forTracks, targets_congr h, h.name, h.invalid]

/-- Two calls of one method set a property alike when they give it one value. -/
theorem setProperty_congr (state : State) (kind field : String) {value other : Except Fault Json}
    (hvalue : value = other) :
    setProperty a state kind field value = setProperty b state kind field other := by
  subst hvalue
  cases value with
  | error fault => rfl
  | ok value => exact forTracks_congr h state _

/-- Two calls of one method collect the effects of a snapshot alike. -/
theorem collectEffects_congr (snapshot : Snapshot) (state : State) :
    collectEffects snapshot a state = collectEffects snapshot b state := by
  simp only [collectEffects, State.boundTrack, h.name]

end

variable {snapshot : Snapshot} {state : State}

/-- A track depends on its own parameters only. -/
theorem track_congr
    (h : a.Alike [.inSlot "id" 0, "selected", "instrument", "name", "index"] b) :
    track snapshot a state = track snapshot b state := by
  have hid : a.count? (.inSlot "id" 0) = b.count? (.inSlot "id" 0) := h.count? (by simp)
  have hselected : a.bool? "selected" = b.bool? "selected" := h.bool? (by simp)
  have hinstrument : a.string? "instrument" = b.string? "instrument" := h.string? (by simp)
  have hname : a.string? "name" = b.string? "name" := h.string? (by simp)
  have hindex : a.count? "index" = b.count? "index" := h.count? (by simp)
  simp only [track, State.refer, State.referSelected, hid, hselected, hinstrument, hname, hindex,
    h.name, h.invalid]

/-- The start of a clip comes from its position, or else from its start. -/
theorem clipStart_congr (h : a.Alike params b) (hposition : ("position" : Param) ∈ params)
    (hstart : ("start" : Param) ∈ params) : clipStart a = clipStart b := by
  simp only [clipStart, h.number? hposition, h.number? hstart, h.name]

/-- A new clip depends on its own parameters only. -/
theorem newClip_congr
    (h : a.Alike ["bar", "length_bars", "position", "start", "length"] b) :
    newClip a state = newClip b state := by
  have hbar : a.count? "bar" = b.count? "bar" := h.count? (by simp)
  have hbars : a.count? "length_bars" = b.count? "length_bars" := h.count? (by simp)
  have hstart : clipStart a = clipStart b := clipStart_congr h (by simp) (by simp)
  have hlength : a.number? "length" = b.number? "length" := h.number? (by simp)
  simp only [newClip, hbar, hbars, hstart, hlength, forTargets_congr h, h.invalid]

/-- Notes that are added depend on the parameter for notes only. -/
theorem addMidi_congr (h : a.Alike ["notes"] b) : addMidi a state = addMidi b state := by
  have hnotes : a.array? "notes" = b.array? "notes" := h.array? (by simp)
  simp only [addMidi, hnotes, forTargets_congr h]

/-- An effect that is added depends on its own parameters only. -/
theorem addEffect_congr (h : a.Alike [.inSlot "fxname" 0, "instrument"] b) :
    addEffect a state = addEffect b state := by
  have hname : a.string? (.inSlot "fxname" 0) = b.string? (.inSlot "fxname" 0) :=
    h.string? (by simp)
  have hinstrument : a.string? "instrument" = b.string? "instrument" := h.string? (by simp)
  simp only [addEffect, effectName, hname, hinstrument, forTargets_congr h, h.name]

/-- A clip that is deleted depends on its own parameters only. -/
theorem deleteClip_congr (h : a.Alike ["clip", "position", "bar"] b) :
    deleteClip a state = deleteClip b state := by
  have hclip : a.count? "clip" = b.count? "clip" := h.count? (by simp)
  have hposition : a.number? "position" = b.number? "position" := h.number? (by simp)
  have hbar : a.count? "bar" = b.count? "bar" := h.count? (by simp)
  simp only [deleteClip, hclip, hposition, hbar, targets_congr h, h.name]

/-- Structural calls that are alike do the same to a state. -/
theorem apply_congr (hmem : a.name ∈ names) (h : a.Alike a.parameters b) :
    apply snapshot a state = apply snapshot b state := by
  have hname := h.name
  simp only [names, List.mem_cons, List.not_mem_nil, or_false] at hmem
  rcases hmem with ha | ha | ha | ha | ha | ha | ha | ha | ha | ha | ha | ha | ha | ha <;>
    simp only [Call.parameters, ha] at h <;>
    simp only [apply, ha, ha ▸ hname.symm]
  · exact track_congr h
  · exact newClip_congr h
  · exact addMidi_congr h
  · exact addEffect_congr h
  · exact setProperty_congr h _ _ _ (by rw [h.number (by simp)])
  · exact setProperty_congr h _ _ _ (by rw [h.number (by simp)])
  · exact setProperty_congr h _ _ _ (by rw [h.bool (by simp)])
  · exact setProperty_congr h _ _ _ (by rw [h.bool (by simp)])
  · exact setProperty_congr h _ _ _ (by rw [h.string (by simp)])
  · exact setProperty_congr h _ _ _ (by rw [h.bool (by simp)])
  · exact forTracks_congr h ..
  · exact deleteClip_congr h
  · exact collectEffects_congr h ..

end Tracks

/-- A method does the same with calls that give its parameters the same values. -/
theorem apply_congr {capability : Capability} {snapshot : Snapshot} {state : State}
    (hmem : a.name ∈ names capability) (h : a.Alike a.parameters b) :
    apply capability snapshot a state = apply capability snapshot b state := by
  cases capability with
  | daw => exact Tracks.apply_congr hmem h
  | arranger => exact Chords.apply_congr hmem h state
  | drummer => exact Drums.apply_congr hmem h state

end Studio.Methods
