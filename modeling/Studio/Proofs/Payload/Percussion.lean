import Studio.Payload.Drums
import Studio.Proofs.Methods.Effects
import Studio.Proofs.Music.Grids
import Studio.Proofs.Number.Sums

/-!
# The notes of percussive content

Beats cut actions into segments. A pattern is laid out under the settings of its segment, behind the
beats of the segments in front that have patterns. `percussion_eq` says that the notes are the
sorted hits of all patterns that are placed in this way. `percussion_sums` says what that amounts
to: no hit is lost or added, the notes are in order, and how many there are.
-/

namespace Studio.Music

/-! ### The order of notes -/

/-- A note has its place before another: it starts earlier, or at the same time with a pitch that is
not higher. -/
theorem precedes_iff {a b : Note} : a.precedes b = true ↔
    Number.orderKey a.start < Number.orderKey b.start ∨
      Number.orderKey a.start = Number.orderKey b.start ∧ a.pitch ≤ b.pitch := by
  simp [Note.precedes]

/-- The order of notes by start is transitive. -/
theorem precedes_trans (a b c : Note) (hab : a.precedes b = true) (hbc : b.precedes c = true) :
    a.precedes c = true := by
  rw [precedes_iff] at hab hbc ⊢
  omega

/-- Of two notes, one precedes the other. -/
theorem precedes_total (a b : Note) : (a.precedes b || b.precedes a) = true := by
  rw [Bool.or_eq_true, precedes_iff, precedes_iff]
  omega

end Studio.Music

namespace Studio.Payload

open Studio.Action
open Studio.Music

/-! ### Segments -/

/-- Whether an action begins a beat. -/
def isBeat (action : Action) : Bool :=
  action.kind = Kind.drumBeat

/-- Whether an action describes a pattern. -/
def isPattern (action : Action) : Bool :=
  action.kind = Kind.drumPattern

/-- The patterns between two beats, with the settings they are under. -/
structure Segment where
  settings : GridSettings
  patterns : List Action

/-- Cut actions at their beats. Each beat gives the settings for what follows it; the first segment
is under the given ones. -/
def segmentsUnder (settings : GridSettings) (actions : List Action) : List Segment :=
  List.zipWith (fun settings stretch => ⟨settings, stretch.filter isPattern⟩)
    (settings :: (actions.filter isBeat).map beatSettings) (actions.splitOnP isBeat)

/-- The segments of actions, the first under the default settings. -/
def segments (actions : List Action) : List Segment :=
  segmentsUnder {} actions

section

variable {settings : GridSettings} {action : Action} {actions : List Action}
  {patterns : List Action} {more : List Segment}

/-- The first segment is under the settings that are given. -/
theorem exists_segmentsUnder (settings : GridSettings) (actions : List Action) :
    ∃ patterns more, segmentsUnder settings actions = ⟨settings, patterns⟩ :: more := by
  obtain ⟨stretch, others, hsplit⟩ :=
    List.exists_cons_of_ne_nil (List.splitOnP_ne_nil isBeat actions)
  rw [segmentsUnder, hsplit]
  exact ⟨_, _, rfl⟩

/-- A beat begins a segment under its own settings. -/
theorem segmentsUnder_beat (h : isBeat action = true) : segmentsUnder settings (action :: actions) =
    ⟨settings, []⟩ :: segmentsUnder (beatSettings action) actions := by
  rw [segmentsUnder, List.splitOnP_cons_eq_if_modifyHead, if_pos h,
    List.filter_cons_of_pos h]
  rfl

/-- What is no beat belongs to the first segment. -/
theorem segmentsUnder_cons (h : isBeat action = false)
    (hrest : segmentsUnder settings actions = ⟨settings, patterns⟩ :: more) :
    segmentsUnder settings (action :: actions) =
      ⟨settings, [action].filter isPattern ++ patterns⟩ :: more := by
  have hbeat : ¬ isBeat action = true := Bool.eq_false_iff.1 h
  obtain ⟨stretch, others, hsplit⟩ :=
    List.exists_cons_of_ne_nil (List.splitOnP_ne_nil isBeat actions)
  rw [segmentsUnder, hsplit, List.zipWith_cons_cons] at hrest
  obtain ⟨hfirst, hmore⟩ := List.cons.inj hrest
  obtain ⟨-, rfl⟩ := Segment.mk.inj hfirst
  rw [segmentsUnder, List.splitOnP_cons_eq_if_modifyHead, if_neg hbeat, hsplit,
    List.modifyHead_cons, List.filter_cons_of_neg hbeat, List.zipWith_cons_cons, hmore,
    List.filter_cons, List.filter_cons]
  cases isPattern action <;> rfl

/-- The patterns of all segments are the patterns among the actions. -/
theorem flatMap_patterns (settings : GridSettings) (actions : List Action) :
    (segmentsUnder settings actions).flatMap Segment.patterns = actions.filter isPattern := by
  induction actions generalizing settings with
  | nil => rfl
  | cons action rest ih =>
      cases hbeat : isBeat action with
      | true =>
          have hkind : action.kind = Kind.drumBeat := of_decide_eq_true hbeat
          have hpattern : isPattern action = false := by
            rw [isPattern, hkind]
            decide
          rw [segmentsUnder_beat hbeat, List.flatMap_cons, ih, List.nil_append, List.filter_cons,
            hpattern]
          rfl
      | false =>
          obtain ⟨patterns, more, hrest⟩ := exists_segmentsUnder settings rest
          have hpatterns := ih settings
          rw [hrest, List.flatMap_cons] at hpatterns
          rw [segmentsUnder_cons hbeat hrest, List.flatMap_cons, List.append_assoc, hpatterns,
            ← List.filter_append]
          rfl

end

/-! ### Places -/

/-- The beat behind segments that begin at a beat. A segment takes the beats of its bars, but none
if it has no pattern. -/
def beatBehind (start : Float) (segments : List Segment) : Float :=
  (segments.filter fun segment => !segment.patterns.isEmpty).foldl
    (fun beat segment => beat + Float.ofNat (max segment.settings.bars 1) * 4) start

/-- A pattern with the settings it is under and the beat at which its grid begins. -/
structure Placed where
  settings : GridSettings
  start : Float
  pattern : Action

/-- The patterns of segments that follow one another from a beat on. -/
def placedFrom (start : Float) (segments : List Segment) : List Placed :=
  (segments.zip segments.inits).flatMap fun (segment, before) =>
    segment.patterns.map fun pattern => ⟨segment.settings, beatBehind start before, pattern⟩

/-- The patterns among actions, each in its place. -/
def placed (actions : List Action) : List Placed :=
  placedFrom 0 (segments actions)

/-- The beat behind segments is that behind the first, and then behind the others. -/
theorem beatBehind_cons (start : Float) (segment : Segment) (more : List Segment) :
    beatBehind start (segment :: more) = beatBehind (beatBehind start [segment]) more := by
  rw [beatBehind, List.filter_cons]
  cases h : segment.patterns.isEmpty <;> simp [beatBehind, h]

/-- A segment with patterns takes its beats, and one without takes none. -/
theorem beatBehind_single (start : Float) (settings : GridSettings) (patterns : List Action) :
    beatBehind start [⟨settings, patterns⟩] =
      if !patterns.isEmpty then start + settings.beats else start := by
  cases h : patterns.isEmpty <;> simp [beatBehind, GridSettings.beats, h]

/-- The patterns of the first segment are placed first, and the others behind its beats. -/
theorem placedFrom_cons (start : Float) (segment : Segment) (more : List Segment) :
    placedFrom start (segment :: more) =
      (segment.patterns.map fun pattern => ⟨segment.settings, start, pattern⟩) ++
        placedFrom (beatBehind start [segment]) more := by
  rw [placedFrom, List.inits_cons, List.zip_cons_cons, List.flatMap_cons, List.zip_map_right,
    List.flatMap_map]
  refine congrArg (_ ++ ·) (congrArg (List.flatMap · _) (funext fun (later, before) => ?_))
  show later.patterns.map (fun pattern => (⟨later.settings, beatBehind start (segment :: before),
    pattern⟩ : Placed)) = _
  rw [beatBehind_cons]

/-- The patterns that are placed are those of the segments. -/
theorem map_pattern_placedFrom (start : Float) (segments : List Segment) :
    (placedFrom start segments).map Placed.pattern = segments.flatMap Segment.patterns := by
  induction segments generalizing start with
  | nil => rfl
  | cons segment more ih =>
      rw [placedFrom_cons, List.map_append, ih, List.map_map, List.flatMap_cons]
      exact congrArg (· ++ _) (List.map_id _)

/-- Every pattern has its place, in the order of the actions. -/
theorem map_pattern_placed (actions : List Action) :
    (placed actions).map Placed.pattern = actions.filter isPattern := by
  rw [placed, map_pattern_placedFrom, segments, flatMap_patterns]

namespace Placed

/-- The hits of a pattern in its place. -/
def notes (place : Placed) : Except Fault (List Note) :=
  (patternNotes place.settings place.pattern).map (·.map (Note.delay place.start))

end Placed

/-- The hits of patterns in their places, one pattern behind the other. -/
def layOut (places : List Placed) : Except Fault (List Note) :=
  (places.mapM Placed.notes).map List.flatten

/-- What is laid out are the notes of each place, delayed to its start, or the first fault. -/
theorem layOut_cons (place : Placed) (places : List Placed) : layOut (place :: places) =
    match patternNotes place.settings place.pattern with
    | .error e => .error e
    | .ok notes =>
      match layOut places with
      | .error e => .error e
      | .ok more => .ok (notes.map (Note.delay place.start) ++ more) := by
  rw [layOut, layOut, List.mapM_cons, Placed.notes]
  cases patternNotes place.settings place.pattern with
  | error e => rfl
  | ok notes => cases places.mapM Placed.notes <;> rfl

/-- The hits from a beat on are those of the patterns in their places. That the segment has begun
with patterns makes a difference only to where the next one begins. -/
theorem hitsFrom_eq {settings : GridSettings} {start : Float} {used : Bool} {actions : List Action}
    {patterns : List Action} {more : List Segment}
    (h : segmentsUnder settings actions = ⟨settings, patterns⟩ :: more) :
    hitsFrom settings start used actions =
      layOut ((patterns.map fun pattern => ⟨settings, start, pattern⟩) ++
        placedFrom (if used || !patterns.isEmpty then start + settings.beats else start) more) := by
  induction actions generalizing settings start used patterns more with
  | nil =>
      obtain ⟨hfirst, rfl⟩ := List.cons.inj h
      obtain ⟨-, rfl⟩ := Segment.mk.inj hfirst
      rfl
  | cons action rest ih =>
      rw [hitsFrom]
      by_cases hbeat : action.kind = Kind.drumBeat
      · rw [segmentsUnder_beat (decide_eq_true hbeat)] at h
        obtain ⟨hfirst, rfl⟩ := List.cons.inj h
        obtain ⟨-, rfl⟩ := Segment.mk.inj hfirst
        obtain ⟨inner, others, hrest⟩ := exists_segmentsUnder (beatSettings action) rest
        rw [if_pos hbeat, ih hrest, hrest, placedFrom_cons]
        have hstart : (if (used || !([] : List Action).isEmpty) = true then start + settings.beats
          else start) = if used then start + settings.beats else start := by simp
        rw [hstart, Bool.false_or, ← beatBehind_single]
        rfl
      · obtain ⟨inner, others, hrest⟩ := exists_segmentsUnder settings rest
        rw [segmentsUnder_cons (decide_eq_false hbeat) hrest] at h
        obtain ⟨hfirst, rfl⟩ := List.cons.inj h
        obtain ⟨-, rfl⟩ := Segment.mk.inj hfirst
        rw [if_neg hbeat]
        by_cases hpattern : action.kind = Kind.drumPattern
        · have hkept : [action].filter isPattern = [action] :=
            List.filter_eq_self.2 (List.forall_mem_singleton.2 (decide_eq_true hpattern))
          rw [if_pos hpattern, ih hrest, hkept, List.singleton_append, List.map_cons,
            List.cons_append, List.isEmpty_cons, Bool.not_false, Bool.or_true, Bool.true_or]
          exact (layOut_cons ⟨settings, start, action⟩ _).symm
        · have hdropped : [action].filter isPattern = [] :=
            List.filter_eq_nil_iff.2 (List.forall_mem_singleton.2 (by simpa [isPattern]))
          rw [if_neg hpattern, ih hrest, hdropped, List.nil_append]

/-- The notes are the hits of all patterns in their places, sorted. -/
theorem percussion_eq (actions : List Action) :
    percussion actions = (layOut (placed actions)).map (·.mergeSort Note.precedes) := by
  obtain ⟨patterns, more, hsegments⟩ := exists_segmentsUnder {} actions
  rw [percussion, hitsFrom_eq hsegments, Bool.false_or, ← beatBehind_single, placed, segments,
    hsegments, placedFrom_cons]
  cases layOut _ <;> rfl

/-! ### What the notes are -/

/-- A text that is required is the one of the field. -/
theorem requiredText_eq_ok {action : Action} {field text : String} :
    requiredText action field = .ok text ↔ action.text? field = some text := by
  unfold requiredText
  cases action.text? field <;> simp [invalid]

/-- A pattern has notes when its fields hold a drum, a velocity and a grid that has notes. -/
theorem patternNotes_eq_ok {settings : GridSettings} {action : Action} {notes : List Note} :
    patternNotes settings action = .ok notes ↔ ∃ drum pitch grid v,
      action.text? "drum" = some drum ∧ drumPitch? drum = some pitch ∧
      action.text? "grid" = some grid ∧ velocity action = .ok v ∧
      gridNotes grid pitch v settings = .ok notes := by
  unfold patternNotes
  simp only [bind_eq_ok, requiredText_eq_ok]
  constructor
  · rintro ⟨drum, hdrum, h⟩
    cases hpitch : drumPitch? drum with
    | none => rw [hpitch] at h; cases h
    | some pitch =>
        rw [hpitch] at h
        obtain ⟨chosen, hchosen, h⟩ := bind_eq_ok.1 h
        obtain rfl : pitch = chosen := Except.ok.inj hchosen
        obtain ⟨grid, hgrid, h⟩ := bind_eq_ok.1 h
        obtain ⟨v, hvelocity, h⟩ := bind_eq_ok.1 h
        exact ⟨drum, pitch, grid, v, hdrum, hpitch, requiredText_eq_ok.1 hgrid, hvelocity, h⟩
  · rintro ⟨drum, pitch, grid, v, hdrum, hpitch, hgrid, hvelocity, h⟩
    refine ⟨drum, hdrum, ?_⟩
    rw [hpitch]
    exact bind_eq_ok.2 ⟨pitch, rfl,
      bind_eq_ok.2 ⟨grid, requiredText_eq_ok.2 hgrid, bind_eq_ok.2 ⟨v, hvelocity, h⟩⟩⟩

namespace Placed

/-- The grid of the pattern. -/
def grid (place : Placed) : String :=
  (place.pattern.text? "grid").getD ""

/-- How often the grid is played: once in every bar if its cells fit into one. -/
def repeats (place : Placed) : Nat :=
  if (gridCells place.grid).length ≤ place.settings.subdivision then max place.settings.bars 1
  else 1

/-- The notes are what the grid of the pattern is laid out as, for its drum, with its velocity and
under its settings, from the beat at which it begins. -/
def Sounds (place : Placed) (notes : List Note) : Prop :=
  ∃ drum pitch v hits, place.pattern.text? "drum" = some drum ∧ drumPitch? drum = some pitch ∧
    place.pattern.text? "grid" = some place.grid ∧ velocity place.pattern = .ok v ∧
    gridNotes place.grid pitch v place.settings = .ok hits ∧
    notes = hits.map (Note.delay place.start)

/-- The notes of a place are what sounds there. -/
theorem sounds_of_notes {place : Placed} {notes : List Note} (h : place.notes = .ok notes) :
    place.Sounds notes := by
  obtain ⟨hits, hpattern, rfl⟩ := map_eq_ok.1 h
  obtain ⟨drum, pitch, grid, v, hdrum, hpitch, hgrid, hvelocity, hhits⟩ :=
    patternNotes_eq_ok.1 hpattern
  obtain rfl : place.grid = grid := by rw [Placed.grid, hgrid, Option.getD_some]
  exact ⟨drum, pitch, v, hits, hdrum, hpitch, hgrid, hvelocity, hhits, rfl⟩

/-- A grid of less than `2 ^ 32` cells has its hits in every repetition. -/
theorem Sounds.length {place : Placed} {notes : List Note} (h : place.Sounds notes)
    (hcells : (gridCells place.grid).length < 2 ^ 32) :
    notes.length = hitCount place.grid * place.repeats := by
  obtain ⟨drum, pitch, v, hits, -, -, -, -, hhits, rfl⟩ := h
  rw [List.length_map, length_gridNotes hhits, turns_of_lt hcells, repeats]

end Placed

/-- Patterns are laid out when each of them sounds. -/
theorem forall₂_of_layOut {places : List Placed} {notes : List Note}
    (h : layOut places = .ok notes) :
    ∃ hits, List.Forall₂ Placed.Sounds places hits ∧ notes = hits.flatten := by
  induction places generalizing notes with
  | nil => exact ⟨[], .nil, (Except.ok.inj h).symm⟩
  | cons place places ih =>
      rw [layOut_cons] at h
      split at h
      · cases h
      · next own hown =>
        split at h
        · cases h
        · next more hmore =>
          obtain ⟨hits, hsounds, rfl⟩ := ih hmore
          refine ⟨own.map (Note.delay place.start) :: hits, .cons ?_ hsounds,
            (Except.ok.inj h).symm⟩
          exact Placed.sounds_of_notes (map_eq_ok.2 ⟨own, hown, rfl⟩)

/-- At each place, every hit of its grid sounds as often as the grid is repeated. -/
theorem map_length_of_sounds {places : List Placed} {hits : List (List Note)}
    (h : List.Forall₂ Placed.Sounds places hits)
    (hcells : ∀ place ∈ places, (gridCells place.grid).length < 2 ^ 32) :
    hits.map List.length = places.map fun place => hitCount place.grid * place.repeats := by
  induction h with
  | nil => rfl
  | cons hsound _ ih =>
      obtain ⟨hplace, hrest⟩ := List.forall_mem_cons.1 hcells
      rw [List.map_cons, List.map_cons, hsound.length hplace, ih hrest]

/-- The beats that segments take, as a number. -/
def totalBeats (segments : List Segment) : Nat :=
  ((segments.filter fun segment => !segment.patterns.isEmpty).map
    fun segment => 4 * max segment.settings.bars 1).sum

/-- A sum of beats is exact as long as it has at most 53 bits. -/
theorem beatBehind_eq {segments : List Segment} {start : Nat}
    (h : start + totalBeats segments < 2 ^ 53) :
    beatBehind (Float.ofNat start) segments = Float.ofNat (start + totalBeats segments) := by
  unfold beatBehind totalBeats at *
  generalize segments.filter (fun segment => !segment.patterns.isEmpty) = kept at *
  induction kept generalizing start with
  | nil => rfl
  | cons segment kept ih =>
      rw [List.map_cons, List.sum_cons] at h ⊢
      have hbeats : Float.ofNat (max segment.settings.bars 1) * 4 =
          Float.ofNat (4 * max segment.settings.bars 1) := by
        have hlt : max segment.settings.bars 1 * 4 < 2 ^ 53 := by omega
        rw [Nat.mul_comm]
        exact Number.ofNat_mul (by omega) (by decide) hlt
      rw [List.foldl_cons, hbeats, Number.ofNat_add (by omega), ih (by omega), Nat.add_assoc]

/-- Percussive content has notes if each of its patterns has. They are the hits of the patterns, no
more and no less, in order of their starts and pitches. A pattern has as many hits as its grid
writes, in each repetition. The beats in front of a segment are exact up to 53 bits. -/
theorem percussion_sums {actions : List Action} {notes : List Note}
    (hcells : ∀ place ∈ placed actions, (gridCells place.grid).length < 2 ^ 32)
    (h : percussion actions = .ok notes) :
    (placed actions).map Placed.pattern = actions.filter isPattern ∧
      (∃ hits, List.Forall₂ Placed.Sounds (placed actions) hits ∧ notes.Perm hits.flatten) ∧
      notes.Pairwise (fun a b => Number.orderKey a.start < Number.orderKey b.start ∨
        Number.orderKey a.start = Number.orderKey b.start ∧ a.pitch ≤ b.pitch) ∧
      notes.length =
        ((placed actions).map fun place => hitCount place.grid * place.repeats).sum ∧
      ∀ before, totalBeats before < 2 ^ 53 →
        beatBehind 0 before = Float.ofNat (totalBeats before) := by
  rw [percussion_eq] at h
  obtain ⟨unsorted, hunsorted, rfl⟩ := map_eq_ok.1 h
  obtain ⟨hits, hsounds, rfl⟩ := forall₂_of_layOut hunsorted
  refine ⟨map_pattern_placed actions, ⟨hits, hsounds, List.mergeSort_perm _ _⟩, ?_, ?_, ?_⟩
  · refine (List.pairwise_mergeSort precedes_trans precedes_total _).imp ?_
    exact precedes_iff.1
  · rw [List.length_mergeSort, List.length_flatten, map_length_of_sounds hsounds hcells]
  · intro before hbefore
    have hexact := @beatBehind_eq before 0 (by omega)
    rwa [Nat.zero_add] at hexact

/-- A pattern in front of all beats, a beat without patterns, and a beat behind one with patterns.
The second pattern begins at beat 4, the third at beat 12. -/
theorem percussion_sums_beats :
    let kick : Action :=
      ⟨Kind.drumPattern, [("drum", .string "kick"), ("grid", .string "x---")]⟩
    let snare : Action :=
      ⟨Kind.drumPattern, [("drum", .string "snare"), ("grid", .string "-X o")]⟩
    let beat : Action := ⟨Kind.drumBeat, [("bars", .nat 2)]⟩
    let actions := [kick, beat, beat, snare, ⟨Kind.setTrackMute, []⟩, beat, kick]
    ∃ notes, percussion actions = .ok notes ∧ notes.length = 7 ∧
      (placed actions).map Placed.start = [0, 4, 12] := by
  intro kick snare beat actions
  have hsome : (percussion actions).toOption.isSome = true := by decide +kernel
  obtain ⟨notes, hnotes⟩ := Option.isSome_iff_exists.1 hsome
  obtain ⟨-, -, -, hlength, -⟩ := percussion_sums (by decide +kernel) (toOption_eq_some.1 hnotes)
  exact ⟨notes, toOption_eq_some.1 hnotes, hlength.trans (by decide +kernel), by decide +kernel⟩

end Studio.Payload
