import Studio.Payload.Chords
import Studio.Proofs.Music.Readings

/-!
# Inverted chords

An inversion raises the lowest tone of a chord by an octave, and again. The first pitch of a list is
raised each time; that it is the lowest follows from the triad, which comes first, lies within an
octave, and has no more tones raised than it has (`raise_eq_lift`). `voice_eq` says what sounds: the
bass below the tones, except where the bass is too low to be a pitch.
-/

namespace Studio.Music

/-- A number less than all others is put in front of them. -/
theorem insertAscending_of_lt {n : Nat} {numbers : List Nat} (h : ∀ m ∈ numbers, n < m) :
    insertAscending n numbers = n :: numbers := by
  cases numbers with
  | nil => rfl
  | cons m rest => rw [insertAscending, if_pos (h m List.mem_cons_self)]

/-- What ascends stays in front of all that is larger. -/
theorem ascending_append {front behind : List Nat} (hfront : front.Pairwise (· < ·))
    (h : ∀ n ∈ front, ∀ m ∈ behind, n < m) :
    ascending (front ++ behind) = front ++ ascending behind := by
  induction front with
  | nil => rfl
  | cons n front ih =>
      obtain ⟨hn, hfront⟩ := List.pairwise_cons.1 hfront
      obtain ⟨hbehind, hrest⟩ := List.forall_mem_cons.1 h
      show insertAscending n (ascending (front ++ behind)) = _
      rw [ih hfront hrest]
      refine insertAscending_of_lt (List.forall_mem_append.2 ⟨hn, ?_⟩)
      exact fun m hm => hbehind m ((mem_ascending m behind).1 hm)

namespace Chord

/-! ### Raising the lowest pitch -/

/-- Raise the lowest of the pitches, wherever it stands, by an octave. -/
def raiseLeast? (pitches : List Nat) : Option (List Nat) :=
  pitches.min?.bind fun lowest =>
    if lowest + 12 ≤ Note.largest then some (pitches.erase lowest ++ [lowest + 12]) else none

/-- Raise the lowest pitch so many times, and stop where it gets beyond the largest pitch. -/
def lift (pitches : List Nat) : Nat → List Nat
  | 0 => pitches
  | times + 1 =>
    match raiseLeast? pitches with
    | some raised => lift raised times
    | none => pitches

/-- The lowest pitch in front is the one that is raised. -/
theorem raiseLeast?_cons {lowest : Nat} {rest : List Nat} (h : ∀ p ∈ rest, lowest < p) :
    raiseLeast? (lowest :: rest) = raiseLowest? (lowest :: rest) := by
  have hmin : (lowest :: rest).min? = some lowest :=
    List.min?_eq_some_iff.2 ⟨List.mem_cons_self,
      List.forall_mem_cons.2 ⟨Nat.le_refl _, fun p hp => Nat.le_of_lt (h p hp)⟩⟩
  rw [raiseLeast?, hmin, Option.bind_some, List.erase_cons_head]
  rfl

/-- Pitches in front of others: they ascend, lie within an octave and are below the others. -/
structure Leads (front behind : List Nat) : Prop where
  ascending : front.Pairwise (· < ·)
  within : ∀ p ∈ front, ∀ q ∈ front, p < q + 12
  below : ∀ p ∈ front, ∀ q ∈ behind, p < q

variable {front behind : List Nat}

/-- The first of the pitches in front is below all others. -/
theorem Leads.above {lowest : Nat} (h : Leads (lowest :: front) behind) :
    ∀ p ∈ front ++ behind, lowest < p :=
  List.forall_mem_append.2
    ⟨(List.pairwise_cons.1 h.ascending).1, h.below lowest List.mem_cons_self⟩

/-- When the first is raised, it follows the others. -/
theorem Leads.raised {lowest : Nat} (h : Leads (lowest :: front) behind) :
    Leads front (behind ++ [lowest + 12]) where
  ascending := h.ascending.of_cons
  within p hp q hq := h.within p (List.mem_cons_of_mem _ hp) q (List.mem_cons_of_mem _ hq)
  below p hp q hq := by
    rcases List.mem_append.1 hq with hq | hq
    · exact h.below p (List.mem_cons_of_mem _ hp) q hq
    · rw [List.mem_singleton.1 hq]
      exact h.within p (List.mem_cons_of_mem _ hp) lowest List.mem_cons_self

/-- Raising the first pitch raises the lowest, as long as those in front last. -/
theorem raise_eq_lift (h : Leads front behind) {times : Nat} (htimes : times ≤ front.length) :
    raise (front ++ behind) times = lift (front ++ behind) times := by
  induction times generalizing front behind with
  | zero => rfl
  | succ times ih =>
      cases front with
      | nil => cases htimes
      | cons lowest front =>
          rw [List.cons_append, raise, lift, raiseLeast?_cons h.above, raiseLowest?]
          by_cases hroom : lowest + 12 ≤ Note.largest
          · simp only [if_pos hroom, List.append_assoc]
            exact ih h.raised (Nat.le_of_succ_le_succ htimes)
          · simp only [if_neg hroom]

/-- What is above a pitch stays above it. -/
theorem lt_of_mem_raise {n : Nat} {pitches : List Nat} (h : ∀ p ∈ pitches, n < p) (times : Nat) :
    ∀ p ∈ raise pitches times, n < p := by
  induction times generalizing pitches with
  | zero => exact h
  | succ times ih =>
      rw [raise]
      split
      · next raised hraised =>
        cases pitches with
        | nil => cases hraised
        | cons lowest rest =>
            rw [raiseLowest?] at hraised
            split at hraised
            · obtain rfl := Option.some.inj hraised
              obtain ⟨hlowest, hrest⟩ := List.forall_mem_cons.1 h
              refine ih (List.forall_mem_append.2 ⟨hrest, ?_⟩)
              exact List.forall_mem_singleton.2 (by omega)
            · cases hraised
      · exact h

/-! ### The tones of a chord -/

/-- The chord without its bass. -/
def upper (chord : Chord) : Chord :=
  { chord with bass := none }

/-- The pitch of the bass in an octave, which lies in the octave below, if there is one. -/
def bassPitch? (chord : Chord) (octave : Int) : Option Nat :=
  chord.bass.bind fun bass => pitch? (tone (octave - 1) bass)

/-- The pitch of the tone at a distance from the root, if there is one. -/
def pitchAt? (chord : Chord) (octave interval : Nat) : Option Nat :=
  pitch? (tone octave (chord.root + interval))

/-- The pitches without the bass are those of the tones. -/
theorem upper_pitches (chord : Chord) (octave : Nat) :
    chord.upper.pitches octave = chord.intervals.filterMap (chord.pitchAt? octave) := by
  rfl

/-- The pitches are that of the bass, if it has one, and those of the tones. -/
theorem pitches_eq (chord : Chord) (octave : Int) :
    chord.pitches octave = (chord.bassPitch? octave).toList ++ chord.upper.pitches octave := by
  rfl

/-- A tone has a pitch unless it lies above the largest one. -/
theorem pitch?_tone (octave semitones : Nat) : pitch? (tone octave semitones) =
    if octave * 12 + semitones ≤ Note.largest then some (octave * 12 + semitones) else none := by
  unfold pitch? tone
  simp only [Bool.and_eq_true, decide_eq_true_eq]
  split <;> split
  · congr 1
  · omega
  · omega
  · rfl

/-- The pitch of an interval counts from the octave and the root, up to the largest pitch. -/
theorem pitchAt?_eq_some {chord : Chord} {octave interval pitch : Nat} :
    chord.pitchAt? octave interval = some pitch ↔
      pitch = octave * 12 + chord.root + interval ∧ pitch ≤ Note.largest := by
  rw [pitchAt?, pitch?_tone, Nat.add_assoc]
  split <;> simp only [Option.some.injEq, reduceCtorEq, false_iff] <;> omega

/-- A pitch class is less than twelve. -/
theorem pitchClass_lt (name : PitchName) : name.pitchClass < 12 := by
  unfold PitchName.pitchClass
  omega

/-- An added tone lies more than eight semitones above the root. -/
theorem lt_of_interval? {sign : Sign} {n : Nat} (h : sign.interval? = some n) : 8 < n := by
  cases sign <;> simp only [Sign.interval?, Option.some.injEq, reduceCtorEq] at h <;> omega

variable {symbol : String} {chord : Chord}

/-- The root of a chord that was parsed is a pitch class. -/
theorem root_lt (h : parse symbol = .ok chord) : chord.root < 12 := by
  obtain ⟨reading, -, -, rfl⟩ := exists_meaning h
  exact pitchClass_lt reading.root

/-- The bass of a chord that was parsed is a pitch class. -/
theorem bass_lt (h : parse symbol = .ok chord) {bass : Nat} (hbass : chord.bass = some bass) :
    bass < 12 := by
  obtain ⟨reading, -, -, rfl⟩ := exists_meaning h
  obtain ⟨name, -, rfl⟩ := Option.map_eq_some_iff.1 hbass
  exact pitchClass_lt name

/-- The first intervals are those of the triad. -/
theorem exists_triad (h : parse symbol = .ok chord) :
    ∃ third fifth more, chord.intervals = [0, third, fifth] ++ more ∧ 0 < third ∧
      third < fifth ∧ fifth ≤ 8 ∧ ∀ interval ∈ more, 8 < interval := by
  obtain ⟨reading, -, -, rfl⟩ := exists_meaning h
  obtain ⟨third, fifth, htones, hthird, hfifth, hmost⟩ : ∃ third fifth,
      reading.quality.tones = [0, third, fifth] ∧ 0 < third ∧ third < fifth ∧ fifth ≤ 8 := by
    cases reading.quality <;> exact ⟨_, _, rfl, by decide, by decide, by decide⟩
  have hadded : ∀ interval ∈ reading.added.filterMap Sign.interval?, 8 < interval := by
    intro interval hmem
    obtain ⟨sign, -, hsign⟩ := List.mem_filterMap.1 hmem
    exact lt_of_interval? hsign
  refine ⟨third, fifth, ascending (reading.added.filterMap Sign.interval?), ?_, hthird, hfifth,
    hmost, fun interval hmem => hadded interval ((mem_ascending _ _).1 hmem)⟩
  rw [Reading.chord, htones]
  refine ascending_append ?_ ?_
  · simp [hthird, hfifth, Nat.lt_trans hthird hfifth]
  · intro n hn m hm
    have hlarge := hadded m hm
    simp only [List.mem_cons, List.not_mem_nil, or_false] at hn
    omega

/-- The tones of the triad are pitches, and lead the others. -/
theorem exists_tones (h : parse symbol = .ok chord) {octave : Nat} (hoctave : octave ≤ 9) :
    ∃ lowest third fifth more, chord.upper.pitches octave = [lowest, third, fifth] ++ more ∧
      lowest = octave * 12 + chord.root ∧ Leads [lowest, third, fifth] more := by
  obtain ⟨third, fifth, more, hintervals, hthird, hfifth, hmost, hmore⟩ := exists_triad h
  have hroot := root_lt h
  have htone : ∀ interval, interval ≤ 8 → chord.pitchAt? octave interval =
      some (octave * 12 + chord.root + interval) := by
    intro interval hinterval
    refine pitchAt?_eq_some.2 ⟨rfl, ?_⟩
    unfold Note.largest
    omega
  refine ⟨_, octave * 12 + chord.root + third, octave * 12 + chord.root + fifth,
    more.filterMap (chord.pitchAt? octave), ?_, rfl, ?_, ?_, ?_⟩
  · rw [upper_pitches, hintervals, List.filterMap_append,
      List.filterMap_cons_some (htone 0 (by omega)),
      List.filterMap_cons_some (htone third (by omega)),
      List.filterMap_cons_some (htone fifth hmost)]
    rfl
  · simp
    omega
  · simp only [List.mem_cons, List.not_mem_nil, or_false]
    omega
  · intro p hp q hq
    obtain ⟨interval, hinterval, hpitch⟩ := List.mem_filterMap.1 hq
    have hlarge := hmore interval hinterval
    obtain ⟨rfl, -⟩ := pitchAt?_eq_some.1 hpitch
    simp only [List.mem_cons, List.not_mem_nil, or_false] at hp
    omega

/-! ### What sounds -/

/-- The bass is below all pitches, while the tones are inverted. -/
def Sunk (chord : Chord) (octave inversion : Nat) : Prop :=
  chord.bass ≠ none ∧ octave = 0 ∧ inversion ≠ 0

/-- In octave zero, the bass has no pitch. -/
theorem bassPitch?_zero (h : parse symbol = .ok chord) : chord.bassPitch? 0 = none := by
  unfold bassPitch?
  cases hbass : chord.bass with
  | none => rfl
  | some bass =>
      have hlt := bass_lt h hbass
      have hlow : ¬ 0 ≤ tone (0 - 1) bass := by
        unfold tone
        omega
      show pitch? (tone (0 - 1) bass) = none
      rw [pitch?, decide_eq_false hlow]
      rfl

/-- In octaves from one to nine, the bass has a pitch. -/
theorem exists_bassPitch (h : parse symbol = .ok chord) (hbass : chord.bass ≠ none) {octave : Nat}
    (hleast : octave ≠ 0) (hmost : octave ≤ 9) : ∃ pitch, chord.bassPitch? octave = some pitch := by
  obtain ⟨bass, hbass⟩ := Option.ne_none_iff_exists'.1 hbass
  have hlt := bass_lt h hbass
  obtain ⟨lower, rfl⟩ := Nat.exists_eq_succ_of_ne_zero hleast
  have hlower : (((lower + 1 : Nat) : Int) - 1) = (lower : Nat) := by omega
  refine ⟨lower * 12 + bass, ?_⟩
  unfold bassPitch?
  rw [hbass, Option.bind_some, Nat.succ_eq_add_one, hlower, pitch?_tone, if_pos]
  unfold Note.largest
  omega

section

variable {octave inversion : Nat}

/-- Only the first three tones are raised, and each is the lowest when it is. -/
theorem invert_upper (h : parse symbol = .ok chord) (hoctave : octave ≤ 9)
    (hinversion : inversion ≤ 3) : invert (chord.upper.pitches octave) inversion =
      lift (chord.upper.pitches octave) inversion := by
  obtain ⟨lowest, third, fifth, more, htones, -, hleads⟩ := exists_tones h hoctave
  have hmin : min inversion ([lowest, third, fifth] ++ more).length = inversion := by
    rw [List.length_append, List.length_cons, List.length_cons, List.length_singleton]
    omega
  rw [htones, invert, hmin]
  exact raise_eq_lift hleads hinversion

/-- The bass stays where it is and the tones are lifted, unless the bass is sunk. -/
theorem voice_of_not_sunk (h : parse symbol = .ok chord) (hoctave : octave ≤ 9)
    (hinversion : inversion ≤ 3) (hsunk : ¬ chord.Sunk octave inversion) :
    Payload.voice (chord.pitches octave) inversion chord.bass.isSome =
      (chord.bassPitch? octave).toList ++ lift (chord.upper.pitches octave) inversion := by
  rw [pitches_eq, Payload.voice]
  by_cases hnone : inversion = 0
  · rw [if_pos hnone, hnone, lift]
  · rw [if_neg hnone]
    cases hbass : chord.bass with
    | none =>
        have hpitch : chord.bassPitch? octave = none := by rw [bassPitch?, hbass]; rfl
        rw [hpitch, ← invert_upper h hoctave hinversion]
        rfl
    | some bass =>
        have hne : chord.bass ≠ none := by simp [hbass]
        have hzero : octave ≠ 0 := fun hzero => hsunk ⟨hne, hzero, hnone⟩
        obtain ⟨pitch, hpitch⟩ := exists_bassPitch h hne hzero hoctave
        rw [hpitch, ← invert_upper h hoctave hinversion]
        rfl

/-- A sunk bass leaves its place to the lowest tone, which is not raised. -/
theorem voice_of_sunk (h : parse symbol = .ok chord) (hsunk : chord.Sunk octave inversion) :
    Payload.voice (chord.pitches octave) inversion chord.bass.isSome =
      (chord.upper.pitches octave).take 1 ++
        invert ((chord.upper.pitches octave).drop 1) inversion := by
  obtain ⟨hbass, rfl, hinversion⟩ := hsunk
  have hsome : chord.bass.isSome = true := Option.isSome_iff_ne_none.2 hbass
  have hpitch : chord.bassPitch? (0 : Nat) = none := bassPitch?_zero h
  rw [pitches_eq, hpitch, Payload.voice, if_neg hinversion, if_pos hsome]
  rfl

/-- When the tones are inverted, none is as low as the lowest was. -/
theorem ne_of_sunk (h : parse symbol = .ok chord) (hinversion : inversion ≤ 3)
    (hsunk : chord.Sunk octave inversion) :
    (chord.upper.pitches octave).take 1 ++
        invert ((chord.upper.pitches octave).drop 1) inversion ≠
      (chord.bassPitch? octave).toList ++ lift (chord.upper.pitches octave) inversion := by
  obtain ⟨-, rfl, hne⟩ := hsunk
  obtain ⟨times, rfl⟩ := Nat.exists_eq_succ_of_ne_zero hne
  obtain ⟨lowest, third, fifth, more, htones, hlowest, hleads⟩ := exists_tones h (Nat.zero_le 9)
  have hpitch : chord.bassPitch? (0 : Nat) = none := bassPitch?_zero h
  have hroom : lowest + 12 ≤ Note.largest := by
    have hroot := root_lt h
    unfold Note.largest
    omega
  have hraise : lift ([lowest, third, fifth] ++ more) (times + 1) =
      raise ([third, fifth] ++ (more ++ [lowest + 12])) times := by
    rw [← raise_eq_lift hleads hinversion, List.cons_append, raise, raiseLowest?]
    simp only [if_pos hroom, List.append_assoc]
  have habove : ∀ p ∈ [third, fifth] ++ (more ++ [lowest + 12]), lowest < p := by
    rw [← List.append_assoc]
    exact List.forall_mem_append.2 ⟨hleads.above, List.forall_mem_singleton.2 (by omega)⟩
  intro heq
  rw [htones, hpitch, hraise, Option.toList_none, List.nil_append] at heq
  have hmem : lowest ∈ raise ([third, fifth] ++ (more ++ [lowest + 12])) times := by
    rw [← heq]
    exact List.mem_cons_self
  exact Nat.lt_irrefl lowest (lt_of_mem_raise habove times lowest hmem)

end

end Chord

end Studio.Music
