import Studio.Proofs.Music.Voicing

/-!
# The pitches of a chord

A chord asks for a number for its bass and one for each of its tones; those that are pitches sound.
`resolve_exact` says so of every symbol in the octaves 0 to 9: the pitches are these numbers without
what lies out of range, they ascend, and an octave higher each of them is twelve semitones higher.
-/

namespace Studio.Music.Chord

/-! ### The numbers that a chord asks for -/

/-- The numbers of the bass, an octave below, and of the tones, whether or not they are pitches. -/
def numbers (chord : Chord) (octave : Int) : List Int :=
  (chord.bass.map fun bass : Nat => 12 * (octave - 1) + (bass : Int)).toList ++
    chord.intervals.map fun interval : Nat => 12 * octave + (chord.root : Int) + interval

/-- The number is that of a pitch. -/
def IsPitch (n : Int) : Prop :=
  0 ≤ n ∧ n ≤ 127

instance (n : Int) : Decidable (IsPitch n) :=
  inferInstanceAs (Decidable (_ ∧ _))

/-- A number in range is a pitch. -/
theorem pitch?_of_isPitch {n : Int} (h : IsPitch n) : pitch? n = some n.toNat := by
  obtain ⟨hleast, hmost⟩ := h
  have hlargest : n ≤ (Note.largest : Nat) := hmost
  rw [pitch?, decide_eq_true hleast, decide_eq_true hlargest]
  rfl

/-- A number out of range is no pitch. -/
theorem pitch?_of_not_isPitch {n : Int} (h : ¬ IsPitch n) : pitch? n = none := by
  have hout : ¬ (0 ≤ n ∧ n ≤ (Note.largest : Nat)) := h
  rw [pitch?, if_neg]
  simpa only [Bool.and_eq_true, decide_eq_true_eq] using hout

/-- The pitches of numbers are the numbers in range. -/
theorem map_filterMap_pitch? (ns : List Int) :
    (ns.filterMap pitch?).map Int.ofNat = ns.filter IsPitch := by
  induction ns with
  | nil => rfl
  | cons n ns ih =>
      by_cases h : IsPitch n
      · rw [List.filterMap_cons_some (pitch?_of_isPitch h), List.map_cons, ih,
          List.filter_cons_of_pos (by simpa using h)]
        exact congrArg (· :: _) (Int.toNat_of_nonneg h.1)
      · rw [List.filterMap_cons_none (pitch?_of_not_isPitch h), ih,
          List.filter_cons_of_neg (by simpa using h)]

/-- The pitches of a chord are those of its numbers. -/
theorem pitches_eq_filterMap (chord : Chord) (octave : Int) :
    chord.pitches octave = (chord.numbers octave).filterMap pitch? := by
  have hbass (bass : Nat) : tone (octave - 1) bass = 12 * (octave - 1) + (bass : Int) := by
    rw [tone, Int.mul_comm]
  have htone (interval : Nat) : tone octave (chord.root + interval) =
      12 * octave + (chord.root : Int) + interval := by
    rw [tone, Int.mul_comm, Int.natCast_add, Int.add_assoc]
  rw [pitches, numbers, List.filterMap_append, List.filterMap_map]
  congr 1
  · cases chord.bass with
    | none => rfl
    | some bass =>
        rw [Option.bind_some, Option.map_some, hbass]
        cases hpitch : pitch? (12 * (octave - 1) + (bass : Int)) <;> simp [hpitch]
  · simp only [Function.comp_def, htone]

/-- The pitches are the numbers that the chord asks for, less those that are none. -/
theorem map_pitches (chord : Chord) (octave : Int) :
    (chord.pitches octave).map Int.ofNat = (chord.numbers octave).filter IsPitch := by
  rw [pitches_eq_filterMap, map_filterMap_pitch?]

/-- The pitches of a chord are at most the largest one. -/
theorem le_of_mem_pitches {chord : Chord} {octave : Int} {pitch : Nat}
    (h : pitch ∈ chord.pitches octave) : pitch ≤ Note.largest := by
  have hmem := List.mem_map_of_mem (f := Int.ofNat) h
  rw [map_pitches, List.mem_filter, decide_eq_true_eq] at hmem
  exact Int.ofNat_le.1 hmem.2.2

/-- An octave higher, all numbers are higher by twelve. -/
theorem numbers_succ (chord : Chord) (octave : Int) :
    chord.numbers (octave + 1) = (chord.numbers octave).map (· + 12) := by
  rw [numbers, numbers, List.map_append, List.map_map]
  congr 1
  · cases chord.bass with
    | none => rfl
    | some bass =>
        simp only [Option.map_some, Option.toList_some, List.map_cons, List.map_nil]
        congr 1
        omega
  · refine List.map_congr_left fun interval _ => ?_
    rw [Function.comp_apply]
    omega

/-! ### Order -/

variable {symbol : String} {chord : Chord}

/-- The intervals of a chord ascend. -/
theorem intervals_ascend (h : parse symbol = .ok chord) : chord.intervals.Pairwise (· < ·) := by
  obtain ⟨root, rest, bass, added, -, -, -, rfl⟩ := parse_eq_ok.1 h
  exact ascending_sorted _

/-- An added tone lies at most 21 semitones above the root. -/
theorem le_of_interval? {sign : Sign} {n : Nat} (h : sign.interval? = some n) : n ≤ 21 := by
  cases sign <;> simp only [Sign.interval?, Option.some.injEq, reduceCtorEq] at h <;> omega

/-- The highest tone is the thirteenth, an octave above the sixth. -/
theorem interval_le (h : parse symbol = .ok chord) : ∀ interval ∈ chord.intervals,
    interval ≤ 21 := by
  obtain ⟨reading, -, -, rfl⟩ := exists_meaning h
  intro interval hmem
  rcases List.mem_append.1 ((mem_ascending _ _).1 hmem) with htriad | hadded
  · have htones : ∀ tone ∈ reading.quality.tones, tone ≤ 21 := by
      cases reading.quality <;> decide
    exact htones interval htriad
  · obtain ⟨sign, -, hsign⟩ := List.mem_filterMap.1 hadded
    exact le_of_interval? hsign

/-- The bass is below every tone, for it is in the octave below. -/
theorem numbers_ascend (h : parse symbol = .ok chord) (octave : Int) :
    (chord.numbers octave).Pairwise (· < ·) := by
  refine List.pairwise_append.2 ⟨?_, ?_, ?_⟩
  · cases chord.bass <;> simp
  · refine List.pairwise_map.2 ((intervals_ascend h).imp fun hlt => ?_)
    omega
  · intro low hlow high hhigh
    obtain ⟨bass, hbass, rfl⟩ := Option.map_eq_some_iff.1 (Option.mem_toList.1 hlow)
    obtain ⟨interval, -, rfl⟩ := List.mem_map.1 hhigh
    have hlt := bass_lt h hbass
    omega

/-- The pitches of a chord ascend. -/
theorem pitches_ascend (h : parse symbol = .ok chord) (octave : Int) :
    (chord.pitches octave).Pairwise (· < ·) := by
  have hsorted := (numbers_ascend h octave).filter IsPitch
  rw [← map_pitches, List.pairwise_map] at hsorted
  exact hsorted.imp Int.ofNat_lt.1

/-! ### Resolution -/

/-- A word is an integer of 32 bits. -/
theorem isWord_iff {n : Int} : isWord n = true ↔ -0x80000000 ≤ n ∧ n < 0x80000000 := by
  rw [isWord, Bool.and_eq_true, decide_eq_true_eq, decide_eq_true_eq]

/-- All sums on the way to the pitches of an octave are integers of 32 bits, unless the octave is
far off. -/
theorem reaches_of_near (h : parse symbol = .ok chord) {octave : Int}
    (hleast : -178956969 ≤ octave) (hmost : octave ≤ 178956967) :
    chord.reaches octave = true := by
  have hroot := root_lt h
  simp only [reaches, Bool.and_eq_true, List.all_eq_true, Option.all_eq_true, isWord_iff, tone]
  refine ⟨⟨⟨by omega, fun interval hinterval => ?_⟩, by omega⟩, fun bass hbass => ?_⟩
  · have hhigh := interval_le h interval hinterval
    omega
  · have hlow := bass_lt h hbass
    omega

/-- A symbol in an octave up to nine resolves to the pitches of its chord. -/
theorem resolve_of_octave (h : parse symbol = .ok chord) {octave : Nat} (hoctave : octave ≤ 9) :
    resolve symbol octave = .ok (chord.pitches octave) := by
  obtain ⟨lowest, third, fifth, more, htones, -⟩ := exists_tones h hoctave
  refine resolve_eq_ok.2 ⟨chord, h, reaches_of_near h (by omega) (by omega), ?_, rfl⟩
  rw [pitches_eq, htones]
  exact List.append_ne_nil_of_right_ne_nil _ (List.cons_ne_nil _ _)

/-- In the octaves 0 to 9 every chord resolves: to its bass and its tones as far as they are
pitches, in strictly ascending order. If nothing is left out, neither here nor an octave higher, the
pitches there are twelve semitones higher. -/
theorem resolve_exact (h : parse symbol = .ok chord) {octave : Nat} (hoctave : octave ≤ 9) :
    ∃ pitches, resolve symbol octave = .ok pitches ∧
      pitches.map Int.ofNat = (chord.numbers octave).filter IsPitch ∧
      pitches.Pairwise (· < ·) ∧ (∀ pitch ∈ pitches, pitch ≤ 127) ∧
      (octave + 1 ≤ 9 → (∀ n ∈ chord.numbers octave, IsPitch n) →
        (∀ n ∈ chord.numbers (octave + 1), IsPitch n) →
        resolve symbol (octave + 1 : Nat) = .ok (pitches.map (· + 12))) := by
  refine ⟨chord.pitches octave, resolve_of_octave h hoctave, map_pitches chord octave,
    pitches_ascend h octave, fun pitch => le_of_mem_pitches, fun hnext hall hall' => ?_⟩
  rw [resolve_of_octave h hnext]
  have hraised : (chord.pitches (octave + 1 : Nat)).map Int.ofNat =
      ((chord.pitches octave).map (· + 12)).map Int.ofNat := by
    calc (chord.pitches (octave + 1 : Nat)).map Int.ofNat
        = chord.numbers (octave + 1) := by
          rw [map_pitches]
          exact List.filter_eq_self.2 fun n hn => decide_eq_true (hall' n hn)
      _ = (chord.numbers octave).map (· + 12) := numbers_succ chord octave
      _ = ((chord.pitches octave).map Int.ofNat).map (· + 12) := by
          rw [map_pitches, List.filter_eq_self.2 fun n hn => decide_eq_true (hall n hn)]
      _ = ((chord.pitches octave).map (· + 12)).map Int.ofNat := by
          rw [List.map_map, List.map_map]
          rfl
  rw [List.map_injective_iff.2 (fun _ _ => Int.ofNat.inj) hraised]

/-- Nothing of this chord is left out in the octaves 3 and 4. -/
theorem resolve_exact_slash :
    resolve "Am7/G" (3 : Nat) = .ok [31, 45, 48, 52, 55] ∧
      resolve "Am7/G" (4 : Nat) = .ok [43, 57, 60, 64, 67] := by
  let reading : Reading := ⟨⟨.a, none⟩, .m, [.seven], some ⟨.g, none⟩⟩
  have hparse : parse "Am7/G" = .ok reading.chord :=
    parse_of_parts (.singleton _) (by decide +kernel)
  obtain ⟨pitches, hresolve, hpitches, -, -, hnext⟩ :=
    @resolve_exact _ _ hparse 3 (by decide)
  obtain rfl : pitches = [31, 45, 48, 52, 55] :=
    List.map_injective_iff.2 (fun _ _ => Int.ofNat.inj) (hpitches.trans (by decide))
  exact ⟨hresolve, hnext (by decide) (by decide) (by decide)⟩

end Studio.Music.Chord
