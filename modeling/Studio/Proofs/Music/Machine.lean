import Studio.Proofs.Music.Resolution

/-!
# Chords on a machine

A machine has integers of 32 bits, cuts texts at bytes, and takes elements out of lists by their
indices; it stops where there is no such integer, byte or element. Here are the functions on chords,
written with the operations of a machine. A symbol is read without a stop (`parse_eq`), and so are
pitches put in order (`order_eq`) and inverted (`voice_eq`); an octave can stop the machine, and
does so where it is out of reach (`resolve_eq`).
-/

namespace Studio.Machine

open Studio.Music
open Studio.Text
open Studio.Music.Chord (Sign isWord pitch?)

/-! ### Runs -/

/-- What a machine cannot carry out. -/
inductive Trap where
  /-- A result is no integer of its type. -/
  | overflow
  /-- There is nothing at an index. -/
  | outOfBounds
deriving DecidableEq, Repr

/-- Why a run ends before it has a result. -/
inductive Stop where
  | trap (trap : Trap)
  | fault (fault : Fault)

/-- What a run of a machine has for a result, or why it has none. -/
abbrev Run (α : Type) := Except Stop α

/-- What a fault means for a machine. An octave that is out of reach is none that it reports: its
integers overflow there. -/
def Stop.ofFault : Fault → Stop
  | .octaveOutOfReach _ => .trap .overflow
  | e => .fault e

/-- What a computation means for a machine. -/
def run {α : Type} (x : Except Fault α) : Run α :=
  x.mapError Stop.ofFault

/-- A part of a program that has no operation of the machine in it. -/
def lift {α : Type} (x : Except Fault α) : Run α :=
  x.mapError Stop.fault

section

variable {α β : Type}

/-- A sequence runs one part after the other. -/
theorem run_bind (x : Except Fault α) (f : α → Except Fault β) :
    run (x >>= f) = run x >>= fun a => run (f a) := by
  cases x <;> rfl

/-- Runs that go on alike with every result are alike. -/
theorem bind_congr_ok {x : Run α} {f g : α → Run β} (h : ∀ a, x = .ok a → f a = g a) :
    x >>= f = x >>= g := by
  cases x with
  | error e => rfl
  | ok a => exact h a rfl

/-- A run has a result just when the computation has. -/
theorem run_eq_ok {x : Except Fault α} {a : α} : run x = .ok a ↔ x = .ok a := by
  cases x <;> simp [run, Except.mapError]

end

/-! ### Operations -/

/-- The result of an operation on integers of 32 bits. -/
def checked (n : Int) : Run Int :=
  if isWord n then .ok n else .error (.trap .overflow)

/-- The difference of two sizes. -/
def minus (m n : Nat) : Run Nat :=
  if n ≤ m then .ok (m - n) else .error (.trap .overflow)

/-- Take the element at an index out of a list. -/
def takeOut {α : Type} (list : List α) (index : Nat) : Run (α × List α) :=
  match list[index]? with
  | some a => .ok (a, list.eraseIdx index)
  | none => .error (.trap .outOfBounds)

/-- The elements of a list from an index to in front of another. -/
def slice {α : Type} (list : List α) (first stop : Nat) : Run (List α) :=
  if first ≤ stop ∧ stop ≤ list.length then .ok ((list.take stop).drop first)
  else .error (.trap .outOfBounds)

/-- The text behind so many bytes, with which a character must end. -/
def cut : Nat → List Char → Run (List Char)
  | 0, text => .ok text
  | _ + 1, [] => .error (.trap .outOfBounds)
  | bytes + 1, c :: text =>
    if c.utf8Size ≤ bytes + 1 then cut (bytes + 1 - c.utf8Size) text
    else .error (.trap .outOfBounds)

/-- An integer of 32 bits passes the check. -/
theorem checked_of_isWord {n : Int} (h : isWord n = true) : checked n = .ok n :=
  if_pos h

/-- What follows a checked integer runs if the integer has 32 bits. -/
theorem checked_bind {α : Type} (n : Int) (f : Int → Run α) :
    checked n >>= f = if isWord n then f n else .error (.trap .overflow) := by
  rw [checked]
  cases isWord n <;> rfl

/-- A cut goes past a character that fits, with its bytes taken off. -/
theorem cut_cons {bytes : Nat} {c : Char} (h : c.utf8Size ≤ bytes) (text : List Char) :
    cut bytes (c :: text) = cut (bytes - c.utf8Size) text := by
  have hpos := Char.utf8Size_pos c
  cases bytes with
  | zero => omega
  | succ bytes => rw [cut, if_pos h]

/-- A cut behind a text leaves what follows it. -/
theorem cut_append (front text : List Char) : cut (byteCount front) (front ++ text) = .ok text := by
  induction front with
  | nil => exact cut.eq_1 text
  | cons c front ih =>
      have hcount : byteCount (c :: front) = c.utf8Size + byteCount front := rfl
      rw [hcount, List.cons_append, cut_cons (Nat.le_add_right ..), Nat.add_sub_cancel_left, ih]

/-- A cut leaves no more than there was. -/
theorem length_cut_le {bytes : Nat} {text rest : List Char} (h : cut bytes text = .ok rest) :
    rest.length ≤ text.length := by
  fun_induction cut bytes text with
  | case1 text => rw [Except.ok.inj h]
  | case2 => cases h
  | case3 bytes c text hfits ih => exact Nat.le_succ_of_le (ih h)
  | case4 => cases h

/-- A cut behind one byte or more leaves less. -/
theorem length_cut_lt {bytes : Nat} {text rest : List Char} (hpos : 0 < bytes)
    (h : cut bytes text = .ok rest) : rest.length < text.length := by
  fun_cases cut bytes text with
  | case1 => cases hpos
  | case2 => cases h
  | case3 bytes c text hfits =>
      rw [cut, if_pos hfits] at h
      exact Nat.lt_succ_of_le (length_cut_le h)
  | case4 _ _ _ hfits =>
      rw [cut, if_neg hfits] at h
      cases h

/-! ### Chord symbols -/

/-- What stands behind a letter: by how much it shifts the letter, and the bytes of both. -/
def accidental : List Char → Int × Nat
  | '#' :: _ => (1, 2)
  | 'b' :: _ => (-1, 2)
  | _ => (0, 1)

/-- Read a pitch class at the front of a text. -/
def readPitchClass? (text : List Char) : Run (Option (Nat × List Char)) :=
  match text.head?.bind Chord.natural? with
  | none => pure none
  | some natural => do
    let (shift, bytes) := accidental (← cut 1 text)
    let shifted ← checked (natural + shift)
    pure (some ((shifted % 12).toNat, ← cut bytes text))

/-- The letters of pitch classes are single bytes. -/
theorem utf8Size_of_natural? {letter : Char} {n : Nat} (h : Chord.natural? letter = some n) :
    letter.utf8Size = 1 ∧ n < 12 := by
  unfold Chord.natural? at h
  split at h <;> first | cases h; decide | cases h

/-- A letter and what belongs to it is read at once. -/
theorem exists_accidental {letter : Char} {natural : Nat}
    (h : Chord.natural? letter = some natural) (rest : List Char) :
    ∃ front tail, rest = front ++ tail ∧ (accidental rest).2 = byteCount (letter :: front) ∧
      checked (natural + (accidental rest).1) = .ok (natural + (accidental rest).1) ∧
      Chord.readPitchClass? (letter :: rest) =
        some (((natural + (accidental rest).1) % 12).toNat, tail) := by
  obtain ⟨hsize, hlt⟩ := utf8Size_of_natural? h
  have hcount (front : List Char) : byteCount (letter :: front) = 1 + byteCount front := by
    rw [← hsize]
    rfl
  have hshifted {shift : Int} (hleast : -1 ≤ shift) (hmost : shift ≤ 1) :
      checked (natural + shift) = .ok (natural + shift) :=
    checked_of_isWord (Chord.isWord_iff.2 ⟨by omega, by omega⟩)
  unfold accidental
  split
  · next tail =>
    refine ⟨['#'], tail, rfl, by rw [hcount]; rfl, hshifted (by decide) (by decide), ?_⟩
    have hclass : (natural + 1) % 12 = ((natural + (1 : Int)) % 12).toNat := by omega
    rw [Chord.readPitchClass?, h]
    exact congrArg some (Prod.ext hclass rfl)
  · next tail =>
    refine ⟨['b'], tail, rfl, by rw [hcount]; rfl, hshifted (by decide) (by decide), ?_⟩
    have hclass : (natural + 11) % 12 = ((natural + (-1 : Int)) % 12).toNat := by omega
    rw [Chord.readPitchClass?, h]
    exact congrArg some (Prod.ext hclass rfl)
  · next hsharp hflat =>
    refine ⟨[], rest, rfl, by rw [hcount]; rfl, hshifted (by decide) (by decide), ?_⟩
    have hclass : natural = ((natural + (0 : Int)) % 12).toNat := by omega
    rw [Chord.readPitchClass?, h, Option.map_some]
    split
    · exact absurd rfl (hsharp _)
    · exact absurd rfl (hflat _)
    · rw [← hclass]

/-- The machine reads a pitch class as the symbol is read. -/
theorem readPitchClass?_eq (text : List Char) :
    readPitchClass? text = .ok (Chord.readPitchClass? text) := by
  cases text with
  | nil => rfl
  | cons letter rest =>
      rw [readPitchClass?, List.head?_cons, Option.bind_some]
      cases hnatural : Chord.natural? letter with
      | none => rw [Chord.readPitchClass?, hnatural]; rfl
      | some natural =>
          obtain ⟨front, tail, rfl, hbytes, hshifted, hread⟩ := exists_accidental hnatural rest
          have hletter : cut 1 (letter :: (front ++ tail)) = .ok (front ++ tail) := by
            have hsize := (utf8Size_of_natural? hnatural).1
            rw [cut_cons (by omega), hsize]
            exact cut.eq_1 _
          have hboth : cut (byteCount (letter :: front)) (letter :: (front ++ tail)) = .ok tail :=
            cut_append (letter :: front) tail
          rw [hread]
          simp only [hletter, hshifted, hbytes, hboth, bind, Except.bind, pure, Except.pure]

/-- The first of the signs with which a text begins; what it adds, and its bytes. -/
def nextSign? (text : List Char) : Option (Option Nat × Nat) :=
  (Sign.all.find? fun sign => startsWith sign.text text).map fun sign =>
    (sign.interval?, byteCount sign.text)

/-- A sign has bytes. -/
theorem nextSign?_pos {text : List Char} {interval? : Option Nat} {bytes : Nat}
    (h : nextSign? text = some (interval?, bytes)) : 0 < bytes := by
  obtain ⟨sign, -, hsign⟩ := Option.map_eq_some_iff.1 h
  obtain ⟨-, rfl⟩ := Prod.mk.inj hsign
  cases sign <;> decide

/-- The bytes of a sign are those in front of the text behind it. -/
theorem nextSign?_eq (text : List Char) :
    match Chord.nextSign? text with
    | none => nextSign? text = none
    | some (interval?, rest) =>
      ∃ bytes, nextSign? text = some (interval?, bytes) ∧ cut bytes text = .ok rest := by
  unfold Chord.nextSign? nextSign?
  generalize Sign.all = signs
  induction signs with
  | nil => rfl
  | cons sign signs ih =>
      rw [List.findSome?_cons, List.find?_cons, startsWith]
      cases hdrop : dropStart? sign.text text with
      | none => exact ih
      | some rest =>
          refine ⟨byteCount sign.text, rfl, ?_⟩
          rw [Text.append_of_dropStart? hdrop, cut_append]

/-- An extension that is read is the next sign, and the cut behind it leaves the rest. -/
theorem exists_bytes {text : List Char} {interval? : Option Nat} {rest : Rest text}
    (h : Chord.readExtension? Chord.extensions text = some (interval?, rest)) :
    ∃ bytes, nextSign? text = some (interval?, bytes) ∧ cut bytes text = .ok rest.val := by
  have hnext := nextSign?_eq text
  rw [← Chord.nextSign?_eq, h] at hnext
  exact hnext

/-- Read the signs of all added tones. -/
def readExtensions (symbol : String) (text : List Char) : Run (List Nat) :=
  if text.isEmpty then pure []
  else
    match h : nextSign? text with
    | none => .error (.fault (.invalidSymbol symbol (.extension (String.ofList text))))
    | some (interval?, bytes) =>
      match h' : cut bytes text with
      | .error e => .error e
      | .ok rest =>
        have : rest.length < text.length := length_cut_lt (nextSign?_pos h) h'
        (readExtensions symbol rest).map (interval?.toList ++ ·)
termination_by text.length

section

variable (symbol : String) {text rest : List Char} {interval? : Option Nat} {bytes : Nat}

/-- Where no sign comes next, the rest of the symbol is a fault. -/
theorem readExtensions_of_no_sign (hempty : ¬ text.isEmpty = true) (h : nextSign? text = none) :
    readExtensions symbol text =
      .error (.fault (.invalidSymbol symbol (.extension (String.ofList text)))) := by
  rw [readExtensions, if_neg hempty]
  split
  · rfl
  · next hsign => rw [h] at hsign; cases hsign

/-- Where a sign comes next, the signs behind it follow. -/
theorem readExtensions_of_sign (hempty : ¬ text.isEmpty = true)
    (h : nextSign? text = some (interval?, bytes)) (hcut : cut bytes text = .ok rest) :
    readExtensions symbol text =
      (readExtensions symbol rest).map (interval?.toList ++ ·) := by
  rw [readExtensions, if_neg hempty]
  split
  · next hsign => rw [h] at hsign; cases hsign
  · next hsign =>
    rw [h] at hsign
    obtain ⟨rfl, rfl⟩ := Prod.mk.inj (Option.some.inj hsign)
    split
    · next hstop => rw [hcut] at hstop; cases hstop
    · next hbehind => rw [hcut] at hbehind; rw [Except.ok.inj hbehind]

/-- The machine reads the added tones as the symbol is read. -/
theorem readExtensions_eq (text : List Char) : readExtensions symbol text =
    (Chord.readExtensions text).mapError fun unread =>
      .fault (.invalidSymbol symbol (.extension (String.ofList unread))) := by
  fun_induction Chord.readExtensions text with
  | case1 text hempty => rw [readExtensions, if_pos hempty]; rfl
  | case2 text hempty hread =>
      have hnext := nextSign?_eq text
      rw [← Chord.nextSign?_eq, hread] at hnext
      exact readExtensions_of_no_sign symbol hempty hnext
  | case3 text hempty interval? rest hread unread hmore ih =>
      obtain ⟨bytes, hsign, hcut⟩ := exists_bytes hread
      rw [readExtensions_of_sign symbol hempty hsign hcut, ih, hmore]
      rfl
  | case4 text hempty interval? rest hread intervals hmore ih =>
      obtain ⟨bytes, hsign, hcut⟩ := exists_bytes hread
      rw [readExtensions_of_sign symbol hempty hsign hcut, ih, hmore]
      rfl

end

/-- Read the bass behind a slash. -/
def readBass (symbol : String) : Option (List Char) → Run (Option Nat)
  | none => pure none
  | some text => do
    match ← readPitchClass? text with
    | some (bass, []) => pure (some bass)
    | _ => throw (.fault (.invalidSymbol symbol .bass))

/-- Read a chord symbol. -/
def parse (symbol : String) : Run Chord := do
  let (body, slash) := Chord.parts symbol.toList
  match ← readPitchClass? body with
  | none => throw (.fault (.invalidSymbol symbol .root))
  | some (root, rest) =>
    let bass ← readBass symbol slash
    let (triad, rest) := Chord.readTriad rest
    let added ← readExtensions symbol rest
    pure ⟨root, ascending (triad ++ added), bass⟩

/-- The machine reads the bass as the symbol is read. -/
theorem readBass_eq (symbol : String) (slash : Option (List Char)) :
    readBass symbol slash = run (Chord.bassOf symbol slash) := by
  cases slash with
  | none => rfl
  | some text =>
      rw [readBass, readPitchClass?_eq, Chord.bassOf, Chord.readBass?]
      rcases Chord.readPitchClass? text with _ | ⟨bass, _ | ⟨c, rest⟩⟩ <;> rfl

/-- The machine parses symbols as they are parsed. -/
theorem parse_eq (symbol : String) : parse symbol = run (Chord.parse symbol) := by
  rw [Chord.parse_eq, parse]
  obtain ⟨body, slash⟩ := Chord.parts symbol.toList
  simp only [readPitchClass?_eq, readBass_eq, readExtensions_eq]
  cases Chord.readPitchClass? body with
  | none => rfl
  | some found =>
      obtain ⟨root, rest⟩ := found
      cases Chord.bassOf symbol slash with
      | error e => rfl
      | ok bass =>
          simp only [run, Except.mapError, bind, Except.bind]
          cases Chord.readExtensions (Chord.readTriad rest).2 <;> rfl

/-! ### Pitches -/

/-- The pitches of a chord. -/
def pitches (chord : Chord) (octave : Int) : Run (List Nat) := do
  let base ← checked ((← checked (octave * 12)) + chord.root)
  let tones ← chord.intervals.mapM fun interval : Nat => checked (base + interval)
  match chord.bass with
  | none => pure (tones.filterMap pitch?)
  | some bass =>
    let low ← checked ((← checked ((← checked (octave - 1)) * 12)) + bass)
    pure ((pitch? low).toList ++ tones.filterMap pitch?)

/-- A list of checked integers is complete if all have 32 bits, and overflows if not. -/
theorem mapM_checked (g : Nat → Int) (numbers : List Nat) :
    numbers.mapM (fun n => checked (g n)) =
      if numbers.all (fun n => isWord (g n)) then .ok (numbers.map g)
      else .error (.trap .overflow) := by
  induction numbers with
  | nil => rfl
  | cons n numbers ih =>
      rw [List.mapM_cons, ih, checked_bind, List.all_cons]
      cases isWord (g n) <;> cases numbers.all (fun n => isWord (g n)) <;> rfl

/-- What follows a list of checked integers runs if all have 32 bits. -/
theorem mapM_checked_bind {α : Type} (g : Nat → Int) (f : List Int → Run α) (numbers : List Nat) :
    numbers.mapM (fun n => checked (g n)) >>= f =
      if numbers.all (fun n => isWord (g n)) then f (numbers.map g)
      else .error (.trap .overflow) := by
  rw [mapM_checked]
  cases numbers.all (fun n => isWord (g n)) <;> rfl

/-- All integers that lead to the pitches must have 32 bits. -/
theorem pitches_eq (chord : Chord) (octave : Int) : pitches chord octave =
    if chord.reaches octave then .ok (chord.pitches octave) else .error (.trap .overflow) := by
  have htone (interval : Nat) : octave * 12 + chord.root + (interval : Int) =
      Chord.tone octave (chord.root + interval) := by
    rw [Chord.tone, Int.natCast_add, Int.add_assoc]
  simp only [pitches, checked_bind, mapM_checked_bind, htone]
  unfold Chord.reaches Chord.pitches
  cases chord.bass <;>
  · simp only [← ite_and]
    refine if_congr ?_ ?_ rfl
    · simp only [Chord.tone, Bool.and_eq_true, Option.all_none, Option.all_some]
      tauto
    · rw [List.filterMap_map]
      rfl

/-- The pitches of a symbol in an octave. -/
def resolve (symbol : String) (octave : Int) : Run (List Nat) := do
  let pitches ← pitches (← parse symbol) octave
  if pitches.isEmpty then throw (.fault (.noPitches symbol octave)) else pure pitches

/-- The machine resolves a symbol, or overflows where its octave is out of reach. -/
theorem resolve_eq (symbol : String) (octave : Int) :
    resolve symbol octave = run (Chord.resolve symbol octave) := by
  rw [resolve, Chord.resolve, parse_eq]
  cases Chord.parse symbol with
  | error e => rfl
  | ok chord =>
      show (pitches chord octave >>= _) = _
      rw [pitches_eq]
      dsimp only
      cases chord.reaches octave with
      | false => rfl
      | true =>
          show (if (chord.pitches octave).isEmpty then _ else _) =
            run (if (chord.pitches octave).isEmpty then _ else _)
          cases (chord.pitches octave).isEmpty <;> rfl

/-- The pitches in the order of a direction. -/
def order (direction : Direction) (pitches : List Nat) : Run (List Nat) :=
  match direction with
  | .up => pure pitches
  | .down => pure pitches.reverse
  | .upDown =>
    if 2 < pitches.length then do
      let inner ← slice pitches 1 (← minus pitches.length 1)
      pure (pitches ++ inner.reverse)
    else pure pitches

/-- The machine never stops at the order of pitches. -/
theorem order_eq (direction : Direction) (pitches : List Nat) :
    order direction pitches = .ok (direction.order pitches) := by
  cases direction with
  | up => rfl
  | down => rfl
  | upDown =>
      rw [order, Direction.order]
      split
      · next hlength =>
        have hslice : slice pitches 1 (pitches.length - 1) = .ok (pitches.drop 1).dropLast := by
          rw [slice, if_pos (by omega), List.drop_take, List.dropLast_eq_take, List.length_drop]
        rw [minus, if_pos (by omega)]
        simp only [hslice, bind, Except.bind, pure, Except.pure]
      · next hlength =>
        have hinner : (pitches.drop 1).dropLast = [] := by
          refine List.eq_nil_of_length_eq_zero ?_
          rw [List.length_dropLast, List.length_drop]
          omega
        rw [hinner, List.reverse_nil, List.append_nil]
        rfl

/-- The pitches one after another. -/
def arpeggio (pitches : List Nat) (direction : Direction) (duration : Option Float)
    (shape : Shape) : Run (List Note) := do
  let ordered ← order direction pitches
  pure (layFrom shape.velocity (arpeggioStep duration shape ordered.length) shape.start
    (List.replicate shape.times (ordered.map fun pitch => [pitch])).flatten)

/-- The machine never stops at an arpeggio. -/
theorem arpeggio_eq (pitches : List Nat) (direction : Direction) (duration : Option Float)
    (shape : Shape) :
    arpeggio pitches direction duration shape =
      .ok (Music.arpeggio pitches direction duration shape) := by
  rw [arpeggio, order_eq]
  rfl

/-- Raise the lowest pitch so many times. -/
def raise (pitches : List Nat) : Nat → Run (List Nat)
  | 0 => pure pitches
  | times + 1 => do
    let (lowest, rest) ← takeOut pitches 0
    -- A sum that is no byte is no pitch either, so whether it overflows makes no difference.
    if lowest + 12 ≤ Note.largest then raise (rest ++ [lowest + 12]) times
    else pure (lowest :: rest)

/-- The machine never stops when it raises as many pitches as there are. -/
theorem raise_eq {times : Nat} {pitches : List Nat} (h : times ≤ pitches.length) :
    raise pitches times = .ok (Chord.raise pitches times) := by
  induction times generalizing pitches with
  | zero => rfl
  | succ times ih =>
      cases pitches with
      | nil => cases h
      | cons lowest rest =>
          have htake : takeOut (lowest :: rest) 0 = .ok (lowest, rest) := rfl
          simp only [raise, htake, Chord.raise, Chord.raiseLowest?, bind, Except.bind]
          split
          · exact ih (List.length_append ▸ Nat.le_of_succ_le h)
          · rfl

/-- The inversion of a chord. -/
def invert (pitches : List Nat) (inversion : Nat) : Run (List Nat) :=
  raise pitches (min inversion pitches.length)

/-- The machine never stops at an inversion. -/
theorem invert_eq (pitches : List Nat) (inversion : Nat) :
    invert pitches inversion = .ok (Chord.invert pitches inversion) :=
  raise_eq (Nat.min_le_right ..)

/-- The pitches of an inverted chord; the first is left where it is if it counts as a bass. -/
def voice (pitches : List Nat) (inversion : Nat) (hasBass : Bool) : Run (List Nat) :=
  if inversion = 0 then pure pitches
  else if hasBass then do
    let (bass, tones) ← takeOut pitches 0
    pure (bass :: (← invert tones inversion))
  else invert pitches inversion

/-- The machine never stops at the voicing of a chord that has pitches. -/
theorem voice_eq {pitches : List Nat} (h : pitches ≠ []) (inversion : Nat) (hasBass : Bool) :
    voice pitches inversion hasBass = .ok (Payload.voice pitches inversion hasBass) := by
  obtain ⟨bass, tones, rfl⟩ := List.exists_cons_of_ne_nil h
  have htake : takeOut (bass :: tones) 0 = .ok (bass, tones) := rfl
  rw [voice, Payload.voice]
  split
  · rfl
  · split
    · simp only [htake, invert_eq, bind, Except.bind, pure, Except.pure]
      rfl
    · rw [invert_eq]

end Studio.Machine
