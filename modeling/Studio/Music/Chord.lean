import Studio.Music.Fault
import Studio.Music.Note
import Studio.Text.Blank
import Studio.Text.Rest

/-!
# Chord symbols

A chord symbol names a root, a triad, tones that are added to it, and perhaps a bass behind a slash.
`Chord.parse` reads a symbol and `Chord.pitches` gives its tones in an octave. Main statement:
`ascending_sorted` says that the intervals of a chord are in strictly ascending order.
-/

namespace Studio.Music

open Studio.Text (Rest trimList splitOnce dropStart?)

/-- A chord: the pitch classes of its root and its bass, where C is 0, and the distances of its
tones from the root in semitones. -/
structure Chord where
  root : Nat
  intervals : List Nat
  bass : Option Nat
deriving DecidableEq, Repr

/-- Put a number into a strictly ascending list unless it is there. -/
def insertAscending (n : Nat) : List Nat → List Nat
  | [] => [n]
  | m :: rest =>
    if n < m then n :: m :: rest
    else if n = m then m :: rest
    else m :: insertAscending n rest

/-- The numbers of a list in strictly ascending order. -/
def ascending (numbers : List Nat) : List Nat :=
  numbers.foldr insertAscending []

namespace Chord

/-- The pitch class of a letter. -/
def natural? : Char → Option Nat
  | 'C' => some 0
  | 'D' => some 2
  | 'E' => some 4
  | 'F' => some 5
  | 'G' => some 7
  | 'A' => some 9
  | 'B' => some 11
  | _ => none

/-- Read a pitch class: a letter, and a sharp or a flat. -/
def readPitchClass? : List Char → Option (Nat × List Char)
  | [] => none
  | letter :: rest =>
    (natural? letter).map fun n =>
      match rest with
      | '#' :: more => ((n + 1) % 12, more)
      | 'b' :: more => ((n + 11) % 12, more)
      | _ => (n, rest)

/-- The tones of a major triad. -/
def majorTriad : List Nat := [0, 4, 7]

/-- The signs of the other triads with their tones. A sign counts before those behind it. -/
def triads : List (List Char × List Nat) :=
  [("min".toList, [0, 3, 7]), ("dim".toList, [0, 3, 6]), ("aug".toList, [0, 4, 8]),
    ("sus2".toList, [0, 2, 7]), ("sus4".toList, [0, 5, 7]), (['m'], [0, 3, 7]), (['+'], [0, 4, 8])]

/-- Read the triad: `maj` is no sign of a triad but belongs to the tones that are added. -/
def readTriad (s : List Char) : List Nat × List Char :=
  if Text.startsWith "maj".toList s then (majorTriad, s)
  else
    let found := triads.findSome? fun (sign, tones) => (dropStart? sign s).map fun r => (tones, r)
    found.getD (majorTriad, s)

/-- The signs of added tones, each a character and those behind it, with the interval that is added.
A sign counts before those behind it. -/
def extensions : List (Char × List Char × Option Nat) :=
  [('m', "aj7".toList, some 11), ('m', "aj9".toList, some 14), ('m', "aj".toList, none),
    ('a', "dd9".toList, some 14), ('a', "dd11".toList, some 17), ('a', "dd13".toList, some 21),
    ('1', ['3'], some 21), ('1', ['1'], some 17), ('9', [], some 14), ('7', [], some 10),
    ('6', [], some 9)]

/-- Dropping a start leaves no more than there was. -/
theorem length_dropStart?_le {start s r : List Char} (h : dropStart? start s = some r) :
    r.length ≤ s.length := by
  induction start generalizing s with
  | nil => simp [dropStart?] at h; simp [h]
  | cons c start ih =>
    cases s with
    | nil => simp [dropStart?] at h
    | cons d s =>
      simp only [dropStart?] at h
      split at h
      · exact Nat.le_succ_of_le (ih h)
      · simp at h

/-- Read the sign of one added tone from the signs that are allowed. -/
def readExtension? : List (Char × List Char × Option Nat) → (s : List Char) →
    Option (Option Nat × Rest s)
  | _, [] => none
  | [], _ => none
  | (first, more, interval) :: signs, c :: rest =>
    match h : if first = c then dropStart? more rest else none with
    | some r => some (interval, ⟨r, by
        split at h
        · exact Nat.lt_succ_of_le (length_dropStart?_le h)
        · simp at h⟩)
    | none => readExtension? signs (c :: rest)

/-- Read the signs of all added tones; a text that begins with none of them is returned as a
fault. -/
def readExtensions (s : List Char) : Except (List Char) (List Nat) :=
  if s.isEmpty then .ok []
  else
    match readExtension? extensions s with
    | none => .error s
    | some (interval, r) =>
      match readExtensions r.val with
      | .error e => .error e
      | .ok intervals => .ok (interval.toList ++ intervals)
termination_by s.length
decreasing_by exact r.property

/-- Read the bass behind a slash: a pitch class and nothing else. -/
def readBass? (s : List Char) : Option Nat :=
  match readPitchClass? s with
  | some (n, []) => some n
  | _ => none

/-- Read a chord symbol. -/
def parse (symbol : String) : Except Fault Chord :=
  let text := trimList symbol.toList
  let (body, slash) := match splitOnce '/' text with
    | some (body, bass) => (trimList body, some (trimList bass))
    | none => (text, none)
  match readPitchClass? body with
  | none => .error (.invalidSymbol symbol .root)
  | some (root, rest) =>
    let bass : Except Fault (Option Nat) := match slash with
      | none => .ok none
      | some s =>
        match readBass? s with
        | some n => .ok (some n)
        | none => .error (.invalidSymbol symbol .bass)
    match bass with
    | .error e => .error e
    | .ok bass =>
      -- A bad bass is reported before a bad tone.
      let (triad, rest) := readTriad rest
      match readExtensions rest with
      | .error unread => .error (.invalidSymbol symbol (.extension (String.ofList unread)))
      | .ok added => .ok ⟨root, ascending (triad ++ added), bass⟩

/-- The pitch with a number, if there is one. -/
def pitch? (n : Int) : Option Nat :=
  if 0 ≤ n && n ≤ Note.largest then some n.toNat else none

/-- The number of a tone of an octave, in semitones. The fourth octave begins at 48. -/
def tone (octave : Int) (semitones : Nat) : Int :=
  octave * 12 + semitones

/-- Whether a number is an integer of 32 bits. -/
def isWord (n : Int) : Bool :=
  -0x80000000 ≤ n && n < 0x80000000

/-- Whether all numbers that lead to the pitches of an octave are integers of 32 bits. -/
def reaches (chord : Chord) (octave : Int) : Bool :=
  isWord (octave * 12) &&
    chord.intervals.all (fun interval => isWord (tone octave (chord.root + interval))) &&
    isWord (tone octave chord.root) &&
    chord.bass.all fun bass => isWord (octave - 1) && isWord ((octave - 1) * 12) &&
      isWord (tone (octave - 1) bass)

/-- The pitches of a chord: its bass an octave below, then its tones. What is no pitch is left
out. -/
def pitches (chord : Chord) (octave : Int) : List Nat :=
  (chord.bass.bind fun bass => pitch? (tone (octave - 1) bass)).toList ++
    chord.intervals.filterMap fun interval => pitch? (tone octave (chord.root + interval))

/-- The pitches of a symbol in an octave, of which there must be one. -/
def resolve (symbol : String) (octave : Int) : Except Fault (List Nat) :=
  match parse symbol with
  | .error e => .error e
  | .ok chord =>
    if !chord.reaches octave then .error (.octaveOutOfReach octave)
    else if (chord.pitches octave).isEmpty then .error (.noPitches symbol octave)
    else .ok (chord.pitches octave)

/-- Raise the lowest of the pitches, which is the first, by an octave. -/
def raiseLowest? : List Nat → Option (List Nat)
  | [] => none
  | lowest :: rest => if lowest + 12 ≤ Note.largest then some (rest ++ [lowest + 12]) else none

/-- Raise the lowest pitch so many times, but not beyond the largest pitch. -/
def raise (pitches : List Nat) : Nat → List Nat
  | 0 => pitches
  | times + 1 =>
    match raiseLowest? pitches with
    | some raised => raise raised times
    | none => pitches

/-- The inversion of a chord: its lowest pitch is raised as often, though not more often than it has
pitches. -/
def invert (pitches : List Nat) (inversion : Nat) : List Nat :=
  raise pitches (min inversion pitches.length)

end Chord

/-- A number that is put among others is one of them. -/
theorem mem_insertAscending (n m : Nat) (numbers : List Nat) :
    m ∈ insertAscending n numbers ↔ m = n ∨ m ∈ numbers := by
  induction numbers with
  | nil => simp [insertAscending]
  | cons head rest ih =>
    simp only [insertAscending]
    split
    · simp
    · split
      · next h => simp [h]
      · simp [ih]; grind

/-- What ascends still does with a number put in its place. -/
theorem insertAscending_sorted (n : Nat) {numbers : List Nat} (h : numbers.Pairwise (· < ·)) :
    (insertAscending n numbers).Pairwise (· < ·) := by
  induction numbers with
  | nil => simp [insertAscending]
  | cons head rest ih =>
    obtain ⟨above, tail⟩ := List.pairwise_cons.1 h
    simp only [insertAscending]
    split
    · next hn =>
      refine List.pairwise_cons.2 ⟨fun m hm => ?_, h⟩
      rcases List.mem_cons.1 hm with rfl | hm
      · exact hn
      · exact Nat.lt_trans hn (above m hm)
    · split
      · exact h
      · refine List.pairwise_cons.2 ⟨fun m hm => ?_, ih tail⟩
        rcases (mem_insertAscending n m rest).1 hm with rfl | hm
        · omega
        · exact above m hm

/-- The intervals of a chord are in strictly ascending order. -/
theorem ascending_sorted (numbers : List Nat) : (ascending numbers).Pairwise (· < ·) := by
  induction numbers with
  | nil => exact List.Pairwise.nil
  | cons n rest ih => exact insertAscending_sorted n ih

/-- Bringing numbers into order neither adds nor loses any. -/
theorem mem_ascending (m : Nat) (numbers : List Nat) : m ∈ ascending numbers ↔ m ∈ numbers := by
  induction numbers with
  | nil => simp [ascending]
  | cons n rest ih =>
    have : ascending (n :: rest) = insertAscending n (ascending rest) := rfl
    simp [this, mem_insertAscending, ih]

end Studio.Music
