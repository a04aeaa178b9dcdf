import Mathlib.Data.List.Chain
import Mathlib.Tactic.IntervalCases
import Studio.Proofs.Grammar.Contents
import Studio.Proofs.Music.Symbols

/-!
# What chord symbols mean

A reading of a chord symbol names its root, its triad, the signs of the added tones one by one, and
its bass. The parser accepts a symbol exactly when its parts are those of a reading, and the chord
has the tones of the reading in which `maj7` and `maj9` count before `maj` (`parse_language`).
-/

namespace Studio.Music.Chord

open Studio.Text

/-! ### Readings -/

/-- The letters of pitch classes. -/
inductive Letter where
  | c | d | e | f | g | a | b
deriving DecidableEq, Repr

/-- The letter as it is written. -/
def Letter.char : Letter → Char
  | c => 'C'
  | d => 'D'
  | e => 'E'
  | f => 'F'
  | g => 'G'
  | a => 'A'
  | b => 'B'

/-- The distance from C in semitones. -/
def Letter.semitones : Letter → Nat
  | c => 0
  | d => 2
  | e => 4
  | f => 5
  | g => 7
  | a => 9
  | b => 11

/-- The signs behind the letter of a pitch class. -/
inductive Accidental where
  | sharp | flat
deriving DecidableEq, Repr

/-- The sign as it is written. -/
def Accidental.char : Accidental → Char
  | sharp => '#'
  | flat => 'b'

/-- By how much the sign moves a pitch. -/
def Accidental.semitones : Accidental → Int
  | sharp => 1
  | flat => -1

/-- The name of a pitch class. -/
structure PitchName where
  letter : Letter
  accidental : Option Accidental
deriving DecidableEq, Repr

/-- The name as it is written. -/
def PitchName.text (name : PitchName) : List Char :=
  name.letter.char :: (name.accidental.map Accidental.char).toList

/-- The distance from C in semitones, of which whole octaves are left out. -/
def PitchName.pitchClass (name : PitchName) : Nat :=
  ((name.letter.semitones + (name.accidental.map Accidental.semitones).getD 0) % 12).toNat

/-- The signs of triads; a major triad has none. -/
inductive Quality where
  | major | min | m | dim | aug | sus2 | sus4 | plus
deriving DecidableEq, Repr

/-- The sign as it is written. -/
def Quality.text : Quality → List Char
  | major => []
  | min => "min".toList
  | m => "m".toList
  | dim => "dim".toList
  | aug => "aug".toList
  | sus2 => "sus2".toList
  | sus4 => "sus4".toList
  | plus => "+".toList

/-- The distances of the tones from the root. -/
def Quality.tones : Quality → List Nat
  | major => [0, 4, 7]
  | min | m => [0, 3, 7]
  | dim => [0, 3, 6]
  | aug | plus => [0, 4, 8]
  | sus2 => [0, 2, 7]
  | sus4 => [0, 5, 7]

/-- The signs of added tones. -/
inductive Sign where
  | maj7 | maj9 | maj | add9 | add11 | add13 | thirteen | eleven | nine | seven | six
deriving DecidableEq, Repr

/-- The sign as it is written. -/
def Sign.text : Sign → List Char
  | maj7 => "maj7".toList
  | maj9 => "maj9".toList
  | maj => "maj".toList
  | add9 => "add9".toList
  | add11 => "add11".toList
  | add13 => "add13".toList
  | thirteen => "13".toList
  | eleven => "11".toList
  | nine => "9".toList
  | seven => "7".toList
  | six => "6".toList

/-- The distance of the added tone from the root; `maj` by itself adds none. -/
def Sign.interval? : Sign → Option Nat
  | maj7 => some 11
  | maj9 | add9 | nine => some 14
  | maj => none
  | add11 | eleven => some 17
  | add13 | thirteen => some 21
  | seven => some 10
  | six => some 9

/-- The sign that two signs are, written one behind the other. -/
def Sign.joined? : Sign → Sign → Option Sign
  | maj, seven => some maj7
  | maj, nine => some maj9
  | _, _ => none

/-- No two neighbours count as one sign. -/
def Joined (signs : List Sign) : Prop :=
  signs.IsChain fun sign next => sign.joined? next = none

/-- The text of signs one behind another. -/
def signsText (signs : List Sign) : List Char :=
  signs.flatMap Sign.text

/-- What a chord symbol means. -/
structure Reading where
  root : PitchName
  quality : Quality
  added : List Sign
  bass : Option PitchName
deriving DecidableEq, Repr

namespace Reading

/-- The text in front of the slash. -/
def body (reading : Reading) : List Char :=
  reading.root.text ++ (reading.quality.text ++ signsText reading.added)

/-- The texts on the two sides of the slash. -/
def parts (reading : Reading) : List Char × Option (List Char) :=
  (reading.body, reading.bass.map PitchName.text)

end Reading

/-! ### Pitch classes -/

/-- A character with a natural pitch class is a letter of a pitch. -/
theorem exists_letter {c : Char} {n : Nat} (h : natural? c = some n) :
    ∃ letter : Letter, c = letter.char := by
  unfold natural? at h
  split at h
  · exact ⟨.c, rfl⟩
  · exact ⟨.d, rfl⟩
  · exact ⟨.e, rfl⟩
  · exact ⟨.f, rfl⟩
  · exact ⟨.g, rfl⟩
  · exact ⟨.a, rfl⟩
  · exact ⟨.b, rfl⟩
  · cases h

/-- A letter has its semitones as natural pitch class. -/
theorem natural?_char (letter : Letter) : natural? letter.char = some letter.semitones := by
  cases letter <;> rfl

/-- The text does not begin with an accidental. -/
def Unsigned (s : List Char) : Prop :=
  ∀ rest, s ≠ '#' :: rest ∧ s ≠ 'b' :: rest

/-- A letter without a sign behind it is read as its semitones. -/
theorem readPitchClass?_of_unsigned {s : List Char} (h : Unsigned s) (letter : Letter) :
    readPitchClass? (letter.char :: s) = some (letter.semitones, s) := by
  rw [readPitchClass?, natural?_char, Option.map_some]
  split
  · exact absurd rfl (h _).1
  · exact absurd rfl (h _).2
  · rfl

/-- The name of a pitch class is read as this pitch class. -/
theorem readPitchClass?_text (name : PitchName) {s : List Char} (h : Unsigned s) :
    readPitchClass? (name.text ++ s) = some (name.pitchClass, s) := by
  obtain ⟨letter, accidental⟩ := name
  cases accidental with
  | some accidental => cases letter <;> cases accidental <;> rfl
  | none =>
      show readPitchClass? (letter.char :: s) = _
      rw [readPitchClass?_of_unsigned h]
      cases letter <;> rfl

/-- What is read as a pitch class is the name of one. -/
theorem exists_pitchName {s rest : List Char} {n : Nat} (h : readPitchClass? s = some (n, rest)) :
    ∃ name : PitchName, s = name.text ++ rest := by
  cases s with
  | nil => cases h
  | cons c s =>
      obtain ⟨m, hm, hrest⟩ := Option.map_eq_some_iff.1 h
      obtain ⟨letter, rfl⟩ := exists_letter hm
      split at hrest
      · obtain rfl := (Prod.mk.inj hrest).2
        exact ⟨⟨letter, some .sharp⟩, rfl⟩
      · obtain rfl := (Prod.mk.inj hrest).2
        exact ⟨⟨letter, some .flat⟩, rfl⟩
      · obtain rfl := (Prod.mk.inj hrest).2
        exact ⟨⟨letter, none⟩, rfl⟩

/-! ### Triads -/

/-- Signs of added tones begin with no sharp and no flat. -/
theorem unsigned_signsText (signs : List Sign) : Unsigned (signsText signs) := by
  cases signs with
  | nil => exact fun _ => ⟨nofun, nofun⟩
  | cons sign _ => cases sign <;> exact fun _ => ⟨nofun, nofun⟩

/-- In front of signs a triad is read as this triad. -/
theorem readTriad_text (quality : Quality) (signs : List Sign) :
    readTriad (quality.text ++ signsText signs) = (quality.tones, signsText signs) := by
  cases signs with
  | nil => cases quality <;> rfl
  | cons sign _ => cases quality <;> cases sign <;> rfl

/-- The table of triads holds those that have a sign. -/
theorem exists_of_mem_triads {triad : List Char × List Nat} (h : triad ∈ triads) :
    ∃ quality : Quality, triad = (quality.text, quality.tones) := by
  simp only [triads, List.mem_cons, List.not_mem_nil, or_false] at h
  rcases h with rfl | rfl | rfl | rfl | rfl | rfl | rfl
  · exact ⟨.min, rfl⟩
  · exact ⟨.dim, rfl⟩
  · exact ⟨.aug, rfl⟩
  · exact ⟨.sus2, rfl⟩
  · exact ⟨.sus4, rfl⟩
  · exact ⟨.m, rfl⟩
  · exact ⟨.plus, rfl⟩

/-- Where no `maj` begins a text, its triad is the first that does. -/
theorem readTriad_of_not_maj {s : List Char} (h : startsWith "maj".toList s = false) :
    readTriad s = (triads.findSome? fun triad =>
      (dropStart? triad.1 s).map fun rest => (triad.2, rest)).getD (majorTriad, s) := by
  rw [readTriad, if_neg (Bool.eq_false_iff.1 h)]

/-- What is in front of the rest is the sign of a triad, if it is anything. -/
theorem exists_quality (s : List Char) :
    ∃ quality : Quality, s = quality.text ++ (readTriad s).2 := by
  cases hmaj : startsWith "maj".toList s with
  | true => exact ⟨.major, by rw [readTriad, if_pos hmaj]; rfl⟩
  | false =>
      rw [readTriad_of_not_maj hmaj]
      cases hfound : triads.findSome? fun triad =>
          (dropStart? triad.1 s).map fun rest => (triad.2, rest) with
      | none => exact ⟨.major, rfl⟩
      | some found =>
          obtain ⟨triad, hmem, hread⟩ := List.exists_of_findSome?_eq_some hfound
          obtain ⟨rest, hdrop, rfl⟩ := Option.map_eq_some_iff.1 hread
          obtain ⟨quality, rfl⟩ := exists_of_mem_triads hmem
          exact ⟨quality, Text.append_of_dropStart? hdrop⟩

/-! ### Added tones -/

/-- All signs, those first that count before others. -/
def Sign.all : List Sign :=
  [maj7, maj9, maj, add9, add11, add13, thirteen, eleven, nine, seven, six]

/-- The first of all signs with which a text begins; what it adds, and the text behind it. -/
def nextSign? (s : List Char) : Option (Option Nat × List Char) :=
  Sign.all.findSome? fun sign => (dropStart? sign.text s).map fun r => (sign.interval?, r)

/-- An extension is read as the first sign that begins the text. -/
theorem readExtension?_eq (signs : List (Char × List Char × Option Nat)) (s : List Char) :
    (readExtension? signs s).map (fun found => (found.1, found.2.val)) =
      signs.findSome? fun (first, more, interval) =>
        (dropStart? (first :: more) s).map fun r => (interval, r) := by
  induction signs with
  | nil => cases s <;> rfl
  | cons sign signs ih =>
      obtain ⟨first, more, interval⟩ := sign
      cases s with
      | nil => exact (List.findSome?_eq_none_iff.2 fun _ _ => rfl).symm
      | cons c rest =>
          have hdrop : dropStart? (first :: more) (c :: rest) =
            if first = c then dropStart? more rest else none := rfl
          rw [readExtension?, List.findSome?_cons]
          simp only [hdrop]
          split
          · next r hr => simp only [hr, Option.map_some]
          · next hr =>
              simp only [hr, Option.map_none]
              exact ih

/-- The extensions are read in the order of all signs. -/
theorem nextSign?_eq (s : List Char) :
    (readExtension? extensions s).map (fun found => (found.1, found.2.val)) = nextSign? s :=
  readExtension?_eq extensions s

/-- What the signs of a text add: those that are left when the first is read. -/
theorem readExtensions_eq_ok {s : List Char} {intervals : List Nat} :
    readExtensions s = .ok intervals ↔ (s = [] ∧ intervals = []) ∨
      ∃ interval? rest others, nextSign? s = some (interval?, rest) ∧
        readExtensions rest = .ok others ∧ intervals = interval?.toList ++ others := by
  rw [readExtensions, ← nextSign?_eq]
  cases s with
  | nil => simp [readExtension?, eq_comm]
  | cons c s =>
      cases readExtension? extensions (c :: s) with
      | none => simp
      | some found =>
          obtain ⟨interval?, r⟩ := found
          cases hothers : readExtensions r.val <;> simp [hothers, eq_comm]

/-- What is read as signs is the text of signs. -/
theorem exists_signs {s : List Char} {intervals : List Nat} (h : readExtensions s = .ok intervals) :
    ∃ signs, s = signsText signs := by
  fun_induction readExtensions s generalizing intervals with
  | case1 s hs => exact ⟨[], List.isEmpty_iff.1 hs⟩
  | case2 => cases h
  | case3 => cases h
  | case4 s _ interval? r hread others hothers ih =>
      have hnext : nextSign? s = some (interval?, r.val) := by rw [← nextSign?_eq, hread]; rfl
      obtain ⟨sign, -, hsign⟩ := List.exists_of_findSome?_eq_some hnext
      obtain ⟨rest, hrest, heq⟩ := Option.map_eq_some_iff.1 hsign
      obtain ⟨-, rfl⟩ := Prod.mk.inj heq
      obtain ⟨signs, hsigns⟩ := ih hothers
      refine ⟨sign :: signs, ?_⟩
      rw [Text.append_of_dropStart? hrest, hsigns]
      rfl

/-- In front of signs that are not joined to it, a sign is the first that is read. -/
theorem nextSign?_text {sign : Sign} {signs : List Sign} (h : Joined (sign :: signs)) :
    nextSign? (signsText (sign :: signs)) = some (sign.interval?, signsText signs) := by
  cases signs with
  | nil => cases sign <;> rfl
  | cons next others =>
      have hnone := (List.isChain_cons_cons.1 h).1
      cases sign with
      | maj => cases next <;> first | rfl | cases hnone
      | _ => rfl

/-- Signs that are not joined are read one by one. -/
theorem readExtensions_text {signs : List Sign} (h : Joined signs) :
    readExtensions (signsText signs) = .ok (signs.filterMap Sign.interval?) := by
  induction signs with
  | nil => exact readExtensions_eq_ok.2 (.inl ⟨rfl, rfl⟩)
  | cons sign signs ih =>
      refine readExtensions_eq_ok.2 (.inr ⟨_, _, _, nextSign?_text h, ih h.of_cons, ?_⟩)
      cases hsign : sign.interval? <;> simp [hsign]

/-- Two signs are written as the sign that they are together, which goes with any other. -/
theorem text_joined {sign next joined : Sign} (h : sign.joined? next = some joined) :
    joined.text = sign.text ++ next.text ∧ ∀ other, joined.joined? other = none := by
  unfold Sign.joined? at h
  split at h
  · obtain rfl := Option.some.inj h
    exact ⟨rfl, fun _ => rfl⟩
  · obtain rfl := Option.some.inj h
    exact ⟨rfl, fun _ => rfl⟩
  · cases h

/-- Signs can be joined, and their text stays as it is. -/
theorem exists_joined (signs : List Sign) :
    ∃ joined, signsText joined = signsText signs ∧ Joined joined := by
  induction signs with
  | nil => exact ⟨[], rfl, .nil⟩
  | cons sign signs ih =>
      obtain ⟨rest, htext, hrest⟩ := ih
      have hsigns : signsText (sign :: signs) = sign.text ++ signsText rest := by
        rw [htext]
        rfl
      rw [hsigns]
      cases rest with
      | nil => exact ⟨[sign], rfl, .singleton _⟩
      | cons next others =>
          cases hjoined : sign.joined? next with
          | none => exact ⟨sign :: next :: others, rfl, hrest.cons_cons hjoined⟩
          | some joined =>
              obtain ⟨htext, hnone⟩ := text_joined hjoined
              refine ⟨joined :: others, ?_, ?_⟩
              · simp [signsText, htext]
              · exact List.isChain_cons.2 ⟨fun _ _ => hnone _, hrest.of_cons⟩

/-! ### Symbols -/

namespace Reading

/-- The chord that is meant. -/
def chord (reading : Reading) : Chord where
  root := reading.root.pitchClass
  intervals := ascending (reading.quality.tones ++ reading.added.filterMap Sign.interval?)
  bass := reading.bass.map PitchName.pitchClass

/-- Signs that could be joined may be, with the same parts of the symbol. -/
theorem exists_joined (reading : Reading) :
    ∃ other : Reading, Joined other.added ∧ other.parts = reading.parts := by
  obtain ⟨joined, htext, hjoined⟩ := Chord.exists_joined reading.added
  refine ⟨{ reading with added := joined }, hjoined, ?_⟩
  simp [parts, body, htext]

end Reading

/-- What stands behind a root begins with no sharp and no flat. -/
theorem unsigned_quality (quality : Quality) (signs : List Sign) :
    Unsigned (quality.text ++ signsText signs) := by
  cases quality with
  | major => exact unsigned_signsText signs
  | _ => exact fun _ => ⟨nofun, nofun⟩

/-- A bass that is written is read as its pitch class. -/
theorem bassOf_text (symbol : String) (bass : Option PitchName) :
    bassOf symbol (bass.map PitchName.text) = .ok (bass.map PitchName.pitchClass) := by
  cases bass with
  | none => rfl
  | some name =>
      have hread := @readPitchClass?_text name [] fun _ => ⟨nofun, nofun⟩
      rw [List.append_nil] at hread
      simp [bassOf, readBass?, hread]

/-- A symbol is read as the chord that is meant. -/
theorem parse_of_parts {symbol : String} {reading : Reading} (hjoined : Joined reading.added)
    (h : parts symbol.toList = reading.parts) : parse symbol = .ok reading.chord := by
  have hrest := readPitchClass?_text reading.root (unsigned_quality reading.quality reading.added)
  have htriad := readTriad_text reading.quality reading.added
  refine parse_eq_ok.2 ⟨reading.root.pitchClass, reading.quality.text ++ signsText reading.added,
    reading.bass.map PitchName.pitchClass, reading.added.filterMap Sign.interval?, ?_, ?_, ?_, ?_⟩
  · rw [h]
    exact hrest
  · rw [h]
    exact bassOf_text symbol reading.bass
  · rw [htriad]
    exact readExtensions_text hjoined
  · rw [htriad]
    rfl

/-- A bass that is read is the text of a pitch. -/
theorem exists_bass {symbol : String} {text? : Option (List Char)} {bass : Option Nat}
    (h : bassOf symbol text? = .ok bass) :
    ∃ name? : Option PitchName, text? = name?.map PitchName.text := by
  cases text? with
  | none => exact ⟨none, rfl⟩
  | some text =>
      unfold bassOf readBass? at h
      cases hread : readPitchClass? text with
      | none => simp [hread] at h
      | some found =>
          obtain ⟨n, rest⟩ := found
          cases rest with
          | cons c rest => simp [hread] at h
          | nil =>
              obtain ⟨name, hname⟩ := exists_pitchName hread
              exact ⟨some name, by simp [hname]⟩

/-- What is read as a chord is the symbol of one. -/
theorem exists_reading {symbol : String} {chord : Chord} (h : parse symbol = .ok chord) :
    ∃ reading : Reading, parts symbol.toList = reading.parts := by
  obtain ⟨root, rest, bass, added, hroot, hbass, hadded, -⟩ := parse_eq_ok.1 h
  obtain ⟨name, hname⟩ := exists_pitchName hroot
  obtain ⟨quality, hquality⟩ := exists_quality rest
  obtain ⟨signs, hsigns⟩ := exists_signs hadded
  obtain ⟨bass, hbass⟩ := exists_bass hbass
  refine ⟨⟨name, quality, signs, bass⟩, ?_⟩
  rw [Reading.parts, Reading.body, ← hsigns, ← hquality, ← hname, ← hbass]

/-- A chord that is read is the one that a reading means. -/
theorem exists_meaning {symbol : String} {chord : Chord} (h : parse symbol = .ok chord) :
    ∃ reading : Reading, Joined reading.added ∧ parts symbol.toList = reading.parts ∧
      chord = reading.chord := by
  obtain ⟨reading, hparts⟩ := exists_reading h
  obtain ⟨other, hjoined, hother⟩ := reading.exists_joined
  have hparts := hparts.trans hother.symm
  exact ⟨other, hjoined, hparts, Except.ok.inj (h.symm.trans (parse_of_parts hjoined hparts))⟩

/-! ### Symbols as the grammar has them -/

/-- The symbol, without blanks. -/
def Reading.text (reading : Reading) : List Char :=
  match reading.bass with
  | none => reading.body
  | some name => reading.body ++ '/' :: name.text

/-- A character that neither ends a part of a symbol nor is trimmed. -/
def isInner (c : Char) : Bool :=
  !isBlank c && c != '/'

/-- A pitch is written with inner characters. -/
theorem inner_pitchName (name : PitchName) : name.text.all isInner = true := by
  obtain ⟨letter, accidental⟩ := name
  cases accidental with
  | none => cases letter <;> rfl
  | some accidental => cases letter <;> cases accidental <;> rfl

/-- What stands in front of the slash is written with inner characters. -/
theorem inner_body (reading : Reading) : reading.body.all isInner = true := by
  have hquality : reading.quality.text.all isInner = true := by cases reading.quality <;> rfl
  have hsign : ∀ sign : Sign, sign.text.all isInner = true := by
    intro sign
    cases sign <;> rfl
  rw [Reading.body, List.all_append, List.all_append, inner_pitchName, hquality, signsText,
    List.all_flatMap]
  simp [hsign]

/-- There are no blanks in front of inner characters to drop. -/
theorem dropBlank_inner {s : List Char} (h : s.all isInner = true) : dropBlank s = s := by
  cases s with
  | nil => rfl
  | cons c rest =>
      have hc : isBlank c = false := by simp_all [isInner]
      simp [dropBlank, hc]

/-- There are no blanks around inner characters to trim. -/
theorem trimList_inner {s : List Char} (h : s.all isInner = true) : trimList s = s := by
  have hreverse : s.reverse.all isInner = true := by rwa [List.all_reverse]
  rw [trimList, dropBlank_inner h, dropBlankEnd, dropBlank_inner hreverse, List.reverse_reverse]

/-- The slash is no inner character. -/
theorem not_mem_inner {s : List Char} (h : s.all isInner = true) : '/' ∉ s := by
  intro hmem
  cases List.all_eq_true.1 h _ hmem

/-- The text of a symbol falls into the parts it was put together from. -/
theorem parts_text (reading : Reading) : parts reading.text = reading.parts := by
  obtain ⟨root, quality, added, bass⟩ := reading
  cases bass with
  | none =>
      have hbody := inner_body ⟨root, quality, added, none⟩
      rw [Reading.text, parts_of_splitOnce_eq_none (splitOnce_of_not_mem (not_mem_inner hbody)),
        trimList_inner hbody]
      rfl
  | some name =>
      have hbody := inner_body ⟨root, quality, added, some name⟩
      rw [Reading.text, parts_of_splitOnce (splitOnce_append (not_mem_inner hbody) _),
        trimList_inner hbody, trimList_inner (inner_pitchName name)]
      rfl

section

open Grammar (Phrase)
open Grammar.Harmonic (Name)

variable {means : Name → List Char → Prop} {s : List Char}

/-- The characters from A to G are the letters. -/
theorem exists_letter_of_le {c : Char} (h : 'A' ≤ c ∧ c ≤ 'G') :
    ∃ letter : Letter, c = letter.char := by
  simp only [Char.le_def, UInt32.le_iff_toNat_le] at h
  obtain ⟨hfirst, hlast⟩ : 65 ≤ c.toNat ∧ c.toNat ≤ 71 := h
  have hc : c = Char.ofNat c.toNat := (Char.ofNat_toNat c).symm
  generalize c.toNat = n at hc hfirst hlast
  subst hc
  interval_cases n
  · exact ⟨.a, rfl⟩
  · exact ⟨.b, rfl⟩
  · exact ⟨.c, rfl⟩
  · exact ⟨.d, rfl⟩
  · exact ⟨.e, rfl⟩
  · exact ⟨.f, rfl⟩
  · exact ⟨.g, rfl⟩

/-- A pitch class of the grammar is the text of a pitch. -/
theorem exists_of_pitchClass (h : Grammar.Harmonic.pitchClass.Denotes means s) :
    ∃ name : PitchName, s = name.text := by
  obtain ⟨_, _, ⟨c, hc, rfl⟩, haccidental, rfl⟩ := h
  have hletter : 'A' ≤ c ∧ c ≤ 'G' := by simpa [Grammar.CharClass.contains] using hc
  obtain ⟨letter, rfl⟩ := exists_letter_of_le hletter
  rcases haccidental with rfl | ⟨d, hd, rfl⟩
  · exact ⟨⟨letter, none⟩, rfl⟩
  · have hsign : ('#' ≤ d ∧ d ≤ '#') ∨ ('b' ≤ d ∧ d ≤ 'b') := by
      simpa [Grammar.CharClass.contains] using hd
    rcases hsign with ⟨hle, hge⟩ | ⟨hle, hge⟩
    · exact ⟨⟨letter, some .sharp⟩, by rw [Char.le_antisymm hge hle]; rfl⟩
    · exact ⟨⟨letter, some .flat⟩, by rw [Char.le_antisymm hge hle]; rfl⟩

/-- The grammar has `maj` among the triads, where the parser takes it for an added tone. -/
theorem exists_of_triad (h : (Phrase.optional Grammar.Harmonic.triad).Denotes means s) :
    ∃ (quality : Quality) (signs : List Sign), s = quality.text ++ signsText signs := by
  rcases h with rfl | rfl | rfl | rfl | rfl | rfl | rfl | rfl | rfl
  · exact ⟨.major, [], rfl⟩
  · exact ⟨.major, [.maj], rfl⟩
  · exact ⟨.min, [], rfl⟩
  · exact ⟨.m, [], rfl⟩
  · exact ⟨.dim, [], rfl⟩
  · exact ⟨.aug, [], rfl⟩
  · exact ⟨.sus2, [], rfl⟩
  · exact ⟨.sus4, [], rfl⟩
  · exact ⟨.plus, [], rfl⟩

/-- An extension of the grammar is the text of a sign. -/
theorem exists_of_extension (h : Grammar.Harmonic.extension.Denotes means s) :
    ∃ sign : Sign, s = sign.text := by
  rcases h with rfl | rfl | rfl | rfl | rfl | rfl | rfl | rfl | rfl | rfl
  · exact ⟨.maj7, rfl⟩
  · exact ⟨.maj9, rfl⟩
  · exact ⟨.add9, rfl⟩
  · exact ⟨.add11, rfl⟩
  · exact ⟨.add13, rfl⟩
  · exact ⟨.thirteen, rfl⟩
  · exact ⟨.eleven, rfl⟩
  · exact ⟨.nine, rfl⟩
  · exact ⟨.seven, rfl⟩
  · exact ⟨.six, rfl⟩

/-- Extensions of the grammar are the texts of signs. -/
theorem exists_of_extensions (h : (Phrase.many Grammar.Harmonic.extension).Denotes means s) :
    ∃ signs : List Sign, s = signsText signs := by
  obtain ⟨parts, hparts, rfl⟩ := h
  induction parts with
  | nil => exact ⟨[], rfl⟩
  | cons part parts ih =>
      obtain ⟨hpart, hrest⟩ := List.forall_mem_cons.1 hparts
      obtain ⟨sign, rfl⟩ := exists_of_extension hpart
      obtain ⟨signs, hsigns⟩ := ih hrest
      exact ⟨sign :: signs, by rw [List.flatten_cons, hsigns]; rfl⟩

/-- The symbols of the grammar are symbols of readings. -/
theorem exists_of_symbol (h : Grammar.Harmonic.symbol.Denotes means s) :
    ∃ reading : Reading, s = reading.text := by
  obtain ⟨_, _, hroot, ⟨_, _, htriad, ⟨_, _, hadded, hbass, rfl⟩, rfl⟩, rfl⟩ := h
  obtain ⟨root, rfl⟩ := exists_of_pitchClass hroot
  obtain ⟨quality, first, rfl⟩ := exists_of_triad htriad
  obtain ⟨signs, rfl⟩ := exists_of_extensions hadded
  rcases hbass with rfl | ⟨_, _, rfl, hname, rfl⟩
  · exact ⟨⟨root, quality, first ++ signs, none⟩, by simp [Reading.text, Reading.body, signsText]⟩
  · obtain ⟨name, rfl⟩ := exists_of_pitchClass hname
    exact ⟨⟨root, quality, first ++ signs, some name⟩,
      by simp [Reading.text, Reading.body, signsText]⟩

end

/-- The grammar for harmonic scripts allows only symbols of readings between quotes. -/
theorem exists_of_derives {s : List Char}
    (h : Grammar.Derives Grammar.Harmonic.rules (fun _ _ => true) (.rule .chord)
      ('"' :: (s ++ ['"']))) : ∃ reading : Reading, s = reading.text := by
  have hfits : Grammar.Harmonic.chord.Fits Grammar.Harmonic.rules := by repeat' constructor
  obtain ⟨value, hvalue⟩ := Grammar.Form.exists_meaning hfits h
  obtain ⟨body, heq, hbody, -⟩ := Grammar.Harmonic.exists_of_chord hvalue
  obtain rfl := List.append_cancel_right (List.cons.inj heq).2
  exact exists_of_symbol hbody

/-- A symbol is accepted exactly when its parts, trimmed and separated by the first slash, are those
of a reading, and so is every symbol of the grammar for harmonic scripts. Its chord has the tones of
the triad and of the signs, ascending and each only once, when they are joined where they can be. -/
theorem parse_language (symbol : String) :
    ((∃ chord, parse symbol = .ok chord) ↔
      ∃ reading : Reading, parts symbol.toList = reading.parts) ∧
    (Grammar.Derives Grammar.Harmonic.rules (fun _ _ => true) (.rule .chord)
      ('"' :: (symbol.toList ++ ['"'])) → ∃ chord, parse symbol = .ok chord) ∧
    ∀ chord, parse symbol = .ok chord →
      (∃ reading : Reading, Joined reading.added ∧ parts symbol.toList = reading.parts) ∧
      ∀ reading : Reading, Joined reading.added → parts symbol.toList = reading.parts →
        chord.root = reading.root.pitchClass ∧
        chord.bass = reading.bass.map PitchName.pitchClass ∧
        chord.intervals.Pairwise (· < ·) ∧
        ∀ n, n ∈ chord.intervals ↔
          n ∈ reading.quality.tones ∨ ∃ sign ∈ reading.added, sign.interval? = some n := by
  have haccepted {reading : Reading} (h : parts symbol.toList = reading.parts) :
      ∃ chord, parse symbol = .ok chord := by
    obtain ⟨other, hjoined, hparts⟩ := reading.exists_joined
    exact ⟨_, parse_of_parts hjoined (h.trans hparts.symm)⟩
  refine ⟨⟨fun ⟨_, h⟩ => exists_reading h, fun ⟨_, h⟩ => haccepted h⟩, ?_, ?_⟩
  · intro h
    obtain ⟨reading, htext⟩ := exists_of_derives h
    exact haccepted (htext ▸ parts_text reading)
  · intro chord h
    obtain ⟨reading, hjoined, hparts, -⟩ := exists_meaning h
    refine ⟨⟨reading, hjoined, hparts⟩, ?_⟩
    intro reading hjoined hparts
    obtain rfl := Except.ok.inj (h.symm.trans (parse_of_parts hjoined hparts))
    refine ⟨rfl, rfl, ascending_sorted _, ?_⟩
    intro n
    simp [Reading.chord, mem_ascending]

/-- A symbol with blanks around its parts, and one of the grammar. -/
theorem parse_language_slash :
    (∃ chord, parse " Bbmaj7 / D " = .ok chord ∧ chord.root = 10 ∧ chord.bass = some 2 ∧
      11 ∈ chord.intervals ∧ 10 ∉ chord.intervals) ∧
    Grammar.Derives Grammar.Harmonic.rules (fun _ _ => true) (.rule .chord) "\"Am/G\"".toList ∧
    ∃ chord, parse "Am/G" = .ok chord := by
  have hderives : Grammar.Derives Grammar.Harmonic.rules (fun _ _ => true) (.rule .chord)
      "\"Am/G\"".toList := Grammar.derives_of_accepts 60 (by decide +kernel)
  refine ⟨?_, hderives, (parse_language "Am/G").2.1 hderives⟩
  let reading : Reading := ⟨⟨.b, some .flat⟩, .major, [.maj7], some ⟨.d, none⟩⟩
  have hparts : parts " Bbmaj7 / D ".toList = reading.parts := by decide +kernel
  obtain ⟨haccepted, -, hchord⟩ := parse_language " Bbmaj7 / D "
  obtain ⟨chord, h⟩ := haccepted.2 ⟨reading, hparts⟩
  obtain ⟨hroot, hbass, -, hmem⟩ := (hchord chord h).2 reading (.singleton _) hparts
  refine ⟨chord, h, hroot, hbass, ?_, ?_⟩
  · exact (hmem 11).2 (.inr ⟨.maj7, List.mem_singleton_self _, rfl⟩)
  · rw [hmem]
    decide

end Studio.Music.Chord
