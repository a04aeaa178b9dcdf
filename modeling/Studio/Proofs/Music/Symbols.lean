import Studio.Music.Chord
import Studio.Proofs.Text.Cutting

/-!
# Parts of chord symbols

Of a chord symbol only the parts count that the slash separates, without the blanks around them
(`parse_eq`). So a symbol can be trimmed (`parts_trimList`), or cut at its slash and put together
again from trimmed parts (`parts_joined`), and still has the same pitches (`resolve_congr`).
-/

namespace Studio

namespace Music.Chord

open Text

/-! ### Parts -/

/-- The parts of a symbol: what is in front of its slash, and what is behind it if it has one. -/
def parts (text : List Char) : List Char × Option (List Char) :=
  match splitOnce '/' (trimList text) with
  | some (body, bass) => (trimList body, some (trimList bass))
  | none => (trimList text, none)

/-- Blanks around a symbol make no difference to its parts. -/
theorem parts_trimList (text : List Char) : parts (trimList text) = parts text := by
  rw [parts, trimList_trimList, parts]

/-- Without a slash there is one part. -/
theorem parts_of_splitOnce_eq_none {text : List Char} (h : splitOnce '/' text = none) :
    parts text = (trimList text, none) := by
  have hnot : '/' ∉ trimList text := fun hmem =>
    not_mem_of_splitOnce_eq_none h (trimList_subset text hmem)
  rw [parts, splitOnce_of_not_mem hnot]

/-- It makes no difference whether a symbol is trimmed before it is split. -/
theorem parts_of_splitOnce {text body bass : List Char}
    (h : splitOnce '/' text = some (body, bass)) :
    parts text = (trimList body, some (trimList bass)) := by
  have hfront : '/' ∉ dropBlank body := fun hmem =>
    not_mem_of_splitOnce h ((dropBlank_suffix body).subset hmem)
  rw [join_splitOnce h, parts, trimList_append_cons rfl, splitOnce_append hfront]
  simp only [trimList_dropBlank, trimList_dropBlankEnd]

/-- Trimmed parts with a slash between them are the parts of the symbol. -/
theorem parts_joined {text body bass : List Char} (h : splitOnce '/' text = some (body, bass)) :
    parts (trimList body ++ '/' :: trimList bass) = parts text := by
  have htrimmed : '/' ∉ trimList body := fun hmem =>
    not_mem_of_splitOnce h (trimList_subset body hmem)
  rw [parts_of_splitOnce h, parts_of_splitOnce (splitOnce_append htrimmed _), trimList_trimList,
    trimList_trimList]

/-! ### Chords -/

/-- The bass of a symbol, if the part behind its slash is one. -/
def bassOf (symbol : String) : Option (List Char) → Except Fault (Option Nat)
  | none => .ok none
  | some text =>
    match readBass? text with
    | some n => .ok (some n)
    | none => .error (.invalidSymbol symbol .bass)

/-- A symbol is a root and a triad with added tones, and a bass behind a slash. -/
theorem parse_eq (symbol : String) : parse symbol =
    match readPitchClass? (parts symbol.toList).1 with
    | none => .error (.invalidSymbol symbol .root)
    | some (root, rest) =>
      match bassOf symbol (parts symbol.toList).2 with
      | .error e => .error e
      | .ok bass =>
        match readExtensions (readTriad rest).2 with
        | .error unread => .error (.invalidSymbol symbol (.extension (String.ofList unread)))
        | .ok added => .ok ⟨root, ascending ((readTriad rest).1 ++ added), bass⟩ := by
  rfl

/-- A symbol is parsed just when its root, its bass and its added tones are read. -/
theorem parse_eq_ok {symbol : String} {chord : Chord} : parse symbol = .ok chord ↔
    ∃ root rest bass added, readPitchClass? (parts symbol.toList).1 = some (root, rest) ∧
      bassOf symbol (parts symbol.toList).2 = .ok bass ∧
      readExtensions (readTriad rest).2 = .ok added ∧
      chord = ⟨root, ascending ((readTriad rest).1 ++ added), bass⟩ := by
  rw [parse_eq]
  cases readPitchClass? (parts symbol.toList).1 with
  | none => simp
  | some found =>
      obtain ⟨root, rest⟩ := found
      cases bassOf symbol (parts symbol.toList).2 with
      | error e => simp
      | ok bass => cases hadded : readExtensions (readTriad rest).2 <;> simp [hadded, eq_comm]

/-- Only its fault names the symbol that a bass belongs to. -/
theorem bassOf_eq_ok (symbol other : String) {text : Option (List Char)} {bass : Option Nat} :
    bassOf symbol text = .ok bass ↔ bassOf other text = .ok bass := by
  cases text with
  | none => rfl
  | some text => cases hbass : readBass? text <;> simp [bassOf, hbass]

/-- Symbols of the same parts are the same chord. Only the faults name the symbol as a whole. -/
theorem parse_congr {symbol other : String} (h : parts symbol.toList = parts other.toList)
    {chord : Chord} : parse symbol = .ok chord ↔ parse other = .ok chord := by
  rw [parse_eq_ok, parse_eq_ok, h]
  simp only [bassOf_eq_ok symbol other]

/-- A symbol resolves just when it is parsed, its octave is within reach and some pitch is in
range. -/
theorem resolve_eq_ok {symbol : String} {octave : Int} {pitches : List Nat} :
    resolve symbol octave = .ok pitches ↔ ∃ chord, parse symbol = .ok chord ∧
      chord.reaches octave = true ∧ chord.pitches octave ≠ [] ∧
      chord.pitches octave = pitches := by
  unfold resolve
  cases parse symbol with
  | error e => simp
  | ok chord =>
      cases hreaches : chord.reaches octave <;> cases hpitches : chord.pitches octave <;>
        simp [hreaches, hpitches]

/-- Symbols of the same parts have the same pitches. -/
theorem resolve_congr {symbol other : String} (h : parts symbol.toList = parts other.toList)
    {octave : Int} {pitches : List Nat} :
    resolve symbol octave = .ok pitches ↔ resolve other octave = .ok pitches := by
  simp only [resolve_eq_ok, parse_congr h]

end Music.Chord

end Studio
