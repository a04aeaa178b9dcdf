import Studio.Json.Fault
import Studio.Number.Reading
import Studio.Text.Rest

/-!
# Reading the parts of a JSON text

Words, numbers and strings are read from the front of a list of characters. Every step returns what
is left, with the proof that something was read, so that all readers built from these steps end.
-/

namespace Studio.Json

open Studio.Number (isDigit digitValue)
open Studio.Text (Rest Tail length_behind_le length_behind_lt)

/-- The outcome of a reading step. -/
abbrev Step (s : List Char) (α : Type) := Text.Step Fault s α

/-- A step on a shorter text is a step on a longer one. -/
abbrev Step.widen {s t : List Char} {α : Type} (h : s.length ≤ t.length) (step : Step s α) :
    Step t α :=
  Text.Step.widen h step

/-- Whether the character is a blank of the format. -/
def isSpace (c : Char) : Bool :=
  c = ' ' || c = '\n' || c = '\t' || c = '\r'

/-- The text behind its leading blanks. -/
def skipSpace (s : List Char) : List Char :=
  s.dropWhile isSpace

/-- Skipping spaces leaves no more than there was. -/
theorem length_skipSpace_le (s : List Char) : (skipSpace s).length ≤ s.length :=
  (List.dropWhile_suffix isSpace).length_le

/-- The text behind the first character that is no blank is shorter than the whole. -/
theorem length_behind_space_lt {s r : List Char} {c : Char} (h : skipSpace s = c :: r) :
    r.length < s.length := by
  have hle := length_skipSpace_le s
  rw [h, List.length_cons] at hle
  exact hle

/-- Read the remaining letters of a word whose first letter was read. -/
def readWord (letters : List Char) (s : List Char) :
    Except Fault (Tail s) :=
  match letters, s with
  | [], s => .ok (.whole s)
  | _ :: _, [] => .error (.here .endInValue [])
  | l :: letters, c :: rest =>
    if l = c then
      match readWord letters rest with
      | .ok r => .ok ⟨r.val, Nat.le_succ_of_le r.property⟩
      | .error e => .error e
    else .error (.ahead .expectedWord (c :: rest))

/-- Read a word behind its first letter. -/
def wordAs {α : Type} (value : α) (letters : List Char) (first : Char) (s : List Char) :
    Step (first :: s) α :=
  match readWord letters s with
  | .ok r => .ok (value, ⟨r.val, Nat.lt_succ_of_le r.property⟩)
  | .error e => .error e

/-! ### Strings -/

/-- The value of a hexadecimal digit. -/
def hexValue? (c : Char) : Option Nat :=
  if isDigit c then some (digitValue c)
  else if 'a' ≤ c && c ≤ 'f' then some (c.toNat - 'a'.toNat + 10)
  else if 'A' ≤ c && c ≤ 'F' then some (c.toNat - 'A'.toNat + 10)
  else none

/-- Read four hexadecimal digits. -/
def readHex (s : List Char) : Step s Nat :=
  match s with
  | a :: b :: c :: d :: rest =>
    match hexValue? a, hexValue? b, hexValue? c, hexValue? d with
    | some a, some b, some c, some d =>
      .ok (((a * 16 + b) * 16 + c) * 16 + d, (Rest.behind rest).cons.cons.cons)
    | _, _, _, _ =>
      .error ⟨.invalidEscape, .beforeEnd (Text.byteCount (a :: b :: c :: d :: rest) - 4)⟩
  | s =>
    if Text.byteCount s < 4 then .error (.here .endInString [])
    else .error ⟨.invalidEscape, .beforeEnd (Text.byteCount s - 4)⟩

/-- Read the second half of a surrogate pair. -/
def readTrailing (leading : Nat) (s : List Char) : Step s Char :=
  match s with
  | [] => .error (.here .endInString [])
  | ['\\'] => .error (.here .endInString [])
  | '\\' :: 'u' :: rest =>
    match readHex rest with
    | .error e => .error e
    | .ok (n, r) =>
      if 0xDC00 ≤ n && n ≤ 0xDFFF then
        .ok (Char.ofNat ((leading - 0xD800) * 0x400 + (n - 0xDC00) + 0x10000),
          r.cons.cons)
      else .error (.here .loneSurrogate r.val)
  | '\\' :: c :: rest => .error (.ahead .unfinishedEscape (c :: rest))
  | c :: rest => .error (.ahead .unfinishedEscape (c :: rest))

/-- Read what follows the letter of an escape by code point. -/
def readCodePoint (s : List Char) : Step s Char :=
  match readHex s with
  | .error e => .error e
  | .ok (n, r) =>
    if 0xDC00 ≤ n && n ≤ 0xDFFF then .error (.here .loneSurrogate r.val)
    else if 0xD800 ≤ n && n ≤ 0xDBFF then
      Text.Step.after r (readTrailing n r.val)
    else .ok (Char.ofNat n, r)

/-- Read an escape behind its backslash. -/
def readEscape (s : List Char) : Step s Char :=
  match s with
  | [] => .error (.here .endInString [])
  | 'u' :: rest => (readCodePoint rest).cons
  | c :: rest =>
    let done (value : Char) : Step (c :: rest) Char := .ok (value, .behind rest)
    if c = '"' then done '"'
    else if c = '\\' then done '\\'
    else if c = '/' then done '/'
    else if c = 'b' then done '\x08'
    else if c = 'f' then done '\x0c'
    else if c = 'n' then done '\n'
    else if c = 'r' then done '\r'
    else if c = 't' then done '\t'
    else .error (.ahead .invalidEscape (c :: rest))

/-- Read a string behind its opening quote, where `read` holds the characters before, last first. -/
def readStringFrom (read : List Char) (s : List Char) : Step s String :=
  match s with
  | [] => .error (.here .endInString [])
  | c :: rest =>
    if c = '"' then .ok (String.ofList read.reverse, .behind rest)
    else if c = '\\' then
      match readEscape rest with
      | .error e => .error e
      | .ok (value, r) =>
        (readStringFrom (value :: read) r.val).widen (Nat.le_succ_of_le (Nat.le_of_lt r.property))
    else if c.toNat < 0x20 then .error (.here .controlCharacter rest)
    else (readStringFrom (c :: read) rest).cons
termination_by s.length
decreasing_by
  · have := r.property; simp only [List.length_cons]; omega
  · simp

/-- Read a string behind its opening quote. -/
def readString (s : List Char) : Step s String :=
  readStringFrom [] s

/-- Pass over a string behind its opening quote. Escapes by code point need not form characters. -/
def skipString (s : List Char) : Step s Unit :=
  match s with
  | [] => .error (.here .endInString [])
  | c :: rest =>
    if c = '"' then .ok ((), .behind rest)
    else if c = '\\' then
      match rest with
      | [] => .error (.here .endInString [])
      | 'u' :: more =>
        match readHex more with
        | .error e => .error e
        | .ok (_, r) => (skipString r.val).widen (Nat.le_succ_of_le (Nat.le_of_lt r.cons.property))
      | e :: more =>
        if ['"', '\\', '/', 'b', 'f', 'n', 'r', 't'].contains e then
          Text.Step.cons (Text.Step.cons (skipString more))
        else .error (.ahead .invalidEscape (e :: more))
    else if c.toNat < 0x20 then .error (.here .controlCharacter (c :: rest))
    else (skipString rest).cons
termination_by s.length
decreasing_by
  · have := r.property; simp only [List.length_cons]; omega
  · simp only [List.length_cons]; omega
  · simp only [List.length_cons]; omega

/-! ### Numbers -/

/-- A number of the format: natural and negative integers that fit 64 bits, and doubles. -/
inductive Numeral where
  | integer (n : Int)
  | float (x : Float)

/-- Extend a number by the digits in front of the text as long as it stays below `bound`; the
unread text then starts with no digit or with one that does not fit. -/
def takeDigits (bound n : Nat) : (s : List Char) → Nat × Tail s
  | [] => (n, .whole [])
  | c :: rest =>
    if isDigit c && 10 * n + digitValue c < bound then
      let (m, r) := takeDigits bound (10 * n + digitValue c) rest
      (m, ⟨r.val, Nat.le_succ_of_le r.property⟩)
    else (n, .whole (c :: rest))

/-- The text behind its leading digits. -/
def skipDigits (s : List Char) : Tail s :=
  ⟨s.dropWhile isDigit, (List.dropWhile_suffix _).length_le⟩

/-- Whether the text starts with a digit. -/
def digitAhead : List Char → Bool
  | c :: _ => isDigit c
  | [] => false

/-- A power of ten as a double. -/
def tenTo (n : Nat) : Float :=
  Float.ofScientific 1 false n

/-- Scale a double by a power of ten: with one factor when the exponent is at most 308 in size;
divisions beyond that take one factor of `10^308` after another, at most `steps`, and
multiplications beyond it leave the range. -/
def scaleByTen : Nat → Float → Int → Option Float
  | 0, _, _ => some (Float.ofBits 0)
  | steps + 1, x, e =>
    if e.natAbs ≤ 308 then
      if 0 ≤ e then
        let y := x * tenTo e.natAbs
        if y.isInf then none else some y
      else some (x / tenTo e.natAbs)
    else if x == 0 then some x
    else if 0 ≤ e then none
    else scaleByTen steps (x / tenTo 308) (e + 308)

/-- The double for the leading digits of a decimal and its exponent. -/
def assemble (negative : Bool) (digits : Nat) (e : Int) : Option Float :=
  (scaleByTen 8 (Float.ofNat digits) e).map fun x => if negative then -x else x

/-- The double that was read, if it is in range. -/
def floatStep {s : List Char} (negative : Bool) (digits : Nat) (e : Int) (r : Rest s) :
    Step s Numeral :=
  match assemble negative digits e with
  | some x => .ok (.float x, r)
  | none => .error (.here .numberOutOfRange r.val)

/-- Read an exponent behind its letter. -/
def readExponent (negative : Bool) (digits : Nat) (e : Int) (s : List Char) : Step s Numeral :=
  let (down, signed) : Bool × Tail s := match s with
    | '+' :: rest => (false, .behind rest)
    | '-' :: rest => (true, .behind rest)
    | s => (false, .whole s)
  match hs : signed.val with
  | [] => .error (.here .endInValue [])
  | c :: rest =>
    have hrest := length_behind_lt hs
    if isDigit c then
      let (n, r) := takeDigits 0x80000000 (digitValue c) rest
      if digitAhead r.val then
        -- An exponent of this size leaves zero, or a number that is out of range.
        if digits != 0 && !down then .error (.here .numberOutOfRange (r.val.drop 1))
        else
          .ok (.float (if negative then -(Float.ofBits 0) else Float.ofBits 0),
            (Rest.onward ⟨rest, hrest⟩ r).onward (skipDigits r.val))
      else
        floatStep negative digits (if down then e - n else e + n) (Rest.onward ⟨rest, hrest⟩ r)
    else .error (.ahead .invalidNumber (c :: rest))

/-- Read the fraction of a decimal behind its point. Digits that no longer fit are passed over. -/
def readFraction (negative : Bool) (digits : Nat) (e : Int) (s : List Char) : Step s Numeral :=
  match s with
  | [] => .error (.ahead .endInValue [])
  | c :: rest =>
    if isDigit c then
      let (n, r) := takeDigits 0x10000000000000000 digits (c :: rest)
      let e := e - ((c :: rest).length - r.val.length : Nat)
      let stop := skipDigits rest
      have hstop : stop.val.length < (c :: rest).length := Nat.lt_succ_of_le stop.property
      match hs : stop.val with
      | 'e' :: more => (readExponent negative n e more).widen (length_behind_le hs hstop)
      | 'E' :: more => (readExponent negative n e more).widen (length_behind_le hs hstop)
      | other => floatStep negative n e ⟨other, by rw [← hs]; exact hstop⟩
    else .error (.ahead .invalidNumber (c :: rest))

/-- Read what follows the digits of the integer part. -/
def readTail (negative : Bool) (digits : Nat) (s : List Char) (whole : Rest s) : Step s Numeral :=
  let long := digitAhead whole.val
  let stop := skipDigits whole.val
  -- Digits behind those that fit only count for the exponent.
  let e : Int := (whole.val.length - stop.val.length : Nat)
  have hle : stop.val.length < s.length := by
    have := stop.property; have := whole.property; omega
  match hs : stop.val with
  | '.' :: rest =>
    (readFraction negative digits e rest).widen (length_behind_le hs hle)
  | 'e' :: rest =>
    (readExponent negative digits e rest).widen (length_behind_le hs hle)
  | 'E' :: rest =>
    (readExponent negative digits e rest).widen (length_behind_le hs hle)
  | other =>
    if long then floatStep negative digits e ⟨other, by rw [← hs]; exact hle⟩
    -- The negative zero, and what is below the least integer of 64 bits, are doubles.
    else if !negative then .ok (.integer digits, whole)
    else if digits != 0 && digits ≤ 0x8000000000000000 then .ok (.integer (-digits), whole)
    else .ok (.float (-(Float.ofNat digits)), whole)

/-- Read a number, behind its sign if it is negative. -/
def readNumeral (negative : Bool) (s : List Char) : Step s Numeral :=
  match s with
  | [] => .error (.here .endInValue [])
  | c :: rest =>
    if c = '0' then
      if digitAhead rest then .error (.ahead .invalidNumber rest)
      else readTail negative 0 (c :: rest) (.behind rest)
    else if isDigit c then
      let (n, r) := takeDigits 0x10000000000000000 (digitValue c) rest
      readTail negative n (c :: rest) ⟨r.val, Nat.lt_succ_of_le r.property⟩
    else .error (.ahead .invalidNumber (c :: rest))

/-- Pass over an exponent behind its letter. -/
def skipExponent (s : List Char) : Step s Unit :=
  let signed : Tail s := match s with
    | '+' :: rest => .behind rest
    | '-' :: rest => .behind rest
    | s => .whole s
  match hs : signed.val with
  | [] => .error (.here .invalidNumber [])
  | c :: rest =>
    have hrest := length_behind_lt hs
    if isDigit c then
      .ok ((), Rest.onward ⟨rest, hrest⟩ (skipDigits rest))
    else .error (.ahead .invalidNumber (c :: rest))

/-- Pass over a fraction behind its point. -/
def skipFraction (s : List Char) : Step s Unit :=
  match s with
  | [] => .error (.ahead .invalidNumber [])
  | c :: rest =>
    if isDigit c then
      let stop := skipDigits rest
      have hstop : stop.val.length < (c :: rest).length := Nat.lt_succ_of_le stop.property
      match hs : stop.val with
      | 'e' :: more => (skipExponent more).widen (length_behind_le hs hstop)
      | 'E' :: more => (skipExponent more).widen (length_behind_le hs hstop)
      | other => .ok ((), ⟨other, by rw [← hs]; exact hstop⟩)
    else .error (.ahead .invalidNumber (c :: rest))

/-- Pass over what follows the digits of the integer part. -/
def skipTail (s : List Char) (stop : Rest s) : Step s Unit :=
  have hstop := stop.property
  match hs : stop.val with
  | '.' :: rest => (skipFraction rest).widen (length_behind_le hs hstop)
  | 'e' :: rest => (skipExponent rest).widen (length_behind_le hs hstop)
  | 'E' :: rest => (skipExponent rest).widen (length_behind_le hs hstop)
  | _ => .ok ((), stop)

/-- Pass over a number, behind its sign if it is negative. -/
def skipNumeral (s : List Char) : Step s Unit :=
  match s with
  | [] => .error (.here .invalidNumber [])
  | c :: rest =>
    if c = '0' then
      if digitAhead rest then .error (.ahead .invalidNumber rest)
      else skipTail (c :: rest) (.behind rest)
    else if isDigit c then
      let stop := skipDigits rest
      skipTail (c :: rest) ⟨stop.val, Nat.lt_succ_of_le stop.property⟩
    else .error (.ahead .invalidNumber (c :: rest))

end Studio.Json
