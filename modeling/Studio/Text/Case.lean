import Studio.Text.CaseData

/-!
# Lowercasing

The full lowercase mapping of Unicode, without the tailoring of any language: every character goes
to its lowercase form, the dotted capital I to two characters, and the capital sigma to its final
form at the end of a word.
-/

namespace Studio.Text

/-- Whether a code point lies in one of the ranges. -/
def inRanges (ranges : List (Nat × Nat)) (n : Nat) : Bool :=
  ranges.any fun (first, last) => first ≤ n && n ≤ last

/-- The lowercase form of a character, where that form is one character. -/
def lowerChar (c : Char) : Char :=
  let n := c.toNat
  if n < 0x80 then c.toLower
  else match lowercaseRuns.find? fun run =>
      run.first ≤ n && n ≤ run.last && (n - run.first) % run.step == 0 with
    | some run => Char.ofNat (run.target + (n - run.first))
    | none => c

/-- Whether the first character that is not ignored in case contexts is cased. -/
def casedAhead (text : List Char) : Bool :=
  match text.dropWhile fun c => inRanges caseIgnorableRanges c.toNat with
  | [] => false
  | c :: _ => inRanges casedRanges c.toNat

/-- Lowercase `rest`, where `before` holds the characters in front of it, nearest first. A capital
sigma takes its final form when a cased character precedes it and none follows. -/
def lowerFrom (before : List Char) : List Char → List Char
  | [] => []
  | c :: rest =>
    let lowered :=
      if c = 'Σ' then
        if casedAhead before && !casedAhead rest then ['ς'] else ['σ']
      else if c = 'İ' then ['i', '\u0307']
      else [lowerChar c]
    lowered ++ lowerFrom (c :: before) rest

/-- The text in lowercase. -/
def lower (text : String) : String :=
  String.ofList (lowerFrom [] text.toList)

end Studio.Text
