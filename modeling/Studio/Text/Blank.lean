/-!
# Blank characters and trimming

The characters of the Unicode property White_Space, and the cuts that are made at them: trimming on
either side, splitting at the first occurrence of a character, and splitting after every line end.
Main statements: `dropBlank_suffix` says that trimming removes a leading part only, and
`join_splitOnce` that a split loses only the separator.
-/

namespace Studio.Text

/-- The twenty-five characters of the property White_Space. -/
def isBlank (c : Char) : Bool :=
  (9 ≤ c.toNat && c.toNat ≤ 13) || c.toNat == 0x20 || c.toNat == 0x85 || c.toNat == 0xA0 ||
  c.toNat == 0x1680 || (0x2000 ≤ c.toNat && c.toNat ≤ 0x200A) || c.toNat == 0x2028 ||
  c.toNat == 0x2029 || c.toNat == 0x202F || c.toNat == 0x205F || c.toNat == 0x3000

/-- The text without its leading blanks. -/
def dropBlank (text : List Char) : List Char :=
  text.dropWhile isBlank

/-- The text without its trailing blanks. -/
def dropBlankEnd (text : List Char) : List Char :=
  (dropBlank text.reverse).reverse

/-- The text without the blanks at its two ends. -/
def trimList (text : List Char) : List Char :=
  dropBlankEnd (dropBlank text)

/-- `trimList` on strings. -/
def trim (text : String) : String :=
  String.ofList (trimList text.toList)

/-- `dropBlankEnd` on strings. -/
def trimEnd (text : String) : String :=
  String.ofList (dropBlankEnd text.toList)

/-- The parts before and after the first occurrence of `separator`, if there is one. -/
def splitOnce (separator : Char) : List Char → Option (List Char × List Char)
  | [] => none
  | c :: rest =>
    if c = separator then some ([], rest)
    else (splitOnce separator rest).map fun (before, after) => (c :: before, after)

/-- The text without the leading `start`, if it begins with that. -/
def dropStart? : List Char → List Char → Option (List Char)
  | [], text => some text
  | _ :: _, [] => none
  | s :: start, c :: text => if s = c then dropStart? start text else none

/-- Whether the text begins with `start`. -/
def startsWith (start text : List Char) : Bool :=
  (dropStart? start text).isSome

/-- Whether `part` occurs somewhere in the text. -/
def contains (part : List Char) : List Char → Bool
  | [] => part.isEmpty
  | c :: rest => startsWith part (c :: rest) || contains part rest

/-- The lines of a text, each with the line end that closes it; the last line may lack one. -/
def linesInclusive : List Char → List (List Char)
  | [] => []
  | c :: rest =>
    if c = '\n' then [c] :: linesInclusive rest
    else match linesInclusive rest with
      | [] => [[c]]
      | line :: lines => (c :: line) :: lines

/-- The texts in one, with `separator` between two neighbours. -/
def joinWith (separator : String) : List String → String
  | [] => ""
  | [text] => text
  | text :: rest => text ++ separator ++ joinWith separator rest

/-- The number of bytes of a text in UTF-8. -/
def byteCount (text : List Char) : Nat :=
  text.foldr (fun c n => c.utf8Size + n) 0

/-- Trimming in front removes a leading part only. -/
theorem dropBlank_suffix (text : List Char) : dropBlank text <:+ text :=
  List.dropWhile_suffix _

/-- A split loses only the separator. -/
theorem join_splitOnce {separator : Char} {text before after : List Char}
    (h : splitOnce separator text = some (before, after)) :
    text = before ++ separator :: after := by
  induction text generalizing before after with
  | nil => simp [splitOnce] at h
  | cons c rest ih =>
    by_cases hc : c = separator
    · simp only [splitOnce, hc, if_true, Option.some.injEq, Prod.mk.injEq] at h
      simp [← h.1, ← h.2, hc]
    · simp only [splitOnce, hc, if_false, Option.map_eq_some_iff, Prod.mk.injEq] at h
      obtain ⟨⟨b, a⟩, hs, hb, ha⟩ := h
      subst hb ha
      simp [ih hs]

/-- The first separator is the one behind a part that has none. -/
theorem splitOnce_append {separator : Char} {before : List Char} (h : separator ∉ before)
    (after : List Char) : splitOnce separator (before ++ separator :: after) =
      some (before, after) := by
  induction before with
  | nil => simp [splitOnce]
  | cons c before ih =>
    simp only [List.mem_cons, not_or] at h
    rw [List.cons_append, splitOnce, if_neg (Ne.symm h.1), ih h.2]
    rfl

/-- The part in front of the first separator has none. -/
theorem not_mem_of_splitOnce {separator : Char} {text before after : List Char}
    (h : splitOnce separator text = some (before, after)) : separator ∉ before := by
  induction text generalizing before with
  | nil => simp [splitOnce] at h
  | cons c rest ih =>
    rw [splitOnce] at h
    split at h
    · obtain ⟨rfl, -⟩ := Prod.mk.inj (Option.some.inj h)
      exact List.not_mem_nil
    · next hc =>
      obtain ⟨⟨front, back⟩, hsplit, heq⟩ := Option.map_eq_some_iff.1 h
      obtain ⟨rfl, rfl⟩ := Prod.mk.inj heq
      exact List.not_mem_cons_of_ne_of_not_mem (Ne.symm hc) (ih hsplit)

/-- The lines of a text, put together again, are the text. -/
theorem flatten_linesInclusive (text : List Char) : (linesInclusive text).flatten = text := by
  induction text with
  | nil => rfl
  | cons c rest ih =>
    simp only [linesInclusive]
    split
    · simp [ih]
    · split
      · next h => rw [h] at ih; simp_all
      · next line lines h => rw [h] at ih; simpa using ih

end Studio.Text
