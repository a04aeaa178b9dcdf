import Studio.Number.Reading
import Studio.Script.Fault
import Studio.Text.Rest

/-!
# Reading scripts

`parse` reads a text as a script. Statements end with their line or with a semicolon; a line that
begins with a point goes on with the chain of calls before it; a number sign or two slashes begin a
comment that reaches to the end of the line. Between brackets a line end is a blank like any other.
-/

namespace Studio.Script

open Studio.Text (Rest Tail)
open Studio.Number (isDigit)

/-- Where reading stops and why, known by the number of bytes that are left unread. -/
structure Stop where
  cause : Malformation
  unread : Nat
deriving DecidableEq, Repr

/-- The outcome of a reading step. -/
abbrev Step (s : List Char) (α : Type) := Text.Step Stop s α

/-- Reading stops in front of a text. -/
def stop {α : Type} (cause : Malformation) (s : List Char) : Except Stop α :=
  .error ⟨cause, Text.byteCount s⟩

/-- The character that stands for the first byte of a character. -/
def firstByte (c : Char) : Char :=
  let n := c.toNat
  if n < 0x80 then c
  else if n < 0x800 then Char.ofNat (0xC0 + n / 0x40)
  else if n < 0x10000 then Char.ofNat (0xE0 + n / 0x1000)
  else Char.ofNat (0xF0 + n / 0x40000)

/-- The blanks of scripts. -/
def isBlank (c : Char) : Bool :=
  c = ' ' || c = '\t' || c = '\n' || c = '\x0c' || c = '\r'

/-- The blanks that do not end a line. -/
def isInlineBlank (c : Char) : Bool :=
  c = ' ' || c = '\t' || c = '\r'

/-- Whether a name may begin with the character. -/
def beginsName (c : Char) : Bool :=
  ('a' ≤ c && c ≤ 'z') || ('A' ≤ c && c ≤ 'Z') || c = '_'

/-- Whether a name may go on with the character. -/
def isNameChar (c : Char) : Bool :=
  beginsName c || isDigit c

/-- Whether a number may begin with the character. -/
def beginsNumber (c : Char) : Bool :=
  c = '-' || c = '+' || isDigit c

/-- The text behind its leading blanks. -/
def skipBlank (s : List Char) : List Char :=
  s.dropWhile isBlank

/-- The text behind the blanks in front of it on the same line. -/
def skipInline (s : List Char) : List Char :=
  s.dropWhile isInlineBlank

/-- Whether a comment begins here. -/
def commentAhead : List Char → Bool
  | '#' :: _ => true
  | '/' :: '/' :: _ => true
  | _ => false

/-- The text behind blanks, comments and the characters of `marks`; `inComment` says whether it
begins inside a comment. -/
def skipFiller (marks : List Char) : (inComment : Bool) → List Char → List Char
  | _, [] => []
  | true, c :: rest => skipFiller marks (c ≠ '\n') rest
  | false, c :: rest =>
    if isBlank c || marks.contains c then skipFiller marks false rest
    else if commentAhead (c :: rest) then skipFiller marks true rest
    else c :: rest

/-- Skipping blanks leaves no more than there was. -/
theorem length_skipBlank_le (s : List Char) : (skipBlank s).length ≤ s.length :=
  (List.dropWhile_suffix isBlank).length_le

/-- Skipping blanks of the line leaves no more than there was. -/
theorem length_skipInline_le (s : List Char) : (skipInline s).length ≤ s.length :=
  (List.dropWhile_suffix isInlineBlank).length_le

/-- Skipping filler leaves no more than there was. -/
theorem length_skipFiller_le (marks : List Char) (inComment : Bool) (s : List Char) :
    (skipFiller marks inComment s).length ≤ s.length := by
  fun_induction skipFiller marks inComment s <;> simp_all <;> omega

/-! ### Names, texts and numbers -/

/-- Read a name. -/
def readName (s : List Char) : Step s String :=
  match s with
  | [] => stop .expectedName []
  | c :: rest =>
    if beginsName c then
      .ok (String.ofList (c :: rest.takeWhile isNameChar),
        ⟨rest.dropWhile isNameChar,
          Nat.lt_succ_of_le (List.dropWhile_suffix isNameChar).length_le⟩)
    else stop .expectedName (c :: rest)

/-- The character that an escape stands for. -/
def unescape? (c : Char) : Option Char :=
  if c = '"' then some '"'
  else if c = '\\' then some '\\'
  else if c = 'n' then some '\n'
  else if c = 't' then some '\t'
  else none

/-- Read the characters of a text behind its opening quote, where `read` holds those before, last
first. -/
def readStringFrom (read : List Char) (s : List Char) : Step s String :=
  match s with
  | [] => stop .unterminatedString []
  | ['\\'] => stop .incompleteEscape []
  | '\\' :: c :: rest =>
    match unescape? c with
    | some value => (readStringFrom (value :: read) rest).cons.cons
    | none => stop (.unknownEscape (firstByte c)) (c :: rest)
  | c :: rest =>
    if c = '"' then .ok (String.ofList read.reverse, .behind rest)
    else (readStringFrom (c :: read) rest).cons

/-- Read a text behind its opening quote. -/
def readString (s : List Char) : Step s String :=
  readStringFrom [] s

/-- The number written with a sign, digits and the digits behind a point. -/
def ofDecimal (negative : Bool) (whole fraction : List Char) : Float :=
  Number.DecimalText.toDouble ⟨negative, Number.ofDigits (whole ++ fraction), -fraction.length⟩

/-- The digits behind a point, if a point and a digit come next, and the text behind them. -/
def readFraction : List Char → List Char × List Char
  | '.' :: c :: rest =>
    if isDigit c then (c :: rest.takeWhile isDigit, rest.dropWhile isDigit)
    else ([], '.' :: c :: rest)
  | s => ([], s)

/-- Reading a fraction leaves no more than there was. -/
theorem length_readFraction_le (s : List Char) : (readFraction s).2.length ≤ s.length := by
  unfold readFraction
  split
  · next c rest =>
    split
    · exact Nat.le_succ_of_le (Nat.le_succ_of_le (List.dropWhile_suffix isDigit).length_le)
    · exact Nat.le_refl _
  · exact Nat.le_refl _

/-- Read the digits of a number behind its sign, where `whole` is the text in front of the sign. -/
def readDigits (negative : Bool) (whole : List Char) (s : List Char) : Step s Float :=
  match s with
  | [] => stop .expectedNumber whole
  | c :: rest =>
    if isDigit c then
      .ok (ofDecimal negative (c :: rest.takeWhile isDigit)
          (readFraction (rest.dropWhile isDigit)).1,
        ⟨(readFraction (rest.dropWhile isDigit)).2,
          Nat.lt_succ_of_le (Nat.le_trans (length_readFraction_le _)
            (List.dropWhile_suffix isDigit).length_le)⟩)
    else stop .expectedNumber whole

/-- Read a number with an optional sign. -/
def readNumber (s : List Char) : Step s Float :=
  match s with
  | '-' :: rest => (readDigits true s rest).cons
  | '+' :: rest => (readDigits false s rest).cons
  | s => readDigits false s s

/-! ### Comparisons -/

/-- Read the sign of a comparison, if one comes next. -/
def readComparison? : (s : List Char) → Option (Comparison × Rest s)
  | '=' :: '=' :: rest => some (.equal, (Rest.behind rest).cons)
  | '!' :: '=' :: rest => some (.unequal, (Rest.behind rest).cons)
  | '<' :: '=' :: rest => some (.atMost, (Rest.behind rest).cons)
  | '>' :: '=' :: rest => some (.atLeast, (Rest.behind rest).cons)
  | '<' :: rest => some (.less, .behind rest)
  | '>' :: rest => some (.greater, .behind rest)
  | _ => none

/-- Read the right-hand side of a comparison. -/
def readLiteral (s : List Char) : Step s Literal :=
  match s with
  | [] => stop .expectedLiteral []
  | c :: rest =>
    if c = '"' then ((readString rest).map Literal.string).cons
    else if beginsNumber c then (readNumber (c :: rest)).map Literal.number
    else if beginsName c then
      match readName (c :: rest) with
      | .error e => .error e
      | .ok (word, r) =>
        if word = "true" then .ok (.bool true, r)
        else if word = "false" then .ok (.bool false, r)
        else stop (.literalWord word) r.val
    else stop .expectedLiteral (c :: rest)

/-- Read the index behind an opening square bracket. -/
def readIndex (s : List Char) : Step s Nat :=
  match readNumber (skipBlank s) with
  | .error e => .error e
  | .ok (x, r) =>
    match h : skipBlank r.val with
    | ']' :: rest =>
      if x < 0 || !Number.isIntegral x then stop .indexNotNatural rest
      else .ok (Number.toIndex x, ⟨rest, by
        have h1 := length_skipBlank_le s
        have h2 := r.property
        have h3 := length_skipBlank_le r.val
        rw [h] at h3
        simp only [List.length_cons] at h3
        omega⟩)
    | other => stop (.expected ']') other

/-- Read what may follow a property: an index, and a comparison. A property alone, without a
variable and an index, is a bare word. -/
def readProperty (root : Option String) (property : String) (s : List Char) :
    Text.TailStep Stop s Value :=
  let indexed : Text.TailStep Stop s (Option Nat) :=
    match s with
    | '[' :: rest =>
      match readIndex rest with
      | .error e => .error e
      | .ok (index, r) => .ok (some index, r.cons.toTail)
    | s => .ok (none, .whole s)
  match indexed with
  | .error e => .error e
  | .ok (index, r) =>
    match readComparison? (skipBlank r.val) with
    | some (comparison, r') =>
      match readLiteral (skipBlank r'.val) with
      | .error e => .error e
      | .ok (literal, r'') =>
        .ok (.predicate ⟨root, property, index, comparison, literal⟩, ⟨r''.val, by
          have h1 := r.property
          have h2 := length_skipBlank_le r.val
          have h3 := r'.property
          have h4 := length_skipBlank_le r'.val
          have h5 := r''.property
          omega⟩)
    | none =>
      match root, index with
      | none, none => .ok (.string property, r)
      | _, _ => stop .pathWithoutComparison r.val

/-! ### Values and arguments -/

/-- The values that are words of the language. -/
def keyword? (word : String) : Option Value :=
  if word = "true" then some (.bool true)
  else if word = "false" then some (.bool false)
  else if word = "none" || word = "null" then some .none
  else none

/-- Whether a name and the sign that gives it a value come next; the text behind them. -/
def readLabel? (s : List Char) : Option (String × Rest s) :=
  match readName s with
  | .error _ => none
  | .ok (name, r) =>
    match h : skipInline r.val with
    | '=' :: rest =>
      if rest.head? = some '=' then none
      else some (name, ⟨rest, by
        have h1 := length_skipInline_le r.val
        have h2 := r.property
        rw [h] at h1
        simp only [List.length_cons] at h1
        omega⟩)
    | _ => none

mutual

/-- Read a value. -/
def readValue (s : List Char) : Step s Value :=
  match s with
  | [] => stop .endOfText []
  | c :: rest =>
    if c = '"' then ((readString rest).map Value.string).cons
    else if c = '[' then ((readItems rest).map Value.array).cons
    else if c = '@' then ((readName rest).map Value.reference).cons
    else if beginsNumber c then (readNumber (c :: rest)).map Value.number
    else if beginsName c then
      match readName (c :: rest) with
      | .error e => .error e
      | .ok (name, r) =>
        match readNamed name r.val with
        | .error e => .error e
        | .ok (value, t) => .ok (value, r.onward t)
    else stop (.unexpectedCharacter (firstByte c)) (c :: rest)
termination_by (s.length, 0)
decreasing_by
  · exact Prod.Lex.left _ _ (Nat.lt_succ_self _)
  · exact Prod.Lex.left _ _ r.property

/-- Read what makes a value of the name in front of it. -/
def readNamed (name : String) (s : List Char) : Text.TailStep Stop s Value :=
  match keyword? name with
  | some value => .ok (value, .whole s)
  | none =>
    match s with
    | '(' :: rest =>
      match readArguments rest with
      | .error e => .error e
      | .ok (arguments, r) =>
        .ok (.invocation none ⟨name, arguments⟩, (r.cons).toTail)
    | '.' :: c :: rest =>
      if beginsName c then
        match readName (c :: rest) with
        | .error e => .error e
        | .ok (member, r) =>
          match readMember name member r.val with
          | .error e => .error e
          | .ok (value, t) => .ok (value, ((r.onward t).cons).toTail)
      else readProperty none name ('.' :: c :: rest)
    | s => readProperty none name s
termination_by (s.length, 1)
decreasing_by
  · exact Prod.Lex.left _ _ (Nat.lt_succ_self _)
  · exact Prod.Lex.left _ _ (Nat.lt_succ_of_lt r.property)

/-- Read what makes a value of a variable and a name that belongs to it. -/
def readMember (variableName name : String) (s : List Char) : Text.TailStep Stop s Value :=
  match s with
  | '(' :: rest =>
    match readArguments rest with
    | .error e => .error e
    | .ok (arguments, r) =>
      .ok (.invocation (some variableName) ⟨name, arguments⟩, (r.cons).toTail)
  | s => readProperty (some variableName) name s
termination_by (s.length, 1)
decreasing_by exact Prod.Lex.left _ _ (Nat.lt_succ_self _)

/-- Read arguments behind their opening bracket. -/
def readArguments (s : List Char) : Step s (List Argument) :=
  match h : skipBlank s with
  | ')' :: rest => .ok ([], ⟨rest, by
    have := length_skipBlank_le s; rw [h] at this; simp only [List.length_cons] at this; omega⟩)
  | _ => readArgumentList s
termination_by (s.length, 4)
decreasing_by exact Prod.Lex.right _ (by decide)

/-- Read arguments, at least one, up to their closing bracket. -/
def readArgumentList (s : List Char) : Step s (List Argument) :=
  match readArgument (skipBlank s) with
  | .error e => .error e
  | .ok (argument, r) =>
    match h : skipBlank r.val with
    | ',' :: rest =>
      have hlt : rest.length < s.length := by
        have h1 := length_skipBlank_le s
        have h2 := length_skipBlank_le r.val
        have h3 := r.property
        rw [h, List.length_cons] at h2
        omega
      match readArgumentList rest with
      | .error e => .error e
      | .ok (more, r') => .ok (argument :: more, r'.widen (Nat.le_of_lt hlt))
    | ')' :: rest => .ok ([argument], ⟨rest, by
        have h1 := length_skipBlank_le s
        have h2 := length_skipBlank_le r.val
        have h3 := r.property
        rw [h, List.length_cons] at h2
        omega⟩)
    | [] => stop .unterminatedArguments []
    | other => stop .expectedArgumentEnd other
termination_by (s.length, 3)
decreasing_by
  · exact Prod.lex_def.2 (by
      rcases Nat.lt_or_eq_of_le (length_skipBlank_le s) with h | h
      · exact .inl h
      · exact .inr ⟨h, Nat.lt_succ_self 2⟩)
  · exact Prod.Lex.left _ _ hlt

/-- Read an argument. -/
def readArgument (s : List Char) : Step s Argument :=
  match readLabel? s with
  | some (name, r) =>
    match readValue (skipBlank r.val) with
    | .error e => .error e
    | .ok (value, r') => .ok (⟨some name, value⟩, ⟨r'.val, by
        have h1 := length_skipBlank_le r.val
        have h2 := r.property
        have h3 := r'.property
        omega⟩)
  | none =>
    match readValue s with
    | .error e => .error e
    | .ok (value, r) => .ok (⟨none, value⟩, r)
termination_by (s.length, 2)
decreasing_by
  · exact Prod.Lex.left _ _ (Nat.lt_of_le_of_lt (length_skipBlank_le _) r.property)
  · exact Prod.Lex.right _ (by decide)

/-- Read the items of a list behind its opening bracket. -/
def readItems (s : List Char) : Step s (List Value) :=
  match h : skipBlank s with
  | ']' :: rest => .ok ([], ⟨rest, by
    have := length_skipBlank_le s; rw [h] at this; simp only [List.length_cons] at this; omega⟩)
  | _ => readItemList s
termination_by (s.length, 3)
decreasing_by exact Prod.Lex.right _ (by decide)

/-- Read items, at least one, up to their closing bracket. -/
def readItemList (s : List Char) : Step s (List Value) :=
  match readValue (skipBlank s) with
  | .error e => .error e
  | .ok (item, r) =>
    match h : skipBlank r.val with
    | ',' :: rest =>
      have hlt : rest.length < s.length := by
        have h1 := length_skipBlank_le s
        have h2 := length_skipBlank_le r.val
        have h3 := r.property
        rw [h, List.length_cons] at h2
        omega
      match readItemList rest with
      | .error e => .error e
      | .ok (more, r') => .ok (item :: more, r'.widen (Nat.le_of_lt hlt))
    | ']' :: rest => .ok ([item], ⟨rest, by
        have h1 := length_skipBlank_le s
        have h2 := length_skipBlank_le r.val
        have h3 := r.property
        rw [h, List.length_cons] at h2
        omega⟩)
    | [] => stop .unterminatedArray []
    | other => stop .expectedArrayEnd other
termination_by (s.length, 2)
decreasing_by
  · exact Prod.lex_def.2 (by
      rcases Nat.lt_or_eq_of_le (length_skipBlank_le s) with h | h
      · exact .inl h
      · exact .inr ⟨h, Nat.zero_lt_succ 1⟩)
  · exact Prod.Lex.left _ _ hlt

end

/-! ### Statements -/

/-- Read the arguments of a call behind its name. -/
def readCall (name : String) (s : List Char) : Step s Call :=
  match h : skipInline s with
  | '(' :: rest =>
    match readArguments rest with
    | .error e => .error e
    | .ok (arguments, r) => .ok (⟨name, arguments⟩, r.widen (by
        have := length_skipInline_le s
        rw [h, List.length_cons] at this
        omega))
  | other => stop (.expected '(') other

/-- Read a name and the call it makes. -/
def readNamedCall (s : List Char) : Step s Call :=
  match readName s with
  | .error e => .error e
  | .ok (name, r) =>
    match readCall name r.val with
    | .error e => .error e
    | .ok (call, r') => .ok (call, r.onward r'.toTail)

/-- Read the further calls of a chain, each behind a point. -/
def readChain (s : List Char) : Text.TailStep Stop s (List Call) :=
  match h : skipFiller [] false s with
  | '.' :: rest =>
    have hlt : rest.length < s.length := by
      have := length_skipFiller_le [] false s
      rw [h, List.length_cons] at this
      omega
    match readNamedCall rest with
    | .error e => .error e
    | .ok (call, r) =>
      match readChain r.val with
      | .error e => .error e
      | .ok (more, t) =>
        .ok (call :: more, ⟨t.val, by have h1 := r.property; have h2 := t.property; omega⟩)
  | _ => .ok ([], .whole s)
termination_by s.length
decreasing_by exact Nat.lt_trans r.property hlt

/-- Whether a statement may end here. -/
def statementEnds : List Char → Bool
  | [] => true
  | c :: rest => c = '\n' || c = ';' || commentAhead (c :: rest)

/-- Read a statement. -/
def readStatement (s : List Char) : Step s Statement :=
  if s.head? = some '.' then stop .chainWithoutReceiver s
  else
    match readNamedCall s with
    | .error e => .error e
    | .ok (first, r) =>
      match readChain r.val with
      | .error e => .error e
      | .ok (more, t) =>
        let rest := skipInline t.val
        if statementEnds rest then
          .ok (⟨first, more⟩, r.onward ⟨rest, Nat.le_trans (length_skipInline_le _) t.property⟩)
        else stop .inputAfterStatement rest

/-- Read all statements. -/
def readProgram (s : List Char) : Except Stop Program :=
  let rest := skipFiller [';'] false s
  if rest.isEmpty then .ok []
  else
    match readStatement rest with
    | .error e => .error e
    | .ok (statement, r) =>
      match readProgram r.val with
      | .error e => .error e
      | .ok more => .ok (statement :: more)
termination_by s.length
decreasing_by exact Nat.lt_of_lt_of_le r.property (length_skipFiller_le _ _ _)

/-- Read a text as a script. A fault is placed by the number of bytes in front of it. -/
def parse (source : String) : Except Fault Program :=
  match readProgram source.toList with
  | .ok program => .ok program
  | .error e => .error (.malformed e.cause (Text.byteCount source.toList - e.unread))

end Studio.Script
