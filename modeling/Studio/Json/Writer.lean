import Studio.Json.Basic
import Studio.Number.Written

/-!
# Writing JSON

The compact form without any blanks, and the indented form with two spaces a level. Numbers have the
fewest digits that read back.
-/

namespace Studio.Json

open Studio.Number

/-- Doubles are written positionally from `10^-5` up to `10^16` and always show that they are no
integers; a tie goes to the even digit. -/
def doubleLayout : Layout := ⟨-5, 16, true, .toEven⟩

/-- Single-precision numbers are written positionally from `10^-6` up to `10^13`. -/
def singleLayout : Layout := ⟨-6, 13, true, .toEven⟩

/-- A reading in the given layout; what is not finite has no form of its own. -/
def writeReading (layout : Layout) : Reading → List Char
  | .finite negative b => layout.signed negative b
  | _ => "null".toList

/-- How one character is written inside a string. -/
def escapedChar (c : Char) : List Char :=
  if c = '"' then ['\\', '"']
  else if c = '\\' then ['\\', '\\']
  else if c = '\x08' then ['\\', 'b']
  else if c = '\x0c' then ['\\', 'f']
  else if c = '\n' then ['\\', 'n']
  else if c = '\r' then ['\\', 'r']
  else if c = '\t' then ['\\', 't']
  else if c.toNat < 0x20 then
    ['\\', 'u', '0', '0', Nat.digitChar (c.toNat / 16), Nat.digitChar (c.toNat % 16)]
  else [c]

/-- A string between its quotes. -/
def writeString (text : String) : List Char :=
  '"' :: text.toList.flatMap escapedChar ++ ['"']

mutual

/-- The compact form of a value. -/
def write : Json → List Char
  | .null => "null".toList
  | .bool true => "true".toList
  | .bool false => "false".toList
  | .integer n => intChars n
  | .float x => writeReading doubleLayout (readDouble x)
  | .single x => writeReading singleLayout (readSingle x)
  | .string text => writeString text
  | .array items => '[' :: writeItems items ++ [']']
  | .object members => '\x7b' :: writeMembers members ++ ['\x7d']

/-- Items with commas between them. -/
def writeItems : List Json → List Char
  | [] => []
  | [item] => write item
  | item :: rest => write item ++ ',' :: writeItems rest

/-- Members with commas between them. -/
def writeMembers : List (String × Json) → List Char
  | [] => []
  | [(name, value)] => writeString name ++ ':' :: write value
  | (name, value) :: rest =>
    writeString name ++ ':' :: write value ++ ',' :: writeMembers rest

end

/-- A line end and the indentation of a level. -/
def newLine (level : Nat) : List Char :=
  '\n' :: List.replicate (2 * level) ' '

mutual

/-- The indented form of a value at a level. -/
def writeAt (level : Nat) : Json → List Char
  | .array [] => ['[', ']']
  | .array (item :: rest) =>
    '[' :: writeItemsAt (level + 1) (item :: rest) ++ newLine level ++ [']']
  | .object [] => ['\x7b', '\x7d']
  | .object (member :: rest) =>
    '\x7b' :: writeMembersAt (level + 1) (member :: rest) ++ newLine level ++ ['\x7d']
  | scalar => write scalar

/-- Items on lines of their own. -/
def writeItemsAt (level : Nat) : List Json → List Char
  | [] => []
  | [item] => newLine level ++ writeAt level item
  | item :: rest => newLine level ++ writeAt level item ++ ',' :: writeItemsAt level rest

/-- Members on lines of their own. -/
def writeMembersAt (level : Nat) : List (String × Json) → List Char
  | [] => []
  | [(name, value)] => newLine level ++ writeString name ++ ':' :: ' ' :: writeAt level value
  | (name, value) :: rest =>
    newLine level ++ writeString name ++ ':' :: ' ' :: writeAt level value ++
      ',' :: writeMembersAt level rest

end

/-- The compact text of a value. -/
def text (value : Json) : String :=
  String.ofList (write value)

/-- The indented text of a value. -/
def prettyText (value : Json) : String :=
  String.ofList (writeAt 0 value)

end Studio.Json
