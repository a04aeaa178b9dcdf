import Studio.Text.Blank
import Studio.Text.Quoted
import Studio.Json.Writer

/-!
# Faults of JSON texts

Why a JSON text cannot be read as what it should be, where in the text that shows, and the sentence
that says so. A fault is a truncation, a malformation of the text, or a well-formed value of the
wrong shape.
-/

namespace Studio.Json

open Studio.Text

/-- The reasons for which reading stops. -/
inductive Cause where
  | endInList
  | endInObject
  | endInString
  | endInValue
  | expectedColon
  | expectedListEnd
  | expectedObjectEnd
  | expectedWord
  | expectedValue
  | invalidEscape
  | invalidNumber
  | numberOutOfRange
  | controlCharacter
  | keyNotString
  | loneSurrogate
  | unfinishedEscape
  | trailingComma
  | trailingCharacters
  | tooDeep
  | wrongType (found expected : String)
  | wrongValue (found expected : String)
  | wrongLength (length : Nat) (expected : String)
  | missingField (name : String)
  | repeatedField (name : String)
  | unknownName (name : String) (known : List String)
  | noAlternative (title : String)
deriving DecidableEq, Repr

/-- The three classes of faults. -/
inductive Category where
  | truncated
  | malformed
  | misshapen
deriving DecidableEq, Repr

/-- The class of a cause. -/
def Cause.category : Cause → Category
  | .endInList | .endInObject | .endInString | .endInValue => .truncated
  | .wrongType .. | .wrongValue .. | .wrongLength .. | .missingField _ | .repeatedField _
  | .unknownName .. | .noAlternative _ => .misshapen
  | _ => .malformed

/-- The names between backquotes, the last of several set off by a conjunction when there are
two. -/
def alternatives : List String → String
  | [a, b] => "`" ++ a ++ "` or `" ++ b ++ "`"
  | [a] => "`" ++ a ++ "`"
  | names => "one of " ++ joinWith ", " (names.map fun n => "`" ++ n ++ "`")

/-- The sentence for a cause. -/
def Cause.message : Cause → String
  | .endInList => "EOF while parsing a list"
  | .endInObject => "EOF while parsing an object"
  | .endInString => "EOF while parsing a string"
  | .endInValue => "EOF while parsing a value"
  | .expectedColon => "expected `:`"
  | .expectedListEnd => "expected `,` or `]`"
  | .expectedObjectEnd => "expected `,` or `\x7d`"
  | .expectedWord => "expected ident"
  | .expectedValue => "expected value"
  | .invalidEscape => "invalid escape"
  | .invalidNumber => "invalid number"
  | .numberOutOfRange => "number out of range"
  | .controlCharacter => "control character (\\u0000-\\u001F) found while parsing a string"
  | .keyNotString => "key must be a string"
  | .loneSurrogate => "lone leading surrogate in hex escape"
  | .unfinishedEscape => "unexpected end of hex escape"
  | .trailingComma => "trailing comma"
  | .trailingCharacters => "trailing characters"
  | .tooDeep => "recursion limit exceeded"
  | .wrongType found expected => "invalid type: " ++ found ++ ", expected " ++ expected
  | .wrongValue found expected => "invalid value: " ++ found ++ ", expected " ++ expected
  | .wrongLength n expected =>
    "invalid length " ++ Number.intText n ++ ", expected " ++ expected
  | .missingField name => "missing field `" ++ name ++ "`"
  | .repeatedField name => "duplicate field `" ++ name ++ "`"
  | .unknownName name known => "unknown variant `" ++ name ++ "`, expected " ++ alternatives known
  | .noAlternative title => "data did not match any variant of untagged enum " ++ title

/-- Where a fault lies: so many bytes before the end of the text, or wherever the reader of the
enclosing object or array stops when it goes on from the unread text. -/
inductive Place where
  | beforeEnd (bytes : Nat)
  | undecided (unread : List Char)
deriving DecidableEq, Repr

/-- A cause at a place. -/
structure Fault where
  cause : Cause
  place : Place
deriving DecidableEq, Repr

/-- A fault seen in front of the unread text. -/
def Fault.here (cause : Cause) (unread : List Char) : Fault :=
  ⟨cause, .beforeEnd (byteCount unread)⟩

/-- A fault seen at the first byte of the unread text, which counts as passed. -/
def Fault.ahead (cause : Cause) (unread : List Char) : Fault :=
  ⟨cause, .beforeEnd (byteCount unread - 1)⟩

/-- Settle an undecided place, given where the enclosing reader stops. -/
def Fault.settle (stop : List Char → List Char) (fault : Fault) : Fault :=
  match fault.place with
  | .beforeEnd _ => fault
  | .undecided unread => .here fault.cause (stop unread)

/-- The line and the column, in bytes, of the place behind the first `index` bytes of a text. -/
def positionFrom (line column index : Nat) : List Char → Nat × Nat
  | [] => (line, column + index)
  | c :: rest =>
    if index < c.utf8Size then (line, column + index)
    else if c = '\n' then positionFrom (line + 1) 0 (index - 1) rest
    else positionFrom line (column + c.utf8Size) (index - c.utf8Size) rest

/-- The sentence for a fault in a text, with its line and column. -/
def Fault.message (source : List Char) (fault : Fault) : String :=
  let behind := match fault.place with
    | .beforeEnd bytes => bytes
    | .undecided unread => byteCount unread
  let (line, column) := positionFrom 1 0 (byteCount source - behind) source
  fault.cause.message ++ " at line " ++ Number.intText line ++ " column " ++ Number.intText column

end Studio.Json
