import Studio.Capability
import Studio.Music.Fault
import Studio.Script.Value
import Studio.Text.Blank

/-!
# Faults of scripts

Why a text is no script, or why a script cannot be carried out, and the sentence that says so.
-/

namespace Studio.Script

open Studio.Number (intText plainText)

/-- What is wrong with the text of a script. -/
inductive Malformation where
  | expected (mark : Char)
  | chainWithoutReceiver
  | inputAfterStatement
  | unterminatedArguments
  | expectedArgumentEnd
  | endOfText
  | unexpectedCharacter (c : Char)
  | pathWithoutComparison
  | indexNotNatural
  | literalWord (word : String)
  | expectedLiteral
  | unterminatedArray
  | expectedArrayEnd
  | incompleteEscape
  | unknownEscape (c : Char)
  | unterminatedString
  | expectedNumber
  | expectedName
deriving DecidableEq, Repr

/-- The words for a malformation. -/
def Malformation.message : Malformation → String
  | .expected mark => "expected '" ++ String.singleton mark ++ "'"
  | .chainWithoutReceiver => "chained call without a receiver"
  | .inputAfterStatement => "unexpected input after statement"
  | .unterminatedArguments => "unterminated argument list"
  | .expectedArgumentEnd => "expected ',' or ')'"
  | .endOfText => "unexpected end of input"
  | .unexpectedCharacter c => "unexpected character '" ++ String.singleton c ++ "'"
  | .pathWithoutComparison => "property path must be followed by a comparison"
  | .indexNotNatural => "property index must be a non-negative integer"
  | .literalWord word =>
    "predicate literal must be a string, number, or boolean, got '" ++ word ++ "'"
  | .expectedLiteral => "expected predicate literal"
  | .unterminatedArray => "unterminated array"
  | .expectedArrayEnd => "expected ',' or ']'"
  | .incompleteEscape => "incomplete escape"
  | .unknownEscape c => "unknown escape: \\" ++ String.singleton c
  | .unterminatedString => "unterminated string literal"
  | .expectedNumber => "expected number"
  | .expectedName => "expected identifier"

/-- What is wrong with the value of an argument. -/
inductive Flaw where
  | notNatural (given : Float)
  | above (given : Float) (limit : Nat)
  | notPositive
  | notBetween (least most : Nat)
  | velocity (given : Nat)
  | countedFromOne (noun : String)
  | direction (word : String)
  | inversion
  | noChord
  | music (fault : Music.Fault)
  | unknownDrum (name : String) (known : List String)
  | emptyGrid
  | noPattern
  | notPattern (method : String)
  | tracksOnly (method kind : String)
  | unorderedFlags

/-- The words for a flaw. -/
def Flaw.message : Flaw → String
  | .notNatural given => "expected a non-negative integer, got " ++ plainText given
  | .above given limit => plainText given ++ " is above " ++ intText limit
  | .notPositive => "must be positive"
  | .notBetween least most => "must be between " ++ intText least ++ " and " ++ intText most
  | .velocity given => intText given ++ " is outside 1-127"
  | .countedFromOne noun => noun ++ " are 1-based"
  | .direction word => "'" ++ word ++ "' is not up, down, or updown"
  | .inversion => "at most 3"
  | .noChord => "needs at least one chord"
  | .music fault => fault.message
  | .unknownDrum name known =>
    "unknown drum '" ++ name ++ "' (expected one of " ++ Text.joinWith ", " known ++ ")"
  | .emptyGrid => "grid is empty"
  | .noPattern => "a beat needs at least one pattern"
  | .notPattern method => "expected pattern(..), got " ++ method ++ "(..)"
  | .tracksOnly method kind => method ++ " applies to tracks, not " ++ kind
  | .unorderedFlags => "booleans only support == and !="

/-- How a script refers to a track that is there already. -/
inductive Reference where
  | id (n : Nat)
  | selection
deriving DecidableEq, Repr

/-- The source form of a reference. -/
def Reference.text : Reference → String
  | .id n => "id=" ++ intText n
  | .selection => "selected=true"

/-- Why a script fails. Calls are known by the names of their methods. -/
inductive Fault where
  | malformed (cause : Malformation) (offset : Nat)
  | emptyText
  | unresolved (call : String) (reference : Reference)
  | nothingBound (call : String)
  | typeMismatch (call param : String) (expected found : ValueKind)
  | missingArgument (call param : String)
  | invalidArgument (call param : String) (flaw : Flaw)
  | unknownCollection (collection : String)
  | unknownMethod (capability : Capability) (call : String)
  | unboundVariable (call name : String)
  | nestedIteration (call : String)
  | noActions

/-- The sentence for a fault. -/
def Fault.message : Fault → String
  | .malformed cause offset =>
    "invalid DSL syntax: " ++ cause.message ++ " at byte " ++ intText offset
  | .emptyText => "empty DSL input"
  | .unresolved call reference => call ++ ": unresolved reference " ++ reference.text
  | .nothingBound call => call ++ ": no entity is bound"
  | .typeMismatch call param expected found =>
    call ++ ": parameter `" ++ param ++ "` expects " ++ expected.name ++ ", got " ++ found.name
  | .missingArgument call param => call ++ ": missing parameter `" ++ param ++ "`"
  | .invalidArgument call param flaw => call ++ ": invalid `" ++ param ++ "`: " ++ flaw.message
  | .unknownCollection collection => "unknown collection `" ++ collection ++ "`"
  | .unknownMethod capability call =>
    "`" ++ call ++ "` is not a " ++ capability.name ++ " DSL method"
  | .unboundVariable call name => call ++ ": variable `" ++ name ++ "` is not bound"
  | .nestedIteration call => call ++ ": nested iteration is not supported"
  | .noActions => "DSL produced no actions"

end Studio.Script
