import Studio.Files.Fault
import Studio.Json.Fault
import Studio.Number.Reading

/-!
# Faults of configurations

Why a configuration or a keyword table cannot be had, and the sentence that says so.
-/

namespace Studio.Config

/-- Why the value of a variable is of no use. -/
inductive ValueFault where
  | notANumber
  | natural (fault : Number.NaturalFault)
deriving DecidableEq, Repr

/-- The words for a fault of a value. -/
def ValueFault.message : ValueFault → String
  | .notANumber => "invalid float literal"
  | .natural .notADigit => "invalid digit found in string"
  | .natural .tooLarge => "number too large to fit in target type"

/-- Why a configuration or a keyword table cannot be had. -/
inductive Fault where
  /-- A file cannot be read or written. -/
  | file (path : String) (fault : Files.Fault)
  /-- A text is not JSON of the expected shape. -/
  | json (path source : String) (fault : Json.Fault)
  /-- A variable has a value of no use. -/
  | environment (name value : String) (fault : ValueFault)
  /-- A table has no keyword. -/
  | noKeywords (path : String)
deriving DecidableEq, Repr

/-- The sentence about a fault. -/
def Fault.message : Fault → String
  | .file path fault => "config file " ++ path ++ ": " ++ fault.message
  | .json path source fault =>
    "invalid JSON in " ++ path ++ ": " ++ fault.message source.toList
  | .environment name value fault =>
    "environment variable " ++ name ++ ": `" ++ value ++ "`: " ++ fault.message
  | .noKeywords path => "keyword table: " ++ path ++ " defines no keywords"

end Studio.Config
