import Studio.Config.Basic

/-!
# Overrides

Variables of the environment override parts of a configuration, one after the other. Blank values
are ignored. A value of no use is a fault; the overrides in front of it stay. Main statement:
`applyAll_append` says how overrides follow each other.
-/

namespace Studio.Config

/-- A part of a configuration that variables override; the first variable with a value counts. -/
structure Override where
  names : List String
  apply : (name value : String) → Config → Except Fault Config

/-- The value of a variable without the blanks at its ends. -/
def override (names : List String) (change : String → Config → Config) : Override :=
  ⟨names, fun _ value config => .ok (change (Text.trim value) config)⟩

/-- An override by a number. -/
def numberOverride {α : Type} (names : List String) (read : List Char → Except ValueFault α)
    (change : α → Config → Config) : Override :=
  ⟨names, fun name value config =>
    match read (Text.trimList value.toList) with
    | .ok number => .ok (change number config)
    | .error fault => .error (.environment name value fault)⟩

/-- A number in single precision. -/
def readTemperature (text : List Char) : Except ValueFault Float32 :=
  match Number.readSingle? text with
  | some number => .ok number
  | none => .error .notANumber

/-- A natural number below a bound. -/
def readCount (bound : Nat) (text : List Char) : Except ValueFault Nat :=
  (Number.readNatural bound text).mapError .natural

/-- A text without the slashes at its end. -/
def dropSlashes (text : String) : String :=
  String.ofList (text.toList.reverse.dropWhile (· = '/')).reverse

/-- The overrides in the order in which they apply. -/
def overrides : List Override := [
  override ["CADENZA_ENDPOINT"] fun value config =>
    { config with provider.endpoint := dropSlashes value },
  override ["CADENZA_API_KEY", "OPENAI_API_KEY"] fun value config =>
    { config with provider.apiKey := some value },
  override ["CADENZA_MODEL"] fun value config =>
    { config with provider.model := value },
  override ["CADENZA_CLASSIFIER_MODEL"] fun value config =>
    { config with provider.classifierModel := value },
  numberOverride ["CADENZA_TEMPERATURE"] readTemperature fun value config =>
    { config with provider.temperature := some value },
  numberOverride ["CADENZA_MAX_TOKENS"] (readCount 0x100000000) fun value config =>
    { config with provider.maxOutputTokens := some value },
  numberOverride ["CADENZA_TIMEOUT_SECS"] (readCount Number.indexBound) fun value config =>
    { config with provider.timeoutSeconds := value },
  override ["CADENZA_KEYWORDS"] fun value config =>
    { config with keywordsPath := some value }]

/-- The variables that override parts of a configuration. -/
def variableNames : List String :=
  overrides.flatMap Override.names

/-- The values of variables. -/
abbrev Environment := String → Option String

/-- The first variable of a list with a value that is not blank, and the value. -/
def firstValue (environment : Environment) (names : List String) : Option (String × String) :=
  names.findSome? fun name =>
    ((environment name).filter fun value => !(Text.trimList value.toList).isEmpty).map fun value =>
      (name, value)

/-- Apply overrides up to the first fault. -/
def applyAll (environment : Environment) : List Override → Config → Config × Option Fault
  | [], config => (config, none)
  | override :: rest, config =>
    match firstValue environment override.names with
    | none => applyAll environment rest config
    | some (name, value) =>
      match override.apply name value config with
      | .ok config => applyAll environment rest config
      | .error fault => (config, some fault)

/-- Apply the overrides of an environment; without a fault nothing is lost. -/
def overridden (environment : Environment) (config : Config) : Except Fault Config :=
  match applyAll environment overrides config with
  | (config, none) => .ok config
  | (_, some fault) => .error fault

/-- Overrides follow each other; behind a fault there are none. -/
theorem applyAll_append (environment : Environment) (first second : List Override)
    (config : Config) :
    applyAll environment (first ++ second) config =
      match applyAll environment first config with
      | (config, none) => applyAll environment second config
      | (config, some fault) => (config, some fault) := by
  induction first generalizing config with
  | nil => rfl
  | cons override rest ih =>
    simp only [List.cons_append, applyAll]
    split
    · exact ih config
    · split
      · exact ih _
      · rfl

end Studio.Config
