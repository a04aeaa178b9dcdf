import Studio.Json.Shape

/-!
# Settings of a provider

How the live service is reached and asked. Settings may be written as an object, or as the list of
all their fields; what is left out has its default. The key is read but never written.
-/

namespace Studio.Provider

open Json (Record Reader readTextAs readOpt readNat readSingle)

/-- How the live service is reached and asked. -/
structure Settings where
  endpoint : String := "https://api.openai.com/v1"
  apiKey : Option String := none
  model : String := "gpt-5.1"
  classifierModel : String := "gpt-4.1-mini"
  temperature : Option Float32 := none
  maxOutputTokens : Option Nat := none
  reasoningEffort : Option String := some "none"
  timeoutSeconds : Nat := 60
deriving Inhabited, BEq

namespace Settings

/-- The settings as a record of named fields. -/
def record : Record Settings where
  title := "ProviderSettings"
  blank := {}
  fields := [
    ⟨"endpoint", false, (readTextAs "a string").map fun value settings =>
      { settings with endpoint := value }⟩,
    ⟨"api_key", false, (readOpt (readTextAs "a string")).map fun value settings =>
      { settings with apiKey := value }⟩,
    ⟨"model", false, (readTextAs "a string").map fun value settings =>
      { settings with model := value }⟩,
    ⟨"classifier_model", false, (readTextAs "a string").map fun value settings =>
      { settings with classifierModel := value }⟩,
    ⟨"temperature", false, (readOpt readSingle).map fun value settings =>
      { settings with temperature := value }⟩,
    ⟨"max_output_tokens", false, (readOpt (readNat "u32" 0x100000000)).map fun value settings =>
      { settings with maxOutputTokens := value }⟩,
    ⟨"reasoning_effort", false, (readOpt (readTextAs "a string")).map fun value settings =>
      { settings with reasoningEffort := value }⟩,
    ⟨"timeout_secs", false, (readNat "u64" Number.indexBound).map fun value settings =>
      { settings with timeoutSeconds := value }⟩]

/-- The settings as an object, without the key. -/
def toJson (settings : Settings) : Json :=
  .object [("endpoint", .string settings.endpoint), ("model", .string settings.model),
    ("classifier_model", .string settings.classifierModel),
    ("temperature", Json.opt Json.ofSingle settings.temperature),
    ("max_output_tokens", Json.opt Json.nat settings.maxOutputTokens),
    ("reasoning_effort", Json.opt Json.string settings.reasoningEffort),
    ("timeout_secs", .nat settings.timeoutSeconds)]

/-- The longest time that a call may take, in milliseconds: at least one second. -/
def timeout (settings : Settings) : Nat :=
  1000 * max settings.timeoutSeconds 1

/-- The key, if there is one that is not blank. -/
def usableKey? (settings : Settings) : Option String :=
  settings.apiKey.filter fun key => !(Text.trimList key.toList).isEmpty

end Settings

end Studio.Provider
