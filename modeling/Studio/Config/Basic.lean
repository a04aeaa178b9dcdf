import Studio.Config.Fault
import Studio.Files.Task
import Studio.Provider.Settings
import Studio.Request.Keywords

/-!
# Configurations

A configuration holds the settings of the provider, the file of a keyword table, the longest time
for a request, and whether actions are shown as they come. It is read from a JSON text, where what
is left out has its default, and written as an indented one, without the key.
-/

namespace Studio

open Json (Record readTextAs readOpt readNat readBool readRecord readText)

/-- A configuration. -/
structure Config where
  provider : Provider.Settings := {}
  /-- The file of the keyword table, if it is not the shipped one. -/
  keywordsPath : Option String := none
  /-- The longest time for a request, in seconds. -/
  requestTimeoutSeconds : Option Nat := some 120
  /-- Whether actions are shown as they come. -/
  streaming : Bool := false
deriving Inhabited, BEq

namespace Config

/-- A configuration as a record of named fields. -/
def record : Record Config where
  title := "CadenzaConfig"
  blank := {}
  fields := [
    ⟨"provider", false, (readRecord Provider.Settings.record).map fun value config =>
      { config with provider := value }⟩,
    ⟨"keywords_path", false, (readOpt (readTextAs "path string")).map fun value config =>
      { config with keywordsPath := value }⟩,
    ⟨"request_timeout_secs", false, (readOpt (readNat "u64" Number.indexBound)).map
      fun value config => { config with requestTimeoutSeconds := value }⟩,
    ⟨"streaming", false, readBool.map fun value config => { config with streaming := value }⟩]

/-- Reads a configuration from its text; `path` is for the fault alone. -/
def parse (path source : String) : Except Fault Config :=
  (readText (readRecord record) source.toList).mapError (.json path source)

/-- A configuration as an object. -/
def toJson (config : Config) : Json :=
  .object [("provider", config.provider.toJson),
    ("keywords_path", Json.opt Json.string config.keywordsPath),
    ("request_timeout_secs", Json.opt Json.nat config.requestTimeoutSeconds),
    ("streaming", .bool config.streaming)]

/-- The text that is written for a configuration. -/
def text (config : Config) : String :=
  config.toJson.prettyText

/-- The longest time for a request, in milliseconds. -/
def requestTimeout (config : Config) : Option Nat :=
  config.requestTimeoutSeconds.map (1000 * ·)

/-- The configuration in a file. -/
def load (path : String) : FileTask (Except Fault Config) := do
  match ← FileTask.readFile path with
  | .ok source => pure (parse path source)
  | .error fault => pure (.error (.file path fault))

/-- The file to which a configuration is written before it takes the place of another one. -/
def draftPath (path : String) : String :=
  String.ofList (Files.Path.withExtension "json.tmp".toList path.toList)

/-- Write a configuration to a file, with the folders around it. -/
def save (config : Config) (path : String) : FileTask (Except Fault Unit) := do
  pure ((← FileTask.replaceFile (draftPath path) path config.text).mapError (.file path))

/-- The keyword table in a file. -/
def loadKeywords (path : String) : FileTask (Except Fault Request.KeywordTable) := do
  match ← FileTask.readFile path with
  | .ok source => pure (Request.KeywordTable.parse path source)
  | .error fault => pure (.error (.file path fault))

/-- The keyword table of a configuration. -/
def keywordTable (config : Config) : FileTask (Except Fault Request.KeywordTable) :=
  match config.keywordsPath with
  | some path => loadKeywords path
  | none => pure (.ok .shipped)

end Config

end Studio
