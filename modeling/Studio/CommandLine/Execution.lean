import Studio.CommandLine.Arguments
import Studio.CommandLine.Report
import Studio.Config.Overrides
import Studio.Provider.Replay
import Studio.Provider.Service

/-!
# Carrying out commands

A command is a task on files in an environment. It begins with the configuration, and ends at the
first fault with a report on that.
-/

namespace Studio.CommandLine

open Config (Environment)
open Session (Snapshot)

/-- A task on files that may end early with a message. -/
abbrev Work := ExceptT String FileTask

/-- Go on with a value, or end with the message about a fault. -/
def orFail {ε α : Type} (message : ε → String) (outcome : Except ε α) : Work α :=
  match outcome with
  | .ok value => pure value
  | .error fault => throw (message fault)

/-- Do a task on files. -/
def work {α : Type} (task : FileTask α) : Work α :=
  ExceptT.lift task

/-- The text of a file, or a message in place of the reason why it cannot be read. -/
def readOr (message path : String) : Work String := do
  orFail (fun _ => message ++ path) (← work (FileTask.readFile path))

/-- The configuration of an invocation. -/
def configuration (environment : Environment) : Option String → Work Config
  | none => orFail Config.Fault.message (Config.overridden environment {})
  | some path => do
    let config ← orFail Config.Fault.message (← work (Config.load path))
    orFail Config.Fault.message (Config.overridden environment config)

/-- The snapshot in a file, or the empty one. -/
def readSnapshot : Option String → Work Snapshot
  | none => pure {}
  | some path => do
    let source ← readOr "Failed to read snapshot " path
    orFail (fun _ => "Failed to parse snapshot") (Snapshot.parse source)

/-- The provider that answers from the table in a file, or the live service. -/
def providerOf (config : Config) : Option String → Work Provider
  | none => pure (Provider.Service.offline ⟨config.provider⟩)
  | some path => do
    let source ← readOr "Failed to read replay table " path
    let table ← orFail Provider.Fault.message (Provider.Replay.parse source)
    pure (Provider.Replay.provider table)

/-- The conductor of a configuration. -/
def conductorOf (config : Config) (provider : Provider) : Work Request.Conductor := do
  let table ← orFail Config.Fault.message (← work config.keywordTable)
  pure {
    classifier := ⟨table, provider, config.provider.classifierModel⟩
    generators := Generator.composers provider config.provider.model
    timeLimit := config.requestTimeoutSeconds }

/-- Carry out a command under a configuration. -/
def Command.perform (config : Config) : Command → Work Report
  | .run request snapshot replay stream => do
    let snapshot ← readSnapshot snapshot
    let conductor ← conductorOf config (← providerOf config replay)
    let live := stream || config.streaming
    pure (answerReport live (conductor.answer live request snapshot .never))
  | .classify request replay => do
    let conductor ← conductorOf config (← providerOf config replay)
    let detection := conductor.classifier.detect request
    pure (.lines [
      "keywords: " ++ names detection.capabilities,
      "hints:    " ++ names detection.hints,
      classificationLine (conductor.classifier.classify request).value])
  | .interpret capability snapshot file => do
    let snapshot ← readSnapshot snapshot
    let source ← readOr "Failed to read " file
    let interpretation ← orFail Script.Fault.message (Script.interpret capability snapshot source)
    pure (interpretationReport interpretation (payload capability interpretation.actions))
  | .keywords => do
    let table ← orFail Config.Fault.message (← work config.keywordTable)
    let sets := table.pairs.map fun (capability, set) => keywordLine capability set
    pure (.lines (sets ++ ["source: " ++ config.keywordsPath.getD "embedded"]))
  | .initConfig path => do
    orFail Config.Fault.message (← work (config.save path))
    pure (.line ("Wrote configuration to " ++ path))

/-- What is said about a command line that makes no sense. -/
def usage : Report :=
  ⟨2, "", ["error: usage: cadenza [--config FILE] " ++
    "run REQUEST | classify REQUEST | interpret FILE | keywords | init-config PATH"]⟩

/-- Carry out an invocation. -/
def Invocation.perform (environment : Environment) (invocation : Invocation) : FileTask Report := do
  let outcome ← ExceptT.run (do
    let config ← configuration environment invocation.config
    invocation.command.perform config)
  match outcome with
  | .ok report => pure report
  | .error message => pure (.failure message)

/-- Carry out a command line. -/
def perform (environment : Environment) (arguments : List String) : FileTask Report :=
  match Invocation.parse? arguments with
  | some invocation => invocation.perform environment
  | none => pure usage

end Studio.CommandLine
