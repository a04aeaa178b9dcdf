import Studio.CommandLine.Execution

/-!
# The program

Carries out its command line on the files and variables around it, and prints the report.
-/

namespace Studio

/-- Whether the number of an error is `n`, which some operations give with the sign changed. -/
def isNumber (n code : UInt32) : Bool :=
  code == n || code == 0 - n

/-- The fault that an error of input or output stands for. -/
def Files.Fault.ofError (error : IO.Error) : Fault :=
  match error with
  | .noFileOrDirectory .. => .absent
  | .permissionDenied .. => .denied
  | .resourceBusy .. => .busy
  | .alreadyExists .. => .present
  | .inappropriateType _ code _ => if isNumber 21 code then .isFolder else .notFolder
  | .invalidArgument _ code _ => if isNumber 36 code then .nameTooLong else .brokenPath
  | rare => .other (toString rare)

/-- Do something with files, or tell the fault. -/
def attempt {α : Type} (action : IO α) : IO (Except Files.Fault α) := do
  try pure (.ok (← action)) catch error => pure (.error (.ofError error))

/-- Carry out a task on the files around the program. -/
def FileTask.carryOut {α : Type} : FileTask α → IO α
  | .done value => pure value
  | .read path next => do (next (← attempt (IO.FS.readFile path))).carryOut
  | .makeFolder path next => do (next (← attempt (IO.FS.createDir path))).carryOut
  | .write path text next => do (next (← attempt (IO.FS.writeFile path text))).carryOut
  | .move source target next => do (next (← attempt (IO.FS.rename source target))).carryOut

/-- The values of the variables that override parts of a configuration. -/
def readEnvironment : IO Config.Environment := do
  let values ← Config.variableNames.mapM fun name => return (name, ← IO.getEnv name)
  return fun name => (values.lookup name).join

end Studio

/-- Carries out its arguments as a command line. -/
def main (arguments : List String) : IO UInt32 := do
  let report ← (Studio.CommandLine.perform (← Studio.readEnvironment) arguments).carryOut
  IO.print report.output
  for message in report.messages do IO.eprintln message
  return report.code.toUInt32
