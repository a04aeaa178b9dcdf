import Studio.Capability
import Studio.Text.Blank

/-!
# Command lines

The commands of the program and how their arguments are written: options with a value, flags, and
operands in any order, where everything behind two dashes is an operand. Options of the program
itself come in front of the command.
-/

namespace Studio.CommandLine

/-- What the program can be told to do. -/
inductive Command where
  /-- Answer a request. -/
  | run (request : String) (snapshot replay : Option String) (stream : Bool)
  /-- Show what a request asks for. -/
  | classify (request : String) (replay : Option String)
  /-- Interpret the script in a file. -/
  | interpret (capability : Capability) (snapshot : Option String) (file : String)
  /-- Summarize the keyword table. -/
  | keywords
  /-- Write a configuration to a file. -/
  | initConfig (path : String)
deriving DecidableEq, Repr

/-- A command with the file of a configuration. -/
structure Invocation where
  config : Option String
  command : Command
deriving DecidableEq, Repr

/-- The arguments of a command, sorted by what they are. -/
structure Arguments where
  options : List (String × String) := []
  flags : List String := []
  operands : List String := []

namespace Arguments

/-- The options and flags that a command knows, by their names with the dashes. -/
structure Known where
  options : List String := []
  flags : List String := []

/-- The name and the value of an argument that holds both. -/
def joined? (argument : String) : Option (String × String) :=
  (Text.splitOnce '=' argument.toList).map fun (name, value) =>
    (String.ofList name, String.ofList value)

/-- Whether an argument is none of an operand's form. -/
def isDashed (argument : String) : Bool :=
  argument != "-" && Text.startsWith ['-'] argument.toList

/-- Add an option, which must not be there yet. -/
def addOption (name value : String) (arguments : Arguments) : Option Arguments :=
  if (arguments.options.lookup name).isSome then none
  else some { arguments with options := arguments.options ++ [(name, value)] }

/-- Add a flag, which must not be there yet. -/
def addFlag (name : String) (arguments : Arguments) : Option Arguments :=
  if arguments.flags.contains name then none
  else some { arguments with flags := arguments.flags ++ [name] }

/-- Sort arguments behind those that are sorted already. -/
def sort (known : Known) (arguments : Arguments) : List String → Option Arguments
  | [] => some arguments
  | argument :: rest =>
    if argument = "--" then some { arguments with operands := arguments.operands ++ rest }
    else if known.flags.contains argument then
      (arguments.addFlag argument).bind fun arguments => sort known arguments rest
    else if known.options.contains argument then
      match rest with
      | [] => none
      | value :: rest =>
        if isDashed value then none
        else (arguments.addOption argument value).bind fun arguments => sort known arguments rest
    else if isDashed argument then
      match joined? argument with
      | some (name, value) =>
        if known.options.contains name then
          (arguments.addOption name value).bind fun arguments => sort known arguments rest
        else none
      | none => none
    else sort known { arguments with operands := arguments.operands ++ [argument] } rest

/-- The value of an option that names a file. -/
def file? (arguments : Arguments) (name : String) : Option (Option String) :=
  match arguments.options.lookup name with
  | none => some none
  | some path => if path.isEmpty then none else some (some path)

/-- The only operand. -/
def operand? (arguments : Arguments) : Option String :=
  match arguments.operands with
  | [operand] => some operand
  | _ => none

/-- The only operand, which names a file. -/
def fileOperand? (arguments : Arguments) : Option String :=
  arguments.operand?.filter fun path => !path.isEmpty

end Arguments

/-- The command of a name with its arguments. -/
def Command.ofArguments? (name : String) (arguments : List String) : Option Command :=
  match name with
  | "run" => do
    let sorted ← Arguments.sort ⟨["--snapshot", "--replay"], ["--stream"]⟩ {} arguments
    pure (.run (← sorted.operand?) (← sorted.file? "--snapshot") (← sorted.file? "--replay")
      (sorted.flags.contains "--stream"))
  | "classify" => do
    let sorted ← Arguments.sort ⟨["--replay"], []⟩ {} arguments
    pure (.classify (← sorted.operand?) (← sorted.file? "--replay"))
  | "interpret" => do
    let sorted ← Arguments.sort ⟨["--domain", "--snapshot"], []⟩ {} arguments
    let capability ← Capability.ofName? ((sorted.options.lookup "--domain").getD "daw")
    pure (.interpret capability (← sorted.file? "--snapshot") (← sorted.fileOperand?))
  | "keywords" => do
    let sorted ← Arguments.sort {} {} arguments
    if sorted.operands.isEmpty then some .keywords else none
  | "init-config" => do
    let sorted ← Arguments.sort {} {} arguments
    pure (.initConfig (← sorted.fileOperand?))
  | _ => none

/-- The file of a configuration at the front of a command line, and what follows it. -/
def configAhead? : List String → Option (Option String × List String)
  | [] => none
  | argument :: rest =>
    if argument = "--config" || argument = "-c" then
      match rest with
      | path :: more => if Arguments.isDashed path || path.isEmpty then none else some (path, more)
      | [] => none
    else if Arguments.isDashed argument then
      let path? := (Text.dropStart? "--config=".toList argument.toList).or
        ((Text.dropStart? "-c=".toList argument.toList).or
          (Text.dropStart? "-c".toList argument.toList))
      match path? with
      | some (c :: path) => some (some (String.ofList (c :: path)), rest)
      | _ => none
    else some (none, argument :: rest)

/-- What a command line tells the program to do. -/
def Invocation.parse? (arguments : List String) : Option Invocation := do
  let (config, rest) ← configAhead? arguments
  match rest with
  | [] => none
  | name :: rest => pure ⟨config, ← Command.ofArguments? name rest⟩

end Studio.CommandLine
