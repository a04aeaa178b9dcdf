import Studio.Production.Prompt
import Studio.Proofs.Grammar.Phrases

/-!
# The grammar of structural scripts

`Structural.rules` is the grammar that the prompt for structural scripts hands over, as phrases;
`drop_structuralGrammar` says that these are the rules of that text. In a regular expression `\d`
stands for the ten digits.
-/

namespace Studio.Grammar.Structural

open Phrase (choice sequence)

/-- The names of rules. -/
inductive Name where
  | start
  | statement
  | head
  | chain
  | method
  | trackArgs
  | trackArg
  | clipArgs
  | clipArg
  | clipRef
  | fxArgs
  | collectionOp
  | predicate
  | function
  | collection
  | op
  | literal
  | array
  | value
  | object
  | pair
  | bool
  | ident
  | string
  | int
  | number
  | space
  | lineEnds
deriving DecidableEq, Repr

/-- A name as it is written. -/
def Name.written : Name → String
  | start => "start"
  | statement => "statement"
  | head => "head"
  | chain => "chain"
  | method => "method"
  | trackArgs => "track_args"
  | trackArg => "track_arg"
  | clipArgs => "clip_args"
  | clipArg => "clip_arg"
  | clipRef => "clip_ref"
  | fxArgs => "fx_args"
  | collectionOp => "collection_op"
  | predicate => "predicate"
  | function => "function"
  | collection => "COLLECTION"
  | op => "OP"
  | literal => "literal"
  | array => "array"
  | value => "value"
  | object => "object"
  | pair => "pair"
  | bool => "BOOL"
  | ident => "IDENT"
  | string => "STRING"
  | int => "INT"
  | number => "NUMBER"
  | space => "SP"
  | lineEnds => "NL"

/-- A phrase, and any more of them behind commas. -/
def listed (item : Phrase Name) : Phrase Name :=
  sequence [item, .many (sequence [",", .optional (.rule .space), item])]

/-- A name and the value it is given. -/
def given (key : String) (given : Name) : Phrase Name :=
  sequence [key, "=", .rule given]

/-- A call with one argument, which is given by name. -/
def calledWith (called key : String) (given : Name) : Phrase Name :=
  sequence [called, "(", key, "=", .rule given, ")"]

/-- A call with a list of arguments. -/
def called (name : String) (arguments : Phrase Name) : Phrase Name :=
  sequence [name, "(", arguments, ")"]

/-- A call with two arguments. -/
def calledOn (name : String) (first second : Name) : Phrase Name :=
  sequence [name, "(", .rule first, ",", .optional (.rule .space), .rule second, ")"]

/-- The rules. -/
def rules : Name → Phrase Name
  | .start => sequence [.rule .statement, .many (sequence [.rule .lineEnds, .rule .statement])]
  | .statement => choice [sequence [.rule .head, .many (.rule .chain)],
      sequence [.rule .collectionOp, .many (.rule .chain)]]
  | .head => choice [called "track" (.optional (.rule .trackArgs)),
      sequence ["get_tracks", "(", ")"]]
  | .chain => sequence [".", .rule .method]
  | .method => choice [
      called "new_clip" (.rule .clipArgs),
      calledWith "add_midi" "notes" .array,
      called "add_fx" (.rule .fxArgs),
      calledWith "set_volume" "volume_db" .number,
      calledWith "set_pan" "pan" .number,
      calledWith "set_mute" "mute" .bool,
      calledWith "set_solo" "solo" .bool,
      calledWith "set_name" "name" .string,
      calledWith "set_selected" "selected" .bool,
      sequence ["delete", "(", ")"],
      called "delete_clip" (.optional (.rule .clipRef)),
      sequence ["get_fx_chain", "(", ")"]]
  | .trackArgs => listed (.rule .trackArg)
  | .trackArg => choice [given "id" .int, given "index" .int, given "selected" .bool,
      given "instrument" .string, given "name" .string]
  | .clipArgs => listed (.rule .clipArg)
  | .clipArg => choice [given "bar" .int, given "length_bars" .int, given "position" .number,
      given "start" .number, given "length" .number]
  | .clipRef => choice [given "clip" .int, given "position" .number, given "bar" .int]
  | .fxArgs => choice [given "fxname" .string, given "instrument" .string]
  | .collectionOp => choice [
      calledOn "filter" .collection .predicate,
      calledOn "for_each" .collection .function,
      calledOn "map" .collection .function,
      calledOn "store" .string .collection]
  | .predicate => sequence [.rule .ident, ".", .rule .ident,
      .optional (sequence ["[", .rule .int, "]"]), .optional (.rule .space), .rule .op,
      .optional (.rule .space), .rule .literal]
  | .function => choice [sequence ["@", .rule .ident],
      sequence [.rule .ident, ".", .rule .method]]
  | .collection => choice ["tracks", "clips", "fx_chain",
      .regex (sequence [.several (.chars (.among [('a', 'z'), ('_', '_')])), "_",
        choice ["filtered", "mapped"]])]
  | .op => choice ["==", "!=", "<=", ">=", "<", ">"]
  | .literal => choice [.rule .string, .rule .number, .rule .bool]
  | .array => sequence ["[", .optional (listed (.rule .value)), "]"]
  | .value => choice [.rule .literal, .rule .array, .rule .object]
  | .object => sequence ["\x7b", listed (.rule .pair), "\x7d"]
  | .pair => sequence [.rule .string, ":", .optional (.rule .space), .rule .value]
  | .bool => choice ["true", "false"]
  | .ident => .regex (sequence [.chars (.among [('a', 'z'), ('_', '_')]),
      .many (.chars (.among [('a', 'z'), ('0', '9'), ('_', '_')]))])
  | .string => .regex (sequence ["\"", .many (.chars (.except '"')), "\""])
  | .int => .regex (.several (.chars .digit))
  | .number => .regex (sequence [.optional "-", .several (.chars .digit),
      .optional (sequence [".", .several (.chars .digit)])])
  | .space => .several " "
  | .lineEnds => .regex (.several "\n")

/-! ### The text of the grammar -/

/-- The rules in the order in which they are written, in groups with an empty line in front. -/
def groups : List (List Name) :=
  [[.start], [.statement], [.head], [.chain], [.method], [.trackArgs, .trackArg],
    [.clipArgs, .clipArg], [.clipRef], [.fxArgs], [.collectionOp], [.predicate, .function],
    [.collection, .op], [.literal, .array, .value, .object, .pair],
    [.bool, .ident, .string, .int, .number, .space, .lineEnds]]

/-- Whether each alternative of a rule has a line of its own. -/
def Name.isTall : Name → Bool
  | statement | head | method | trackArg | clipArg | clipRef | fxArgs | collectionOp
  | function => true
  | _ => false

/-- The lines of a rule. -/
def Name.lines (name : Name) : List (List Char) :=
  Phrase.lines Name.written name.written
    (if name.isTall then (rules name).alternatives else [rules name])

set_option maxRecDepth 20000 in
/-- The rules are those of the grammar in the prompt, which has five lines of comments besides. -/
theorem drop_structuralGrammar : Production.Prompt.structuralGrammar.drop 5 =
    groups.flatMap fun group => "" :: (group.flatMap Name.lines).map String.ofList := by
  rfl

end Studio.Grammar.Structural
