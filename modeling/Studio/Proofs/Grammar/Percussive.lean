import Studio.Production.Prompt
import Studio.Proofs.Grammar.Forms

/-!
# The grammar of percussive scripts

`Percussive.script` is the grammar that the prompt for percussive scripts hands over, as a form: a
text of it says a script. `Percussive.rules` are the phrases of its rules, and
`drop_percussiveGrammar` says that these are the rules of that text.
-/

namespace Studio.Grammar.Percussive

open Phrase (choice)
open Studio.Script (Argument Call Program Statement Value)

/-- The names of rules. -/
inductive Name where
  | start
  | statement
  | beatCall
  | patterns
  | beatOpt
  | patternCall
  | patternOpt
  | drum
  | grid
  | int
  | number
  | space
  | lineEnds
deriving DecidableEq, Repr

/-- A name as it is written. -/
def Name.written : Name → String
  | start => "start"
  | statement => "statement"
  | beatCall => "beat_call"
  | patterns => "patterns"
  | beatOpt => "beat_opt"
  | patternCall => "pattern_call"
  | patternOpt => "pattern_opt"
  | drum => "DRUM"
  | grid => "GRID"
  | int => "INT"
  | number => "NUMBER"
  | space => "SP"
  | lineEnds => "NL"

/-! ### Forms -/

/-- The names of drums, line by line. -/
def drumLines : List (List String) :=
  [["kick", "snare", "snare_rim", "snare_xstick"],
    ["hat", "hat_open", "hat_pedal"],
    ["tom_high", "tom_mid", "tom_low"],
    ["crash", "ride", "ride_bell", "china", "splash"],
    ["cowbell", "tambourine", "clap", "snap", "shaker"],
    ["conga_high", "conga_low", "bongo_high", "bongo_low"]]

/-- The name of a drum stands for itself. -/
def drum : Form Name Value :=
  .rule .drum (.whole (choice (drumLines.flatten.map .text)) fun s => .string (String.ofList s))

/-- The characters of a grid. -/
def cells : CharClass :=
  .among [('x', 'x'), ('X', 'X'), ('o', 'o'), ('-', '-'), (' ', ' ')]

/-- A grid in quotes stands for itself. -/
def grid : Form Name Value :=
  .rule .grid (.whole (.regex (Phrase.sequence ["\"", .several (.chars cells), "\""])) Form.textOf)

/-- An option of a pattern. -/
def patternOpt : Form Name Argument :=
  .rule .patternOpt (.alt (.given "velocity" (.integer .int))
    (.given "humanize" (.decimal .number)))

/-- A pattern is a call with a drum, a grid, and options. -/
def patternCall : Form Name Call :=
  .rule .patternCall (.called "pattern" "pattern" (.seq List.cons (.given "drum" drum)
    (.further .space (.seq List.cons (.given "grid" grid)
      (.many (.further .space patternOpt))))))

/-- A list of the calls of patterns. -/
def patterns : Form Name Value :=
  .rule .patterns (.array .space (.nested patternCall))

/-- An option of a beat. -/
def beatOpt : Form Name Argument :=
  .rule .beatOpt (.alt (.given "bars" (.integer .int)) (.alt (.given "tempo" (.decimal .number))
    (.alt (.given "swing" (.decimal .number)) (.given "subdivision" (.integer .int)))))

/-- A beat is a call with a list of patterns, and options. -/
def beatCall : Form Name Call :=
  .rule .beatCall (.called "beat" "beat" (.seq List.cons (.given "patterns" patterns)
    (.many (.further .space beatOpt))))

/-- A statement is a beat or a pattern. -/
def statement : Form Name Statement :=
  .rule .statement (.alt (.single beatCall) (.single patternCall))

/-- The scripts that the grammar allows. -/
def script : Form Name Program :=
  .script .start .lineEnds statement

/-! ### Rules -/

/-- The rules. -/
def rules : Name → Phrase Name
  | .start => script.body
  | .statement => statement.body
  | .beatCall => beatCall.body
  | .patterns => patterns.body
  | .beatOpt => beatOpt.body
  | .patternCall => patternCall.body
  | .patternOpt => patternOpt.body
  | .drum => drum.body
  | .grid => grid.body
  | .int => (Form.integer Name.int).body
  | .number => (Form.decimal Name.number).body
  | .space => (Form.space Name.space).body
  | .lineEnds => .regex (.several "\n")

/-- The rules in the order in which they are written, in groups with an empty line in front. -/
def groups : List (List Name) :=
  [[.start], [.statement], [.beatCall, .patterns, .beatOpt], [.patternCall, .patternOpt], [.drum],
    [.grid, .int, .number, .space, .lineEnds]]

/-- The alternatives of a rule that stand on lines of their own. -/
def Name.alternatives : Name → List (Phrase Name)
  | drum => drumLines.map fun line => choice (line.map .text)
  | name@statement | name@beatOpt | name@patternOpt => (rules name).alternatives
  | name => [rules name]

set_option maxRecDepth 20000 in
/-- The rules are those of the grammar in the prompt, which has five lines of comments besides. -/
theorem drop_percussiveGrammar : Production.Prompt.percussiveGrammar.drop 5 =
    groups.flatMap fun group => "" :: (group.flatMap fun name =>
      Phrase.lines Name.written name.written name.alternatives).map String.ofList := by
  rfl

end Studio.Grammar.Percussive
