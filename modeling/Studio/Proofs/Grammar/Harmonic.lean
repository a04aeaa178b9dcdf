import Studio.Production.Prompt
import Studio.Proofs.Grammar.Forms

/-!
# The grammar of harmonic scripts

`Harmonic.script` is the grammar that the prompt for harmonic scripts hands over, as a form: a text
of it says a script. `Harmonic.rules` are the phrases of its rules, and `drop_harmonicGrammar` says
that these are the rules of that text.
-/

namespace Studio.Grammar.Harmonic

open Phrase (choice sequence)
open Studio.Script (Argument Call Program Statement Value)

/-- The names of rules. -/
inductive Name where
  | start
  | statement
  | chain
  | contentCall
  | arpeggioArgs
  | arpeggioOpt
  | chordArgs
  | chordOpt
  | progressionArgs
  | chords
  | symbolArg
  | commonOpt
  | direction
  | chord
  | string
  | int
  | number
  | space
  | lineEnds
deriving DecidableEq, Repr

/-- A name as it is written. -/
def Name.written : Name → String
  | start => "start"
  | statement => "statement"
  | chain => "chain"
  | contentCall => "content_call"
  | arpeggioArgs => "arpeggio_args"
  | arpeggioOpt => "arpeggio_opt"
  | chordArgs => "chord_args"
  | chordOpt => "chord_opt"
  | progressionArgs => "progression_args"
  | chords => "chords"
  | symbolArg => "symbol_arg"
  | commonOpt => "common_opt"
  | direction => "DIRECTION"
  | chord => "CHORD"
  | string => "STRING"
  | int => "INT"
  | number => "NUMBER"
  | space => "SP"
  | lineEnds => "NL"

/-! ### Forms -/

/-- The direction of an arpeggio, one of three words, stands for itself. -/
def direction : Form Name Value :=
  .rule .direction (.whole (choice ["\"up\"", "\"down\"", "\"updown\""]) Form.textOf)

/-- The letter of a pitch class, and perhaps a sign behind it. -/
def pitchClass : Phrase Name :=
  sequence [.chars (.among [('A', 'G')]), .optional (.chars (.among [('#', '#'), ('b', 'b')]))]

/-- The signs of triads. -/
def triad : Phrase Name :=
  choice ["maj", "min", "m", "dim", "aug", "sus2", "sus4", "+"]

/-- The signs of added tones. -/
def extension : Phrase Name :=
  choice ["maj7", "maj9", "add9", "add11", "add13", "13", "11", "9", "7", "6"]

/-- The symbol of a chord, without the quotes around it. -/
def symbol : Phrase Name :=
  sequence [pitchClass, .optional triad, .many extension, .optional (.seq "/" pitchClass)]

/-- The symbol of a chord in quotes stands for itself. -/
def chord : Form Name Value :=
  .rule .chord (.whole (.regex (sequence ["\"", pitchClass, .optional triad, .many extension,
    .optional (.seq "/" pitchClass), "\""])) Form.textOf)

/-- A text in quotes, without any in it, stands for itself. -/
def string : Form Name Value :=
  .rule .string (.whole (.regex (sequence ["\"", .many (.chars (.except '"')), "\""])) Form.textOf)

/-- An option that every call of content takes. -/
def commonOpt : Form Name Argument :=
  .rule .commonOpt (.alt (.given "length" (.decimal .number))
    (.alt (.given "repeat" (.integer .int))
      (.alt (.given "velocity" (.integer .int)) (.given "octave" (.integer .int)))))

/-- The symbol of a chord as an argument, with or without its name. -/
def symbolArg : Form Name Argument :=
  .rule .symbolArg (.labelled "symbol" chord)

/-- A list of symbols. -/
def chords : Form Name Value :=
  .rule .chords (.array .space chord)

/-- The arguments of a progression: its symbols, and options. -/
def progressionArgs : Form Name (List Argument) :=
  .rule .progressionArgs (.seq List.cons (.labelled "chords" chords)
    (.many (.further .space commonOpt)))

/-- An option of a chord: the inversion is its own. -/
def chordOpt : Form Name Argument :=
  .rule .chordOpt (.alt commonOpt (.given "inversion" (.integer .int)))

/-- The arguments of a chord: its symbol, and options. -/
def chordArgs : Form Name (List Argument) :=
  .rule .chordArgs (.seq List.cons symbolArg (.many (.further .space chordOpt)))

/-- An option of an arpeggio: direction and length of the notes are its own. -/
def arpeggioOpt : Form Name Argument :=
  .rule .arpeggioOpt (.alt commonOpt (.alt (.given "direction" direction)
    (.given "note_duration" (.decimal .number))))

/-- The arguments of an arpeggio: its symbol, and options. -/
def arpeggioArgs : Form Name (List Argument) :=
  .rule .arpeggioArgs (.seq List.cons symbolArg (.many (.further .space arpeggioOpt)))

/-- A call that describes content. -/
def contentCall : Form Name Call :=
  .rule .contentCall (.alt (.called "arpeggio" "arpeggio" arpeggioArgs)
    (.alt (.called "chord" "chord" chordArgs)
      (.called "progression" "progression" progressionArgs)))

/-- A call of a chain, which is written with a point in front. -/
def chain : Form Name Call :=
  .rule .chain (.alt (.called ".add_arpeggio" "add_arpeggio" arpeggioArgs)
    (.alt (.called ".add_chord" "add_chord" chordArgs)
      (.called ".add_progression" "add_progression" progressionArgs)))

/-- A composition is a call without arguments, and a chain. -/
def composition : Form Name Statement :=
  .map (fun calls => ⟨⟨"composition", []⟩, calls⟩)
    (.behind "composition" (.behind "(" (.behind ")" (.several chain))))

/-- A choice is a call with a description and the list of the calls in it. -/
def choiceCall : Form Name Call :=
  .called "choice" "choice" (.seq (fun description calls => [⟨none, description⟩, ⟨none, calls⟩])
    string (.further .space (.array .space (.nested contentCall))))

/-- A statement is a call of content, a composition or a choice. -/
def statement : Form Name Statement :=
  .rule .statement (.alt (.single contentCall) (.alt composition (.single choiceCall)))

/-- The scripts that the grammar allows. -/
def script : Form Name Program :=
  .script .start .lineEnds statement

/-! ### Rules -/

/-- The rules. -/
def rules : Name → Phrase Name
  | .start => script.body
  | .statement => statement.body
  | .chain => chain.body
  | .contentCall => contentCall.body
  | .arpeggioArgs => arpeggioArgs.body
  | .arpeggioOpt => arpeggioOpt.body
  | .chordArgs => chordArgs.body
  | .chordOpt => chordOpt.body
  | .progressionArgs => progressionArgs.body
  | .chords => chords.body
  | .symbolArg => symbolArg.body
  | .commonOpt => commonOpt.body
  | .direction => direction.body
  | .chord => chord.body
  | .string => string.body
  | .int => (Form.integer Name.int).body
  | .number => (Form.decimal Name.number).body
  | .space => (Form.space Name.space).body
  | .lineEnds => .regex (.several "\n")

/-- The rules in the order in which they are written, in groups with an empty line in front. -/
def groups : List (List Name) :=
  [[.start], [.statement], [.chain], [.contentCall], [.arpeggioArgs, .arpeggioOpt],
    [.chordArgs, .chordOpt], [.progressionArgs, .chords], [.symbolArg], [.commonOpt],
    [.direction, .chord, .string, .int, .number, .space, .lineEnds]]

/-- The alternatives of a rule that stand on lines of their own. -/
def Name.alternatives : Name → List (Phrase Name)
  | name@statement | name@chain | name@contentCall | name@arpeggioOpt | name@chordOpt
  | name@commonOpt => (rules name).alternatives
  | name => [rules name]

set_option maxRecDepth 20000 in
/-- The rules are those of the grammar in the prompt, which has five lines of comments besides. -/
theorem drop_harmonicGrammar : Production.Prompt.harmonicGrammar.drop 5 =
    groups.flatMap fun group => "" :: (group.flatMap fun name =>
      Phrase.lines Name.written name.written name.alternatives).map String.ofList := by
  rfl

/-- No description contains a backslash. -/
def noBackslash : Name → List Char → Bool
  | .string, s => !s.contains '\\'
  | _, _ => true

end Studio.Grammar.Harmonic
