import Studio.Capability
import Studio.Provider.Call

/-!
# Prompts

What a model is told for each capability: the tool through which it writes a script, instructions,
and the grammar that constrains its answer.
-/

namespace Studio.Production

/-- What a model is told for a capability. -/
structure Prompt where
  /-- The name of the tool. -/
  tool : String
  description : String
  instructions : String
  /-- The lines of the grammar. -/
  grammar : List String

namespace Prompt

/-- The language in which the grammars are written. -/
def grammarLanguage : String := "lark"

/-- The text of the grammar. -/
def definition (prompt : Prompt) : String :=
  String.join (prompt.grammar.map (· ++ "\n"))

/-- The form that an answer must have. -/
def outputFormat (prompt : Prompt) : Provider.OutputFormat :=
  .grammar prompt.tool prompt.description grammarLanguage prompt.definition

/-- The grammar of structural scripts. -/
def structuralGrammar : List String := [
  "// Structural DSL: tracks, clips, effects, and collection operations.",
  "//   track(instrument=\"Serum\").new_clip(bar=1, length_bars=4).add_fx(fxname=\"ReaEQ\")",
  "//   track(id=2).set_volume(volume_db=-6)",
  "//   filter(tracks, track.muted == true).set_mute(mute=false)",
  "//   for_each(tracks, track.set_selected(selected=false))",
  "",
  "start: statement (NL statement)*",
  "",
  "statement: head chain*",
  "         | collection_op chain*",
  "",
  "head: \"track\" \"(\" track_args? \")\"",
  "    | \"get_tracks\" \"(\" \")\"",
  "",
  "chain: \".\" method",
  "",
  "method: \"new_clip\" \"(\" clip_args \")\"",
  "      | \"add_midi\" \"(\" \"notes\" \"=\" array \")\"",
  "      | \"add_fx\" \"(\" fx_args \")\"",
  "      | \"set_volume\" \"(\" \"volume_db\" \"=\" NUMBER \")\"",
  "      | \"set_pan\" \"(\" \"pan\" \"=\" NUMBER \")\"",
  "      | \"set_mute\" \"(\" \"mute\" \"=\" BOOL \")\"",
  "      | \"set_solo\" \"(\" \"solo\" \"=\" BOOL \")\"",
  "      | \"set_name\" \"(\" \"name\" \"=\" STRING \")\"",
  "      | \"set_selected\" \"(\" \"selected\" \"=\" BOOL \")\"",
  "      | \"delete\" \"(\" \")\"",
  "      | \"delete_clip\" \"(\" clip_ref? \")\"",
  "      | \"get_fx_chain\" \"(\" \")\"",
  "",
  "track_args: track_arg (\",\" SP? track_arg)*",
  "track_arg: \"id\" \"=\" INT",
  "         | \"index\" \"=\" INT",
  "         | \"selected\" \"=\" BOOL",
  "         | \"instrument\" \"=\" STRING",
  "         | \"name\" \"=\" STRING",
  "",
  "clip_args: clip_arg (\",\" SP? clip_arg)*",
  "clip_arg: \"bar\" \"=\" INT",
  "        | \"length_bars\" \"=\" INT",
  "        | \"position\" \"=\" NUMBER",
  "        | \"start\" \"=\" NUMBER",
  "        | \"length\" \"=\" NUMBER",
  "",
  "clip_ref: \"clip\" \"=\" INT",
  "        | \"position\" \"=\" NUMBER",
  "        | \"bar\" \"=\" INT",
  "",
  "fx_args: \"fxname\" \"=\" STRING",
  "       | \"instrument\" \"=\" STRING",
  "",
  "collection_op: \"filter\" \"(\" COLLECTION \",\" SP? predicate \")\"",
  "             | \"for_each\" \"(\" COLLECTION \",\" SP? function \")\"",
  "             | \"map\" \"(\" COLLECTION \",\" SP? function \")\"",
  "             | \"store\" \"(\" STRING \",\" SP? COLLECTION \")\"",
  "",
  "predicate: IDENT \".\" IDENT (\"[\" INT \"]\")? SP? OP SP? literal",
  "function: \"@\" IDENT",
  "        | IDENT \".\" method",
  "",
  "COLLECTION: \"tracks\" | \"clips\" | \"fx_chain\" | /[a-z_]+_(filtered|mapped)/",
  "OP: \"==\" | \"!=\" | \"<=\" | \">=\" | \"<\" | \">\"",
  "",
  "literal: STRING | NUMBER | BOOL",
  "array: \"[\" (value (\",\" SP? value)*)? \"]\"",
  "value: literal | array | object",
  "object: \"\x7b\" pair (\",\" SP? pair)* \"\x7d\"",
  "pair: STRING \":\" SP? value",
  "",
  "BOOL: \"true\" | \"false\"",
  "IDENT: /[a-z_][a-z0-9_]*/",
  "STRING: /\"[^\"]*\"/",
  "INT: /\\d+/",
  "NUMBER: /-?\\d+(\\.\\d+)?/",
  "SP: \" \"+",
  "NL: /\\n+/"]

/-- The prompt for structural scripts. -/
def structural : Prompt where
  tool := "daw_dsl"
  description := "Write track, clip, and effect operations as chained DSL calls."
  instructions :=
    "You translate music production requests into the structural DSL. Only emit " ++
      "operations the request asks for. Use track(id=N) with 1-based ids to refer to " ++
      "existing tracks listed in the session state, track(selected=true) for the selected " ++
      "track, and track(instrument=..., name=...) to create a new one. Chain clip and " ++
      "effect calls onto the track they belong to. When the request also asks for musical " ++
      "or drum content, create the track that will hold it and a clip for it, but do not " ++
      "write the notes yourself."
  grammar := structuralGrammar

/-- The grammar of harmonic scripts. -/
def harmonicGrammar : List String := [
  "// Musical-content DSL: chord symbols and relative timing only.",
  "//   arpeggio(\"Em\", length=4, direction=\"updown\")",
  "//   chord(symbol=\"Am7\", length=2, repeat=2, inversion=1)",
  "//   progression(chords=[\"C\", \"Am\", \"F\", \"G\"], length=16)",
  "//   composition().add_chord(\"C\").add_arpeggio(\"G\")",
  "",
  "start: statement (NL statement)*",
  "",
  "statement: content_call",
  "         | \"composition\" \"(\" \")\" chain+",
  "         | \"choice\" \"(\" STRING \",\" SP? \"[\" content_call (\",\" SP? content_call)* \"]\" \")\"",
  "",
  "chain: \".add_arpeggio\" \"(\" arpeggio_args \")\"",
  "     | \".add_chord\" \"(\" chord_args \")\"",
  "     | \".add_progression\" \"(\" progression_args \")\"",
  "",
  "content_call: \"arpeggio\" \"(\" arpeggio_args \")\"",
  "            | \"chord\" \"(\" chord_args \")\"",
  "            | \"progression\" \"(\" progression_args \")\"",
  "",
  "arpeggio_args: symbol_arg (\",\" SP? arpeggio_opt)*",
  "arpeggio_opt: common_opt",
  "            | \"direction\" \"=\" DIRECTION",
  "            | \"note_duration\" \"=\" NUMBER",
  "",
  "chord_args: symbol_arg (\",\" SP? chord_opt)*",
  "chord_opt: common_opt",
  "         | \"inversion\" \"=\" INT",
  "",
  "progression_args: (\"chords\" \"=\")? chords (\",\" SP? common_opt)*",
  "chords: \"[\" CHORD (\",\" SP? CHORD)* \"]\"",
  "",
  "symbol_arg: (\"symbol\" \"=\")? CHORD",
  "",
  "common_opt: \"length\" \"=\" NUMBER",
  "          | \"repeat\" \"=\" INT",
  "          | \"velocity\" \"=\" INT",
  "          | \"octave\" \"=\" INT",
  "",
  "DIRECTION: \"\\\"up\\\"\" | \"\\\"down\\\"\" | \"\\\"updown\\\"\"",
  "CHORD: /\"[A-G][#b]?(maj|min|m|dim|aug|sus2|sus4|\\+)?(maj7|maj9|add9|add11|add13|13|11|9|7|6)*(\\/[A-G][#b]?)?\"/",
  "STRING: /\"[^\"]*\"/",
  "INT: /\\d+/",
  "NUMBER: /\\d+(\\.\\d+)?/",
  "SP: \" \"+",
  "NL: /\\n+/"]

/-- The prompt for harmonic scripts. -/
def harmonic : Prompt where
  tool := "arranger_dsl"
  description := "Write chords, arpeggios, and progressions as DSL calls."
  instructions :=
    "You write musical content with chord symbols (C, Am7, Em/G). Timing is relative: " ++
      "give each call a length in beats and a repeat count; calls are played back to back. " ++
      "Prefer one progression(...) for a sequence of chords and arpeggio(...) for broken " ++
      "chords. Do not create tracks or clips."
  grammar := harmonicGrammar

/-- The grammar of percussive scripts. -/
def percussiveGrammar : List String := [
  "// Percussion DSL: one grid per drum voice, grouped into beats.",
  "// Grid cells: x = hit, X = accent (127), o = ghost (60), - = rest.",
  "// Sixteen cells make one bar of sixteenth notes.",
  "//   pattern(drum=kick, grid=\"x---x---x---x---\")",
  "//   beat(patterns=[pattern(drum=kick, grid=\"x---x---x---x---\"), pattern(drum=snare, grid=\"----x-------x---\")], bars=4, swing=20)",
  "",
  "start: statement (NL statement)*",
  "",
  "statement: beat_call",
  "         | pattern_call",
  "",
  "beat_call: \"beat\" \"(\" \"patterns\" \"=\" patterns (\",\" SP? beat_opt)* \")\"",
  "patterns: \"[\" pattern_call (\",\" SP? pattern_call)* \"]\"",
  "beat_opt: \"bars\" \"=\" INT",
  "        | \"tempo\" \"=\" NUMBER",
  "        | \"swing\" \"=\" NUMBER",
  "        | \"subdivision\" \"=\" INT",
  "",
  "pattern_call: \"pattern\" \"(\" \"drum\" \"=\" DRUM \",\" SP? \"grid\" \"=\" GRID (\",\" SP? pattern_opt)* \")\"",
  "pattern_opt: \"velocity\" \"=\" INT",
  "           | \"humanize\" \"=\" NUMBER",
  "",
  "DRUM: \"kick\" | \"snare\" | \"snare_rim\" | \"snare_xstick\"",
  "    | \"hat\" | \"hat_open\" | \"hat_pedal\"",
  "    | \"tom_high\" | \"tom_mid\" | \"tom_low\"",
  "    | \"crash\" | \"ride\" | \"ride_bell\" | \"china\" | \"splash\"",
  "    | \"cowbell\" | \"tambourine\" | \"clap\" | \"snap\" | \"shaker\"",
  "    | \"conga_high\" | \"conga_low\" | \"bongo_high\" | \"bongo_low\"",
  "",
  "GRID: /\"[xXo\\- ]+\"/",
  "INT: /\\d+/",
  "NUMBER: /\\d+(\\.\\d+)?/",
  "SP: \" \"+",
  "NL: /\\n+/"]

/-- The prompt for percussive scripts. -/
def percussive : Prompt where
  tool := "drummer_dsl"
  description := "Write drum grids as pattern and beat calls."
  instructions :=
    "You program drums with one grid per drum voice. Each grid character is one step " ++
      "(sixteenth notes by default): x is a hit, X an accent, o a ghost note, - a rest. " ++
      "Group voices that play together into beat(patterns=[...], bars=N). Use only the " ++
      "canonical drum names. Do not create tracks or clips."
  grammar := percussiveGrammar

end Prompt

/-- The prompt for a capability. -/
def prompt : Capability → Prompt
  | .daw => .structural
  | .arranger => .harmonic
  | .drummer => .percussive

end Studio.Production
