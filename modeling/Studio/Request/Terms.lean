/-!
# Shipped keywords

The words that tell what a request asks for, in several languages: keywords select a capability,
hints only make it worth a closer look. `Request.KeywordTable.shipped` puts them in their normal
form.
-/

namespace Studio.Request.Terms

/-- Keywords for the structure of a session. -/
def structuralKeywords : List String :=
  ["track", "clip", "fx", "volume", "mute", "solo", "reaper", "daw", "create", "delete", "select",
    "rename", "add", "remove", "instrument", "plugin", "effect", "compressor", "reverb", "delay",
    "mixer", "master", "channel", "fader", "louder", "quieter", "pista", "piste", "spur",
    "traccia", "canal", "efecto", "effet", "crear", "créer", "erstelle", "borrar", "supprimer",
    "löschen", "panning", "pan left", "pan right", "equalizer"]

/-- Hints at the structure of a session. -/
def structuralHints : List String :=
  ["mixdown", "gain staging", "routing", "sidechain"]

/-- Keywords for harmonic content. -/
def harmonicKeywords : List String :=
  ["chord", "progression", "arpeggio", "melody", "melodic", "harmony", "bassline", "bass line",
    "scale", "key of", "minor", "major", "notes", "motif", "riff", "lead line", "voicing",
    "inversion", "acorde", "accord", "akkord", "arpegio", "arpège", "melodía", "mélodie",
    "melodie", "progresión", "progressione", "synth pad"]

/-- Hints at harmonic content. -/
def harmonicHints : List String :=
  ["hook", "lick", "phrase", "vibe", "groovy", "warm", "musical", "composition", "arrangement",
    "moody", "dreamy", "uplifting"]

/-- Keywords for percussive content. -/
def percussiveKeywords : List String :=
  ["drum", "kick", "snare", "hi-hat", "hihat", "hi hat", "cymbal", "crash", "clap", "beat",
    "percussion", "four on the floor", "backbeat", "breakbeat", "rimshot", "shaker", "tambourine",
    "cowbell", "batería", "bombo", "caja", "batterie", "grosse caisse", "schlagzeug", "toms",
    "ride cymbal"]

/-- Hints at percussive content. -/
def percussiveHints : List String :=
  ["groove", "swing", "shuffle", "fill", "rhythm", "bpm", "tempo", "punchy"]

end Studio.Request.Terms
