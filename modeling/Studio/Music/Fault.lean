import Studio.Number.Written

/-!
# Faults of musical descriptions

Why a chord symbol, a drum grid or a description of content cannot be turned into notes, and the
sentence that says so.
-/

namespace Studio.Music

open Studio.Number (intText plainText)

/-- What is wrong with a chord symbol. -/
inductive SymbolFlaw where
  | root
  | bass
  | extension (unread : String)
deriving DecidableEq, Repr

/-- The words for a flaw of a chord symbol. -/
def SymbolFlaw.message : SymbolFlaw → String
  | .root => "missing or invalid root"
  | .bass => "invalid bass note"
  | .extension unread => "unknown extension '" ++ unread ++ "'"

/-- What is wrong with a description of content. -/
inductive DescriptionFlaw where
  | missing (field : String)
  | velocity (given : Float)
  | chordNotText

/-- The words for a velocity that is none. -/
def velocityMessage (given : String) : String :=
  "velocity " ++ given ++ " is outside 1-127"

/-- The words for a flaw of a description. -/
def DescriptionFlaw.message : DescriptionFlaw → String
  | .missing field => "missing " ++ field
  | .velocity given => velocityMessage (plainText given)
  | .chordNotText => "chords must be strings"

/-- Why music cannot be laid out as notes. -/
inductive Fault where
  | invalidSymbol (symbol : String) (flaw : SymbolFlaw)
  | noPitches (symbol : String) (octave : Int)
  | unknownDrum (name : String)
  | invalidGrid (grid : String) (character : Char)
  | invalidDescription (kind : String) (flaw : DescriptionFlaw)
  /-- The pitches of the octave lie outside the integers of 32 bits. -/
  | octaveOutOfReach (octave : Int)

/-- The sentence for a fault. -/
def Fault.message : Fault → String
  | .invalidSymbol symbol flaw => "invalid chord symbol '" ++ symbol ++ "': " ++ flaw.message
  | .noPitches symbol octave =>
    "chord '" ++ symbol ++ "' has no pitches in MIDI range at octave " ++ intText octave
  | .unknownDrum name => "unknown drum '" ++ name ++ "'"
  | .invalidGrid grid character =>
    "invalid grid character '" ++ String.singleton character ++ "' in \"" ++ grid ++ "\""
  | .invalidDescription kind flaw => "invalid " ++ kind ++ ": " ++ flaw.message
  | .octaveOutOfReach octave => "octave " ++ intText octave ++ " is out of reach"

end Studio.Music
