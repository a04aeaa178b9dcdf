import Studio.Music.Fault
import Studio.Music.Note

/-!
# Drum grids

A grid writes the hits of one drum as a row of cells: a hit, an accented hit, a ghost hit or a rest.
Spaces between cells only help the eye.
-/

namespace Studio.Music

/-- The drums with their pitches. -/
def drums : List (String × Nat) :=
  [("kick", 36), ("snare", 38), ("snare_rim", 40), ("snare_xstick", 37), ("hat", 42),
    ("hat_open", 46), ("hat_pedal", 44), ("tom_high", 50), ("tom_mid", 47), ("tom_low", 45),
    ("crash", 49), ("ride", 51), ("ride_bell", 53), ("china", 52), ("splash", 55), ("cowbell", 56),
    ("tambourine", 54), ("clap", 39), ("snap", 43), ("shaker", 82), ("conga_high", 62),
    ("conga_low", 63), ("bongo_high", 60), ("bongo_low", 61)]

/-- The pitch of a drum. -/
def drumPitch? (name : String) : Option Nat :=
  (drums.find? fun (drum, _) => drum = name).map Prod.snd

/-- The velocity of an accented hit. -/
def accentVelocity : Nat := 127

/-- The velocity of a ghost hit. -/
def ghostVelocity : Nat := 60

/-- Whether the character may stand in a grid. -/
def isGridChar (c : Char) : Bool :=
  c = 'x' || c = 'X' || c = 'o' || c = '-' || c = ' '

/-- The first character that may not stand in a grid is a fault. -/
def checkGrid (grid : String) : Except Fault Unit :=
  match grid.toList.find? fun c => !isGridChar c with
  | some c => .error (.invalidGrid grid c)
  | none => .ok ()

/-- The timing of grids. -/
structure GridSettings where
  /-- The number of cells that fill a bar of four beats. -/
  subdivision : Nat := 16
  /-- How much every second cell is delayed, in hundredths of half a cell. -/
  swing : Float := 0
  /-- The number of bars over which a grid that fits into one bar is repeated. -/
  bars : Nat := 1

namespace GridSettings

/-- The beats of a cell. -/
def step (settings : GridSettings) : Float :=
  4 / Float.ofNat (max settings.subdivision 1)

/-- A number of hundredths between none and all. -/
def clampHundredths (x : Float) : Float :=
  if x < 0 then 0 else if x > 100 then 100 else x

/-- The beats by which every second cell is delayed. -/
def delay (settings : GridSettings) : Float :=
  clampHundredths settings.swing / 100 * settings.step * 0.5

/-- The beats of all bars. -/
def beats (settings : GridSettings) : Float :=
  Float.ofNat (max settings.bars 1) * 4

/-- How often a grid of so many cells is played: once a bar if it fits into one, else once. Of the
number of cells only the last 32 bits are looked at. -/
def turns (settings : GridSettings) (cells : Nat) : Nat :=
  if cells % 0x100000000 ≤ settings.subdivision then max settings.bars 1 else 1

end GridSettings

/-- The cells of a grid. -/
def gridCells (grid : String) : List Char :=
  grid.toList.filter (· ≠ ' ')

/-- The velocity of the hit that a cell stands for. -/
def hitVelocity? (velocity : Nat) (cell : Char) : Option Nat :=
  if cell = 'x' then some velocity
  else if cell = 'X' then some accentVelocity
  else if cell = 'o' then some ghostVelocity
  else none

/-- The beat of a cell. -/
def cellStart (settings : GridSettings) (turn index : Nat) : Float :=
  let swing := if index % 2 = 1 then settings.delay else 0
  Float.ofNat turn * 4 + Float.ofNat index * settings.step + swing

/-- The hit of a cell, if it has one. -/
def cellNote? (pitch velocity : Nat) (settings : GridSettings) (turn : Nat) (index : Nat)
    (cell : Char) : Option Note :=
  (hitVelocity? velocity cell).map fun v =>
    ⟨pitch, v, cellStart settings turn index, settings.step * 0.9⟩

/-- The hits of one turn of a grid. -/
def turnNotes (cells : List Char) (pitch velocity : Nat) (settings : GridSettings) (turn : Nat) :
    List Note :=
  (cells.mapIdx (cellNote? pitch velocity settings turn)).filterMap id

/-- The hits of a grid. -/
def gridNotes (grid : String) (pitch velocity : Nat) (settings : GridSettings) :
    Except Fault (List Note) :=
  match checkGrid grid with
  | .error e => .error e
  | .ok () =>
    let cells := gridCells grid
    .ok ((List.range (settings.turns cells.length)).flatMap
      (turnNotes cells pitch velocity settings))

end Studio.Music
