import Studio.Music.Grid
import Studio.Proofs.Number.Signs

/-!
# Grids cell by cell

The hits of a bar are the cells that are struck, in order, each with the velocity that its sign
stands for (`Hits`). `gridNotes_exact` says that a grid is laid out as copies of these hits, bar
after bar, and where every one of them is placed; spaces count for nothing, and no other character
is accepted than the four signs of cells.
-/

namespace Studio.Music

/-- The characters that a grid may be written with. -/
def gridSigns : List Char := ['x', 'X', 'o', '-', ' ']

/-- The velocities that the signs of hits stand for. -/
inductive Strikes (velocity : Nat) : Char → Nat → Prop
  | hit : Strikes velocity 'x' velocity
  | accent : Strikes velocity 'X' 127
  | ghost : Strikes velocity 'o' 60

/-- The hits among cells: the numbers of the cells that are struck, in order, each with its
velocity. -/
structure Hits (velocity : Nat) (cells : List Char) (hits : List (Nat × Nat)) : Prop where
  ordered : hits.Pairwise fun a b => a.1 < b.1
  mem_iff : ∀ index v, (index, v) ∈ hits ↔ ∃ cell, cells[index]? = some cell ∧
    Strikes velocity cell v

/-- The beat of a hit: four beats for every bar and a step for every cell in front of it, and the
delay if the number of these cells is odd. -/
def hitStart (settings : GridSettings) (bar index : Nat) : Float :=
  let straight := Float.ofNat bar * 4 + Float.ofNat index * settings.step
  if index % 2 = 1 then straight + settings.delay else straight

/-- The note of a hit in a bar. -/
def hitNote (pitch : Nat) (settings : GridSettings) (bar : Nat) (hit : Nat × Nat) : Note :=
  ⟨pitch, hit.2, hitStart settings bar hit.1, settings.step * 0.9⟩

/-! ### The characters of a grid -/

/-- The characters of a grid are its signs. -/
theorem isGridChar_iff {c : Char} : isGridChar c = true ↔ c ∈ gridSigns := by
  simp [isGridChar, gridSigns, or_assoc]

/-- A grid is valid just when all its characters are signs. -/
theorem checkGrid_eq_ok {grid : String} :
    checkGrid grid = .ok () ↔ ∀ c ∈ grid.toList, c ∈ gridSigns := by
  unfold checkGrid
  split
  · next c hfound =>
    have hc : c ∉ gridSigns := mt isGridChar_iff.2 (by simpa using List.find?_some hfound)
    simp only [reduceCtorEq, false_iff]
    exact fun h => hc (h c (List.mem_of_find?_eq_some hfound))
  · next hnone => simpa [isGridChar_iff] using List.find?_eq_none.1 hnone

/-- The cells of a grid are taken once and for all. -/
theorem gridCells_gridCells (grid : String) :
    gridCells (String.ofList (gridCells grid)) = gridCells grid := by
  simp [gridCells]

/-- The cells of a valid grid are a valid grid. -/
theorem checkGrid_gridCells {grid : String} (h : checkGrid grid = .ok ()) :
    checkGrid (String.ofList (gridCells grid)) = .ok () := by
  rw [checkGrid_eq_ok] at h ⊢
  rw [String.toList_ofList]
  exact fun c hc => h c (List.mem_of_mem_filter hc)

/-! ### Hits -/

/-- A cell is hit with a velocity just when it strikes with it. -/
theorem hitVelocity?_eq_some {velocity v : Nat} {cell : Char} :
    hitVelocity? velocity cell = some v ↔ Strikes velocity cell v := by
  constructor
  · intro h
    unfold hitVelocity? at h
    split at h
    · next hcell =>
      obtain rfl := Option.some.inj h
      exact hcell ▸ .hit
    · split at h
      · next hcell =>
        obtain rfl := Option.some.inj h
        exact hcell ▸ .accent
      · split at h
        · next hcell =>
          obtain rfl := Option.some.inj h
          exact hcell ▸ .ghost
        · cases h
  · rintro (_ | _ | _) <;> rfl

/-- The hits among cells, one for each cell that is struck. -/
def hitsOf (velocity : Nat) (cells : List Char) : List (Nat × Nat) :=
  cells.zipIdx.filterMap fun found =>
    (hitVelocity? velocity found.1).map fun v => (found.2, v)

/-- The hits that are computed are the hits among the cells. -/
theorem hits_hitsOf (velocity : Nat) (cells : List Char) :
    Hits velocity cells (hitsOf velocity cells) := by
  constructor
  · have hindices : (cells.zipIdx.map Prod.snd).Pairwise (· < ·) := by
      rw [List.zipIdx_map_snd]
      exact List.pairwise_lt_range'
    refine (List.pairwise_map.1 hindices).filterMap _ ?_
    intro a b hlt hit hhit other hother
    obtain ⟨v, -, rfl⟩ := Option.map_eq_some_iff.1 hhit
    obtain ⟨w, -, rfl⟩ := Option.map_eq_some_iff.1 hother
    exact hlt
  · intro index v
    simp only [hitsOf, List.mem_filterMap, List.mem_zipIdx_iff_getElem?, Option.map_eq_some_iff,
      hitVelocity?_eq_some, Prod.mk.injEq]
    constructor
    · rintro ⟨⟨cell, position⟩, hcell, w, hstrikes, rfl, rfl⟩
      exact ⟨cell, hcell, hstrikes⟩
    · rintro ⟨cell, hcell, hstrikes⟩
      exact ⟨(cell, index), hcell, v, hstrikes, rfl, rfl⟩

/-! ### Starts -/

/-- A step is no negative number. -/
theorem unsigned_step (settings : GridSettings) : Number.Unsigned settings.step :=
  (Number.Unsigned.ofNat 4).div (.ofNat _)

/-- A cell that is not delayed is not moved at all. -/
theorem cellStart_eq (settings : GridSettings) (bar index : Nat) :
    cellStart settings bar index = hitStart settings bar index := by
  have hstraight : Number.Unsigned (Float.ofNat bar * 4 + Float.ofNat index * settings.step) :=
    ((Number.Unsigned.ofNat bar).mul (.ofNat 4)).add
      ((Number.Unsigned.ofNat index).mul (unsigned_step settings))
  unfold cellStart hitStart
  by_cases hodd : index % 2 = 1
  · simp only [if_pos hodd]
  · simp only [if_neg hodd]
    exact hstraight.add_zero

/-- A bar is laid out hit by hit. -/
theorem turnNotes_eq (cells : List Char) (pitch velocity : Nat) (settings : GridSettings)
    (bar : Nat) : turnNotes cells pitch velocity settings bar =
      (hitsOf velocity cells).map (hitNote pitch settings bar) := by
  rw [turnNotes, hitsOf, List.mapIdx_eq_zipIdx_map, List.filterMap_map, List.map_filterMap]
  refine List.filterMap_congr fun found _ => ?_
  show cellNote? pitch velocity settings bar found.2 found.1 = _
  rw [cellNote?, cellStart_eq, Option.map_map]
  rfl

/-! ### Numbers of hits -/

/-- Whether a cell is one of the three signs of a hit. -/
def isHit (cell : Char) : Bool :=
  cell = 'x' || cell = 'X' || cell = 'o'

/-- The number of hits that a grid writes. -/
def hitCount (grid : String) : Nat :=
  grid.toList.countP isHit

/-- A cell has a velocity just when it is a hit. -/
theorem isSome_hitVelocity? (velocity : Nat) (cell : Char) :
    (hitVelocity? velocity cell).isSome = isHit cell := by
  by_cases hplain : cell = 'x'
  · simp [hitVelocity?, isHit, hplain]
  · by_cases haccent : cell = 'X'
    · simp [hitVelocity?, isHit, haccent]
    · by_cases hghost : cell = 'o' <;> simp [hitVelocity?, isHit, hplain, haccent, hghost]

/-- As many cells are struck as are one of the three signs. -/
theorem length_hitsOf (velocity : Nat) (cells : List Char) :
    (hitsOf velocity cells).length = cells.countP isHit := by
  rw [hitsOf, List.length_filterMap_eq_countP]
  simp only [Option.isSome_map, isSome_hitVelocity?]
  calc (cells.zipIdx.countP fun found => isHit found.1)
      = (cells.zipIdx.map Prod.fst).countP isHit := by rw [List.countP_map]; rfl
    _ = cells.countP isHit := by rw [List.zipIdx_map_fst]

/-- Spaces are no hits. -/
theorem countP_gridCells (grid : String) : (gridCells grid).countP isHit = hitCount grid := by
  rw [gridCells, List.countP_filter, hitCount]
  refine List.countP_congr fun c _ => ?_
  have hspace : isHit ' ' = false := rfl
  by_cases hc : c = ' ' <;> simp [hc, hspace]

/-- The grid is laid out as often as it is played, if all its characters may stand in it. -/
theorem gridNotes_eq_ok {grid : String} {pitch velocity : Nat} {settings : GridSettings}
    {notes : List Note} : gridNotes grid pitch velocity settings = .ok notes ↔
      checkGrid grid = .ok () ∧
        notes = (List.range (settings.turns (gridCells grid).length)).flatMap
          (turnNotes (gridCells grid) pitch velocity settings) := by
  rw [gridNotes]
  cases checkGrid grid <;> simp [eq_comm]

/-- A grid has as many notes as hits, for every turn. -/
theorem length_gridNotes {grid : String} {pitch velocity : Nat} {settings : GridSettings}
    {notes : List Note} (h : gridNotes grid pitch velocity settings = .ok notes) :
    notes.length = hitCount grid * settings.turns (gridCells grid).length := by
  obtain ⟨-, rfl⟩ := gridNotes_eq_ok.1 h
  simp only [List.length_flatMap, turnNotes_eq, List.length_map, length_hitsOf, countP_gridCells,
    List.map_const', List.sum_replicate_nat, List.length_range]
  exact Nat.mul_comm _ _

/-! ### Grids as a whole -/

/-- The last 32 bits of the number of cells are the number where there are less than `2 ^ 32`. -/
theorem turns_of_lt {settings : GridSettings} {cells : Nat} (h : cells < 2 ^ 32) :
    settings.turns cells = if cells ≤ settings.subdivision then max settings.bars 1 else 1 := by
  rw [GridSettings.turns, Nat.mod_eq_of_lt (by simpa using h)]

/-- A grid is accepted if it is written with the five characters alone, and spaces then make no
difference. It is laid out as copies of the hits in its bar: one in every bar if the cells fit into
one, else a single one. -/
theorem gridNotes_exact (grid : String) (pitch velocity : Nat) (settings : GridSettings)
    (hcells : (gridCells grid).length < 2 ^ 32) :
    ((∃ fault, gridNotes grid pitch velocity settings = .error fault) ↔
        ∃ c ∈ grid.toList, c ∉ gridSigns) ∧
      ((∀ c ∈ grid.toList, c ∈ gridSigns) →
        gridNotes grid pitch velocity settings =
            gridNotes (String.ofList (gridCells grid)) pitch velocity settings ∧
          ∃ hits, Hits velocity (gridCells grid) hits ∧
            gridNotes grid pitch velocity settings =
              .ok ((List.range (if (gridCells grid).length ≤ settings.subdivision
                  then max settings.bars 1 else 1)).flatMap fun bar =>
                hits.map (hitNote pitch settings bar))) := by
  constructor
  · constructor
    · rintro ⟨fault, hfault⟩
      by_contra hall
      have hcheck : checkGrid grid = .ok () := checkGrid_eq_ok.2 (by simpa using hall)
      rw [gridNotes, hcheck] at hfault
      cases hfault
    · rintro ⟨c, hmem, hc⟩
      cases hcheck : checkGrid grid with
      | error fault => exact ⟨fault, by rw [gridNotes, hcheck]⟩
      | ok => exact absurd (checkGrid_eq_ok.1 hcheck c hmem) hc
  · intro hall
    have hcheck := checkGrid_eq_ok.2 hall
    refine ⟨?_, hitsOf velocity (gridCells grid), hits_hitsOf _ _, ?_⟩
    · rw [gridNotes, gridNotes, hcheck, checkGrid_gridCells hcheck, gridCells_gridCells]
    · rw [gridNotes_eq_ok, turns_of_lt hcells]
      exact ⟨hcheck, List.flatMap_congr fun bar _ => (turnNotes_eq ..).symm⟩

/-- A rest, an accent behind it and a ghost, in both of two bars and with swing: the accent of the
second bar is delayed by a quarter of its step. -/
theorem gridNotes_exact_swing :
    let settings : GridSettings := ⟨4, 50, 2⟩
    (gridCells "-X o").length < 2 ^ 32 ∧ (∀ c ∈ "-X o".toList, c ∈ gridSigns) ∧
      ∃ notes, gridNotes "-X o" 38 100 settings = .ok notes ∧
        (⟨38, 127, 5.25, 0.9⟩ : Note) ∈ notes ∧ (⟨38, 60, 6, 0.9⟩ : Note) ∈ notes := by
  intro settings
  have hlength : (gridCells "-X o").length < 2 ^ 32 := by
    have hfew : (gridCells "-X o").length ≤ 3 := by decide
    omega
  have hsigns : ∀ c ∈ "-X o".toList, c ∈ gridSigns := checkGrid_eq_ok.1 rfl
  obtain ⟨-, hlaid⟩ := gridNotes_exact "-X o" 38 100 settings hlength
  obtain ⟨-, hits, hhits, hnotes⟩ := hlaid hsigns
  have hbar : 1 ∈ List.range (if (gridCells "-X o").length ≤ settings.subdivision
      then max settings.bars 1 else 1) := by decide +kernel
  have haccent : (1, 127) ∈ hits := (hhits.mem_iff 1 127).2 ⟨'X', rfl, .accent⟩
  have hghost : (2, 60) ∈ hits := (hhits.mem_iff 2 60).2 ⟨'o', rfl, .ghost⟩
  have hduration : settings.step * 0.9 = 0.9 := by decide +kernel
  have hdelayed : hitStart settings 1 1 = 5.25 := by decide +kernel
  have hstraight : hitStart settings 1 2 = 6 := by decide +kernel
  refine ⟨hlength, hsigns, _, hnotes, ?_, ?_⟩
  · refine List.mem_flatMap.2 ⟨1, hbar, List.mem_map.2 ⟨_, haccent, ?_⟩⟩
    rw [hitNote, hdelayed, hduration]
  · refine List.mem_flatMap.2 ⟨1, hbar, List.mem_map.2 ⟨_, hghost, ?_⟩⟩
    rw [hitNote, hstraight, hduration]

end Studio.Music
