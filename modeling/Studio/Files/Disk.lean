import Studio.Files.Fault
import Studio.Files.Path
import Studio.Text.Blank

/-!
# Disks

A disk holds folders and texts in files. A path is followed folder by folder up to its last piece,
which names a slot: a place in a folder where something is or could be. Main statements:
`read_write` and `read_move` say that a text that was written to a path, or moved there, is read
back from it.
-/

namespace Studio.Files

/-- Where a file or a folder is: the names that lead to it from the root. -/
abbrev Place := List Name

/-- The folders but for the root, the texts in files, and the folder in which a program works. -/
structure Disk where
  working : Place := []
  folders : List Place := []
  files : List (Place × String) := []

/-- A place in a folder that is there. -/
structure Slot where
  folder : Place
  name : Name
  /-- Whether the path to it ends in a slash, as only the path to a folder may. -/
  slashed : Bool

/-- The place of a slot. -/
def Slot.place (slot : Slot) : Place :=
  slot.folder ++ [slot.name]

/-- What is in a slot. -/
inductive Content where
  | folder
  | file (text : String)

namespace Disk

/-- The most bytes of a name. -/
def nameLimit : Nat := 255

/-- The most bytes of a path. -/
def pathLimit : Nat := 4095

/-- Whether a folder is at a place. -/
def isFolder (disk : Disk) (place : Place) : Bool :=
  place.isEmpty || disk.folders.contains place

/-- The text in the file at a place. -/
def text? (disk : Disk) (place : Place) : Option String :=
  disk.files.lookup place

/-- The folder to which a piece of a path leads from another folder. -/
def enter (disk : Disk) (folder : Place) (piece : Name) : Except Fault Place :=
  if Path.idle piece then .ok folder
  else if piece = Path.up then .ok folder.dropLast
  else if nameLimit < Text.byteCount piece then .error .nameTooLong
  else if disk.isFolder (folder ++ [piece]) then .ok (folder ++ [piece])
  else if (disk.text? (folder ++ [piece])).isSome then .error .notFolder
  else .error .absent

/-- The folder to which pieces of a path lead, one after the other. -/
def follow (disk : Disk) : Place → List Name → Except Fault Place
  | folder, [] => .ok folder
  | folder, piece :: rest =>
    match disk.enter folder piece with
    | .ok inner => disk.follow inner rest
    | .error fault => .error fault

/-- Why a text can be no path at all. -/
def pathFault? (path : List Char) : Option Fault :=
  if path.contains '\x00' then some .brokenPath
  else if path.isEmpty then some .absent
  else if pathLimit < Text.byteCount path then some .nameTooLong
  else none

/-- The folder in which a path begins. -/
def start (disk : Disk) (path : List Char) : Place :=
  if path.head? = some '/' then [] else disk.working

/-- The slot that a path names. There is none when its last piece is no name: such a path leads to a
folder. -/
def slot? (disk : Disk) (path : List Char) : Except Fault (Option Slot) :=
  match pathFault? path with
  | some fault => .error fault
  | none =>
    let back := (Path.pieces path).reverse
    match back.dropWhile List.isEmpty with
    | [] => .ok none
    | last :: before =>
      match disk.follow (disk.start path) before.reverse with
      | .error fault => .error fault
      | .ok folder =>
        if last = Path.here || last = Path.up then .ok none
        else .ok (some ⟨folder, last, back.head?.any List.isEmpty⟩)

/-- What is in a slot. -/
def content? (disk : Disk) (slot : Slot) : Except Fault (Option Content) :=
  if nameLimit < Text.byteCount slot.name then .error .nameTooLong
  else if disk.isFolder slot.place then .ok (some .folder)
  else .ok ((disk.text? slot.place).map .file)

/-- The disk with a text in the file at a place. -/
def store (disk : Disk) (place : Place) (text : String) : Disk :=
  { disk with files := (place, text) :: disk.files.filter (·.1 ≠ place) }

/-- The disk without the file at a place. -/
def remove (disk : Disk) (place : Place) : Disk :=
  { disk with files := disk.files.filter (·.1 ≠ place) }

/-- The text in a file. -/
def read (disk : Disk) (path : String) : Except Fault String :=
  match disk.slot? path.toList with
  | .error fault => .error fault
  | .ok none => .error .isFolder
  | .ok (some slot) =>
    match disk.content? slot with
    | .error fault => .error fault
    | .ok none => .error .absent
    | .ok (some .folder) => .error .isFolder
    | .ok (some (.file text)) => if slot.slashed then .error .notFolder else .ok text

/-- The disk after a folder was made in a folder that is there. -/
def makeFolder (disk : Disk) (path : String) : Except Fault Disk :=
  match disk.slot? path.toList with
  | .error fault => .error fault
  | .ok none => .error .present
  | .ok (some slot) =>
    match disk.content? slot with
    | .error fault => .error fault
    | .ok none => .ok { disk with folders := slot.place :: disk.folders }
    | .ok (some _) => .error .present

/-- The disk after a text was written to a file, in place of the one that was there. -/
def write (disk : Disk) (path text : String) : Except Fault Disk :=
  match disk.slot? path.toList with
  | .error fault => .error fault
  | .ok none => .error .isFolder
  | .ok (some slot) =>
    if slot.slashed then .error .isFolder
    else
      match disk.content? slot with
      | .error fault => .error fault
      | .ok (some .folder) => .error .isFolder
      | .ok _ => .ok (disk.store slot.place text)

/-- The disk after a file was moved from one slot to another, in place of the one that was there.
Folders stay where they are. -/
def moveSlot (disk : Disk) (slot goal : Slot) : Except Fault Disk :=
  match disk.content? slot, disk.content? goal with
  | .error fault, _ | .ok (some _), .error fault => .error fault
  | .ok none, _ => .error .absent
  | .ok (some .folder), _ => .error .isFolder
  | .ok (some (.file text)), .ok there =>
    if slot.slashed || goal.slashed then .error .notFolder
    else
      match there with
      | some .folder => .error .isFolder
      | _ => .ok ((disk.remove slot.place).store goal.place text)

/-- The disk after a file was moved from one path to another. -/
def move (disk : Disk) (source target : String) : Except Fault Disk :=
  match disk.slot? source.toList, disk.slot? target.toList with
  | .error fault, _ | .ok _, .error fault => .error fault
  | .ok (some slot), .ok (some goal) => disk.moveSlot slot goal
  | _, _ => .error .busy

/-! ### What stays -/

/-- What is stored at a place is there. -/
theorem text?_store (disk : Disk) (place : Place) (text : String) :
    (disk.store place text).text? place = some text := by
  simp [store, text?]

/-- A step into a folder leads there on any disk with the same folders. -/
theorem enter_eq_ok {disk other : Disk} (same : other.folders = disk.folders)
    {folder inner : Place} {piece : Name} (h : disk.enter folder piece = .ok inner) :
    other.enter folder piece = .ok inner := by
  have isFolder_eq : other.isFolder = disk.isFolder := by funext place; simp [isFolder, same]
  simp only [enter, isFolder_eq] at h ⊢
  grind

/-- A way to a folder leads there on any disk with the same folders. -/
theorem follow_eq_ok {disk other : Disk} (same : other.folders = disk.folders)
    {folder inner : Place} {pieces : List Name} (h : disk.follow folder pieces = .ok inner) :
    other.follow folder pieces = .ok inner := by
  induction pieces generalizing folder with
  | nil => exact h
  | cons piece rest ih =>
    simp only [follow] at h ⊢
    cases step : disk.enter folder piece with
    | error fault => simp [step] at h
    | ok next =>
      rw [step] at h
      rw [enter_eq_ok same step]
      exact ih h

/-- A path names the same slot on any disk with the same folders. -/
theorem slot?_eq_ok {disk other : Disk} (same : other.folders = disk.folders)
    (sameStart : other.working = disk.working) {path : List Char} {slot : Option Slot}
    (h : disk.slot? path = .ok slot) : other.slot? path = .ok slot := by
  have start_eq : other.start path = disk.start path := by simp [start, sameStart]
  revert h
  simp only [slot?, start_eq]
  split
  · exact id
  · split
    · exact id
    · next last before _ =>
      cases step : disk.follow (disk.start path) before.reverse with
      | error fault => simp
      | ok folder => rw [follow_eq_ok same step]; exact id

/-- A text that is stored where no folder is, is read back. -/
theorem read_store {disk other : Disk} {path text : String} {slot : Slot}
    (named : disk.slot? path.toList = .ok (some slot)) (file : slot.slashed = false)
    {content : Option Content} (free : disk.content? slot = .ok content)
    (noFolder : content ≠ some .folder)
    (stored : other.text? slot.place = some text) (same : other.folders = disk.folders)
    (sameStart : other.working = disk.working) : other.read path = .ok text := by
  have isFolder_eq : other.isFolder = disk.isFolder := by funext place; simp [isFolder, same]
  have there : other.content? slot = .ok (some (.file text)) := by
    simp only [content?, isFolder_eq, stored, Option.map_some] at free ⊢
    split at free
    · simp at free
    · next long =>
      split at free
      · exact absurd (Except.ok.inj free).symm noFolder
      · next inner => simp [long, inner]
  simp [read, slot?_eq_ok same sameStart named, there, file]

/-- A text that was written to a path is read back from it. -/
theorem read_write {disk written : Disk} {path text : String}
    (h : disk.write path text = .ok written) : written.read path = .ok text := by
  simp only [write] at h
  split at h
  · simp at h
  · simp at h
  · next slot named =>
    split at h
    · simp at h
    · next file =>
      split at h
      · simp at h
      · simp at h
      · next noFolder free =>
        cases h
        exact read_store named (Bool.eq_false_iff.2 file) free noFolder (text?_store ..) rfl rfl

/-- A file that was moved to a path is read there as it was where it came from. -/
theorem read_move {disk moved : Disk} {source target text : String}
    (held : disk.read source = .ok text) (h : disk.move source target = .ok moved) :
    moved.read target = .ok text := by
  simp only [move] at h
  split at h
  · simp at h
  · simp at h
  · next slot goal sourceNamed targetNamed =>
    simp only [moveSlot] at h
    simp only [read, sourceNamed] at held
    split at h
    · simp at h
    · simp at h
    · simp at h
    · simp at h
    · next there holds free =>
      simp only [holds] at held
      split at h
      · simp at h
      · next files =>
        simp only [Bool.or_eq_true, not_or, Bool.not_eq_true] at files
        simp only [files.1, Bool.false_eq_true, if_false, Except.ok.injEq] at held
        split at h
        · simp at h
        · next noFolder =>
          cases h
          subst held
          exact read_store targetNamed files.2 free noFolder (text?_store ..) rfl rfl
  · simp at h

end Disk

end Studio.Files
