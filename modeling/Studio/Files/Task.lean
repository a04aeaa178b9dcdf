import Studio.Files.Disk

/-!
# Tasks on files

A task on files is a computation that may ask for a file to be read, written or moved or for a
folder to be made, and goes on with the answer. The outer layer of a program carries it out on the
files around it; `run` carries it out on a disk. Main statements: `run_bind` says that tasks run one
after the other, and `read_replaceFile` that a file holds the text that it was replaced by.
-/

namespace Studio

open Files (Disk Fault)

/-- A computation on files and folders. -/
inductive FileTask (α : Type) where
  | done (value : α)
  /-- Go on with the text of a file, or with the reason why it cannot be read. -/
  | read (path : String) (next : Except Fault String → FileTask α)
  /-- Go on when a folder was made in one that is there. -/
  | makeFolder (path : String) (next : Except Fault Unit → FileTask α)
  /-- Go on when a text was written to a file. -/
  | write (path text : String) (next : Except Fault Unit → FileTask α)
  /-- Go on when a file was moved. -/
  | move (source target : String) (next : Except Fault Unit → FileTask α)

namespace FileTask

variable {α β : Type}

/-- Do a task, and another one with its value. -/
def andThen (task : FileTask α) (after : α → FileTask β) : FileTask β :=
  match task with
  | .done value => after value
  | .read path next => .read path fun answer => (next answer).andThen after
  | .makeFolder path next => .makeFolder path fun answer => (next answer).andThen after
  | .write path text next => .write path text fun answer => (next answer).andThen after
  | .move source target next => .move source target fun answer => (next answer).andThen after

instance : Monad FileTask where
  pure := .done
  bind := andThen

/-- A disk after a change, or as it was when the change failed. -/
def settle (disk : Disk) : Except Fault Disk → Except Fault Unit × Disk
  | .ok changed => (.ok (), changed)
  | .error fault => (.error fault, disk)

/-- Carry out a task on a disk. -/
def run (disk : Disk) : FileTask α → α × Disk
  | .done value => (value, disk)
  | .read path next => (next (disk.read path)).run disk
  | .makeFolder path next =>
    let (answer, changed) := settle disk (disk.makeFolder path)
    (next answer).run changed
  | .write path text next =>
    let (answer, changed) := settle disk (disk.write path text)
    (next answer).run changed
  | .move source target next =>
    let (answer, changed) := settle disk (disk.move source target)
    (next answer).run changed

/-- Tasks run one after the other. -/
theorem run_bind (disk : Disk) (task : FileTask α) (after : α → FileTask β) :
    (task >>= after).run disk = (after (task.run disk).1).run (task.run disk).2 := by
  change (task.andThen after).run disk = _
  induction task generalizing disk with
  | done value => rfl
  | read path next ih => exact ih _ _
  | makeFolder path next ih => exact ih _ _
  | write path text next ih => exact ih _ _
  | move source target next ih => exact ih _ _

/-- The text of a file. -/
def readFile (path : String) : FileTask (Except Fault String) :=
  .read path .done

/-- Write a text to a file. -/
def writeFile (path text : String) : FileTask (Except Fault Unit) :=
  .write path text .done

/-- Move a file. -/
def moveFile (source target : String) : FileTask (Except Fault Unit) :=
  .move source target .done

/-- Whether a path leads to a folder, as it does when only that keeps it from being read. -/
def isFolder (path : String) : FileTask Bool :=
  .read path fun answer => .done (answer matches .error .isFolder)

/-- Make a folder in one that is there, or keep the folder that the path leads to. -/
def keepFolder (path : String) : FileTask (Except Fault Unit) :=
  .makeFolder path fun answer => do
    match answer with
    | .error .present => if ← isFolder path then pure (.ok ()) else pure answer
    | _ => pure answer

/-- Make a folder and the folders around it, the innermost first, as far as they are missing. -/
def makeAll : List String → FileTask (Except Fault Unit)
  | [] => pure (.ok ())
  | inner :: outer => do
    match ← keepFolder inner with
    | .error .absent =>
      match ← makeAll outer with
      | .ok () => keepFolder inner
      | .error fault => pure (.error fault)
    | answer => pure answer

/-- Make the folder of a path with all folders around it. -/
def makeFolders (path : List Char) : FileTask (Except Fault Unit) :=
  makeAll ((Files.Path.ancestors path).map String.ofList)

/-- Put a text in the place of a file, or make the file and the folders around it. The text is
written to a draft first, so that the file never holds a part of it. -/
def replaceFile (draft path text : String) : FileTask (Except Fault Unit) := do
  match ← makeFolders ((Files.Path.parent? path.toList).getD []) with
  | .error fault => pure (.error fault)
  | .ok () =>
    match ← writeFile draft text with
    | .error fault => pure (.error fault)
    | .ok () => moveFile draft path

/-- A file that was replaced holds the text. -/
theorem read_replaceFile {disk : Disk} {draft path text : String}
    (h : ((replaceFile draft path text).run disk).1 = .ok ()) :
    ((replaceFile draft path text).run disk).2.read path = .ok text := by
  simp only [replaceFile, run_bind] at h ⊢
  generalize (makeFolders _).run disk = made at h ⊢
  obtain ⟨answer, disk⟩ := made
  cases answer with
  | error fault => simp [run, pure] at h
  | ok =>
    simp only [run_bind, writeFile, run] at h ⊢
    cases written : disk.write draft text with
    | error fault => simp [written, settle, run, pure] at h
    | ok drafted =>
      simp only [written, settle, moveFile, run] at h ⊢
      cases moved : drafted.move draft path with
      | error fault => simp [moved] at h
      | ok last => exact Disk.read_move (Disk.read_write written) moved

end FileTask

end Studio
