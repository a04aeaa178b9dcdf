/-!
# Faults of files

Why a file or a folder cannot be read, made, written or moved, and the words for it.
-/

namespace Studio.Files

/-- Why an operation on a file or a folder fails. -/
inductive Fault where
  /-- There is no such file or folder. -/
  | absent
  /-- The operation is not allowed. -/
  | denied
  /-- The place belongs to a folder that is in use. -/
  | busy
  /-- There is a file or folder already. -/
  | present
  /-- A path goes on behind a file. -/
  | notFolder
  /-- A file is asked for where a folder is. -/
  | isFolder
  /-- A path, or a name in it, is longer than paths and names can be. -/
  | nameTooLong
  /-- A path holds the character that ends paths. -/
  | brokenPath
  /-- Another reason, in words. -/
  | other (reason : String)
deriving DecidableEq, Repr

/-- The words for a fault. -/
def Fault.message : Fault → String
  | .absent => "No such file or directory (os error 2)"
  | .denied => "Permission denied (os error 13)"
  | .busy => "Device or resource busy (os error 16)"
  | .present => "File exists (os error 17)"
  | .notFolder => "Not a directory (os error 20)"
  | .isFolder => "Is a directory (os error 21)"
  | .nameTooLong => "File name too long (os error 36)"
  | .brokenPath => "file name contained an unexpected NUL byte"
  | .other reason => reason

end Studio.Files
