/-!
# Paths

A path is a text of pieces between slashes. Empty pieces and single dots lead nowhere, two dots lead
to the folder around, and every other piece is a name. A path that starts with a slash begins at the
root, and any other one where the program works. Here paths are taken apart as texts, whatever files
there are. Main statement: `ofPieces_pieces` says that the pieces of a path lose nothing of it.
-/

namespace Studio.Files

/-- The name of a file or a folder, or another piece of a path. -/
abbrev Name := List Char

namespace Path

/-- The piece that stands for the folder itself. -/
def here : Name := ['.']

/-- The piece that stands for the folder around. -/
def up : Name := ['.', '.']

/-- Whether a piece leads nowhere. -/
def idle (piece : Name) : Bool :=
  piece.isEmpty || piece == here

/-- The pieces of a path: what stands between its slashes. -/
def pieces : List Char → List Name
  | [] => [[]]
  | c :: rest =>
    match pieces rest with
    | piece :: more => if c = '/' then [] :: piece :: more else (c :: piece) :: more
    | [] => [[c]]

/-- The text of pieces: a slash between any two of them. -/
def ofPieces : List Name → List Char
  | [] => []
  | [piece] => piece
  | piece :: next :: more => piece ++ '/' :: ofPieces (next :: more)

/-- The first character of a path belongs to its first piece. -/
theorem ofPieces_cons {c : Char} {piece : Name} {more : List Name} :
    ofPieces ((c :: piece) :: more) = c :: ofPieces (piece :: more) := by
  cases more <;> rfl

/-- The pieces of a path lose nothing of it. -/
theorem ofPieces_pieces (path : List Char) : ofPieces (pieces path) = path := by
  induction path with
  | nil => rfl
  | cons c rest ih =>
    simp only [pieces]
    split
    · next piece more h =>
      rw [h] at ih
      split
      · next hc => simp only [ofPieces, ih, hc, List.nil_append]
      · rw [ofPieces_cons, ih]
    · next h => rw [h] at ih; simp only [ofPieces, ← ih]

/-- The pieces up to the last one that leads anywhere. -/
def dropIdle (pieces : List Name) : List Name :=
  (pieces.reverse.dropWhile idle).reverse

/-- The pieces of a path without the idle ones at its end. The first piece always counts, since it
tells where the path begins. -/
def parts (path : List Char) : List Name :=
  match pieces path with
  | first :: rest => first :: dropIdle rest
  | [] => []

/-- The path of parts; the root alone is a slash. -/
def ofParts : List Name → List Char
  | [[]] => ['/']
  | parts => ofPieces parts

/-- The path without its last part, if there is a part to take away. -/
def parent? (path : List Char) : Option (List Char) :=
  match parts path with
  | [] | [[]] => none
  | [_] => some []
  | first :: rest => some (ofParts (first :: dropIdle rest.dropLast))

/-- The nonempty beginnings of a list of pieces, the shortest first. -/
def beginnings : List Name → List (List Name)
  | [] => []
  | piece :: rest => [piece] :: (beginnings rest).map (piece :: ·)

/-- The path and the paths around it, the innermost first. -/
def ancestors (path : List Char) : List (List Char) :=
  let named (front : List Name) : Bool := front.getLast?.any (!idle ·)
  (((beginnings (parts path)).filter named).map ofParts).reverse

/-- The name at the end of a path. -/
def fileName? (path : List Char) : Option Name :=
  (parts path).getLast?.filter fun name => !idle name && name != up

/-- A name without its extension, which is what stands behind its last dot. A dot at the start
begins no extension. -/
def stem (name : Name) : Name :=
  let front := ((name.reverse.dropWhile (· ≠ '.')).drop 1).reverse
  if front.isEmpty then name else front

/-- The extension of a name. -/
def extension? (name : Name) : Option Name :=
  if stem name == name then none else some (name.drop ((stem name).length + 1))

/-- The path with another extension: as many characters as the old extension has are taken from its
end, and the new one is put behind the stem of the name that is left, if one is. -/
def withExtension (extension : Name) (path : List Char) : List Char :=
  let old := ((fileName? path).bind extension?).getD []
  let kept := path.take (path.length - old.length)
  match fileName? kept with
  | some name => ofParts ((parts kept).dropLast ++ [stem name ++ '.' :: extension])
  | none => kept

end Path

end Studio.Files
