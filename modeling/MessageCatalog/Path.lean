import MessageCatalog.Text

/-!
# Paths

A path is a string; what it means is its list of components. Two paths with the same components
name the same place, however their separators are written.
-/

namespace MessageCatalog.Path

/-- A step of a path. -/
inductive Component where
  | root
  | here
  | up
  | name (value : String)
  deriving DecidableEq, Repr

/-- The pieces of a path between separators, each with the number of characters up to its end. -/
def pieceEnds (position : Nat) : List (List Char) → List (List Char × Nat)
  | [] => []
  | piece :: rest =>
    (piece, position + piece.length) :: pieceEnds (position + piece.length + 1) rest

/-- The component that a piece is; a piece `.` counts only at the start of a path. -/
def componentOf? (atStart : Bool) (piece : List Char) : Option Component :=
  if piece.isEmpty then none
  else if piece = ['.'] then if atStart then some .here else none
  else if piece = ['.', '.'] then some .up
  else some (.name (String.ofList piece))

/-- The components of the pieces of a path. -/
def componentsOfPieces (atStart : Bool) : List (List Char × Nat) → List (Component × Nat)
  | [] => []
  | (piece, stop) :: rest =>
    match componentOf? atStart piece with
    | some c => (c, stop) :: componentsOfPieces false rest
    | none => componentsOfPieces false rest

/-- The components of a path, each with the number of characters up to its end. -/
def componentEnds (path : String) : List (Component × Nat) :=
  let pieces := pieceEnds 0 (Text.pieces '/' path.toList)
  if path.toList.head? = some '/' then (.root, 1) :: componentsOfPieces false pieces
  else componentsOfPieces true pieces

def components (path : String) : List Component := (componentEnds path).map Prod.fst

/-- Whether two paths name the same place. -/
def same (p q : String) : Bool := components p = components q

/-- The last component, when it is a name. -/
def fileName? (path : String) : Option String :=
  match (components path).getLast? with
  | some (.name value) => some value
  | _ => none

/-- A name cut at its last dot, which must not be its first character. -/
def cutAtDot? (name : String) : Option (String × String) :=
  let reversed := name.toList.reverse
  let extension := reversed.takeWhile (· ≠ '.')
  match reversed.dropWhile (· ≠ '.') with
  | _ :: c :: stem =>
    some (String.ofList (c :: stem).reverse, String.ofList extension.reverse)
  | _ => none

/-- What stands behind the last dot of the file name. -/
def extension? (path : String) : Option String := do
  let name ← fileName? path
  let (_, extension) ← cutAtDot? name
  return extension

/-- The file name without its extension. -/
def fileStem? (path : String) : Option String := do
  let name ← fileName? path
  match cutAtDot? name with
  | some (stem, _) => return stem
  | none => return name

/-- The path without its last component. -/
def parent? (path : String) : Option String :=
  match (componentEnds path).reverse with
  | [] => none
  | (.root, _) :: _ => none
  | [_] => some ""
  | _ :: (_, stop) :: _ => some (String.ofList (path.toList.take stop))

/-- A path and the paths above it, at most `count` of them. -/
def ancestorsUpTo : (count : Nat) → (path : String) → List String
  | 0, _ => []
  | count + 1, path =>
    match parent? path with
    | none => [path]
    | some above => path :: ancestorsUpTo count above

/-- A path and the paths above it. -/
def ancestors (path : String) : List String :=
  ancestorsUpTo ((componentEnds path).length + 1) path

/-- The path of `name` inside `base`. -/
def join (base name : String) : String :=
  if name.toList.head? = some '/' then name
  else if base.isEmpty then name
  else if base.toList.getLast? = some '/' then base ++ name
  else base ++ "/" ++ name

end MessageCatalog.Path
