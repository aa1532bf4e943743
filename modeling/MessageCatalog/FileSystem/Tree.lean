import MessageCatalog.FileSystem.Basic
import MessageCatalog.OrderedMap

/-!
# A tree of files in memory

A tree holds what stands below one directory, which paths without a leading slash begin at. A path is
walked part by part: each part must stand in a directory, `.` stays and `..` goes back.
-/

namespace MessageCatalog

/-- The contents of a file. -/
inductive FileContents where
  | text (contents : String)
  /-- Bytes that are no text. -/
  | binary
  deriving DecidableEq, Repr

/-- The contents that bytes are. -/
def FileContents.ofBytes (bytes : ByteArray) : FileContents :=
  match String.fromUTF8? bytes with
  | some contents => .text contents
  | none => .binary

/-- What stands at a place of a tree. -/
inductive TreeEntry where
  | directory
  | file (contents : FileContents)
  deriving DecidableEq, Repr

/-- The names on the way from the directory of a tree to a place. -/
abbrev TreePlace := List String

/-- The entries below a directory. -/
structure FileTree where
  entries : OrderedMap TreePlace TreeEntry := ∅
  deriving DecidableEq, Repr

namespace FileTree

/-! ## Walking -/

/-- Whether a place is the directory of the tree or one around it. -/
def isOutside (place : TreePlace) : Bool :=
  place.all (· = "..")

/-- What stands at a place. -/
def get? (t : FileTree) (place : TreePlace) : Option TreeEntry :=
  if isOutside place then some .directory else t.entries.get? place

/-- The place one level up. -/
def above (place : TreePlace) : TreePlace :=
  if isOutside place then place ++ [".."] else place.dropLast

/-- The place that one part of a path leads to from a directory. -/
def stepTo (place : TreePlace) (part : String) : TreePlace :=
  if part = "." then place
  else if part = ".." then above place
  else place ++ [part]

/-- Walk the parts of a path from a place; whatever the last part leads to is the result, but all
parts before it must lead to directories. -/
def walk (t : FileTree) (place : TreePlace) : List String → Except FileError TreePlace
  | [] => .ok place
  | part :: rest =>
    match t.get? place with
    | none => .error .notFound
    | some (.file _) => .error .notDirectory
    | some .directory => walk t (stepTo place part) rest

/-- The parts of a path. -/
def parts (path : String) : List String :=
  ((Text.pieces '/' path.toList).filter (!·.isEmpty)).map String.ofList

/-- Whether a path ends with a slash, which only that of a directory may do. -/
def endsWithSlash (path : String) : Bool := path.toList.getLast? = some '/'

/-- The place of a path. -/
def place (t : FileTree) (path : String) : Except FileError TreePlace :=
  if path.isEmpty then .error .notFound
  else if path.toList.head? = some '/' then .error .notFound
  else t.walk [] (parts path)

/-- What stands at a path. -/
def find (t : FileTree) (path : String) : Except FileError TreeEntry := do
  match t.get? (← t.place path) with
  | none => .error .notFound
  | some (.file contents) =>
    if endsWithSlash path then .error .notDirectory else .ok (.file contents)
  | some .directory => .ok .directory

/-! ## Looking -/

def kind? (t : FileTree) (path : String) : Option EntryKind :=
  match t.find path with
  | .ok .directory => some .directory
  | .ok (.file _) => some .file
  | .error _ => none

/-- The names right below a place. -/
def namesAt (t : FileTree) (place : TreePlace) : List String :=
  t.entries.keys.filterMap fun p =>
    if p.dropLast = place && !p.isEmpty then p.getLast? else none

/-- The names in a directory. -/
def names (t : FileTree) (path : String) : List String :=
  match t.place path with
  | .ok place => t.namesAt place
  | .error _ => []

def readText (t : FileTree) (path : String) : Except FileError String := do
  match ← t.find path with
  | .directory => .error .isDirectory
  | .file .binary => .error .invalidText
  | .file (.text contents) => .ok contents

/-! ## Changing -/

/-- Put an entry at a place. -/
def put (t : FileTree) (place : TreePlace) (entry : TreeEntry) : FileTree :=
  ⟨t.entries.insert place entry⟩

def makeDirectory (t : FileTree) (path : String) : Except FileError FileTree := do
  let place ← t.place path
  match t.get? place with
  | some _ => .error .exists
  | none => return t.put place .directory

/-- A file that is written is made if it is missing, so its path cannot end with a slash. -/
def writeText (t : FileTree) (path contents : String) : Except FileError FileTree := do
  let place ← t.place path
  if endsWithSlash path || t.get? place = some .directory then .error .isDirectory
  else return t.put place (.file (.text contents))

/-- Take over a changed tree, if there is one. -/
def change (next : FileTree → Except FileError FileTree) :
    StateM FileTree (Except FileError Unit) := do
  match next (← get) with
  | .ok t =>
    set t
    return .ok ()
  | .error e => return .error e

/-- The operations of a tree. -/
def fileSystem : FileSystem (StateM FileTree) where
  kind? path := return (← get).kind? path
  names path := return (← get).names path
  readText path := return (← get).readText path
  makeDirectory path := change (·.makeDirectory path)
  writeText path contents := change (·.writeText path contents)

/-! ## Whole trees -/

/-- Put an entry at a path, with directories around it. -/
def plant (t : FileTree) (path : String) (entry : TreeEntry) : FileTree :=
  let place := parts path
  let around := (List.range place.length).map place.take
  let t := around.foldl (fun t p => if (t.get? p).isSome then t else t.put p .directory) t
  match entry, t.get? place with
  | .directory, some _ => t
  | _, _ => t.put place entry

/-- The text of an entry. -/
def shownText : TreeEntry → Option String
  | .file (.text contents) => some contents
  | _ => none

/-- The files of a tree that are new or changed since it was `before`, in the order of their
paths. -/
def changes (before after : FileTree) : List (String × String) :=
  let changed := after.entries.entries.filterMap fun (place, entry) =>
    if place.head? = some ".." || before.get? place = some entry then none
    else (shownText entry).map fun contents => (Text.join "/" place, contents)
  changed.mergeSort fun a b => !(b.1 < a.1)

end FileTree

end MessageCatalog
