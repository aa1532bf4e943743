import MessageCatalog.Path

/-!
# File systems

What a command needs of a file system: to look at paths, to list directories, to read and to write.
The operations are a parameter, so a command runs alike on a disk and on a tree in memory.
-/

namespace MessageCatalog

/-- Why an operation on a file fails. -/
inductive FileError where
  | notFound
  | exists
  | notDirectory
  | isDirectory
  | invalidText
  | other (text : String)
  deriving DecidableEq, Repr

namespace FileError

/-- The text of an error that the system has a number for. -/
def systemText (text : String) (number : Nat) : String :=
  text ++ " (os error " ++ toString number ++ ")"

def message : FileError → String
  | notFound => systemText "No such file or directory" 2
  | .exists => systemText "File exists" 17
  | notDirectory => systemText "Not a directory" 20
  | isDirectory => systemText "Is a directory" 21
  | invalidText => "stream did not contain valid UTF-8"
  | other text => text

end FileError

/-- What stands at a path. -/
inductive EntryKind where
  | file
  | directory
  | special
  deriving DecidableEq, Repr

/-- The operations of a file system. -/
structure FileSystem (m : Type → Type) where
  /-- What stands at a path, if anything can be reached there. -/
  kind? : String → m (Option EntryKind)
  /-- The names in a directory. -/
  names : String → m (List String)
  readText : String → m (Except FileError String)
  /-- Make a directory in one that is there. -/
  makeDirectory : String → m (Except FileError Unit)
  /-- Replace the contents of a file, or make it in a directory that is there. -/
  writeText : (path contents : String) → m (Except FileError Unit)

namespace FileSystem

variable {m : Type → Type} [Monad m]

def isFile (fs : FileSystem m) (path : String) : m Bool := do
  return (← fs.kind? path) = some .file

def isDirectory (fs : FileSystem m) (path : String) : m Bool := do
  return (← fs.kind? path) = some .directory

/-- Whether an output path is that of a file: what stands there decides, and if nothing does, a path
with an extension is that of a file. -/
def isFileOutput (fs : FileSystem m) (path : String) : m Bool := do
  match ← fs.kind? path with
  | some kind => return kind = .file
  | none => return (Path.extension? path).isSome

/-- Make a directory that may be there already. -/
def makeOrKeep (fs : FileSystem m) (path : String) : m (Except FileError Unit) := do
  match ← fs.makeDirectory path with
  | .ok () => return .ok ()
  | .error e => if ← fs.isDirectory path then return .ok () else return .error e

/-- Make the first of these directories, and where needed the ones after it, each of which is the
directory around the one before. -/
def makeDirectories (fs : FileSystem m) : List String → m (Except FileError Unit)
  | [] => return .error (.other "failed to create whole tree")
  | path :: above =>
    if path.isEmpty then return .ok ()
    else do
      match ← fs.makeDirectory path with
      | .ok () => return .ok ()
      | .error .notFound =>
        match ← makeDirectories fs above with
        | .ok () => fs.makeOrKeep path
        | .error e => return .error e
      | .error e => if ← fs.isDirectory path then return .ok () else return .error e

/-- Write a file, and make the directories around it where needed. -/
def writeFile (fs : FileSystem m) (path contents : String) : m (Except FileError Unit) := do
  let made ← match Path.parent? path with
    | some parent => fs.makeDirectories (Path.ancestors parent)
    | none => pure (.ok ())
  match made with
  | .ok () => fs.writeText path contents
  | .error e => return .error e

end FileSystem

end MessageCatalog
