import MessageCatalog.FileSystem.Basic
import MessageCatalog.Glob.Pattern

/-!
# Finding files by a pattern

The part of a pattern before each slash is matched against the names in one directory. The files are
found directory by directory, in the order of their names, depth first.
-/

namespace MessageCatalog.Glob

/-- A pattern for a path. -/
structure PathPattern where
  /-- The directory where the search begins. -/
  start : String
  /-- A pattern for each name of the path. -/
  parts : List Pattern
  /-- Whether only directories are wanted. -/
  wantsDirectory : Bool
  deriving DecidableEq, Repr

namespace PathPattern

/-- The parts of a text between slashes, without an empty one at the end. -/
def pieces (text : List Char) : List (List Char) :=
  let all := Text.pieces '/' text
  if all.getLast? = some [] then all.dropLast else all

/-- Read a pattern; first as a whole, so that positions are those in the whole pattern. -/
def read (text : String) : Except PatternError PathPattern := do
  let chars := text.toList
  let _ ← Pattern.read chars
  let behind := chars.dropWhile (· = '/')
  let isAbsolute := behind.length < chars.length
  let parts ← (pieces behind).mapM Pattern.read
  return {
    start := if isAbsolute then "/" else "."
    parts := if parts.isEmpty then [[]] else parts
    wantsDirectory := chars.getLast? = some '/' }

end PathPattern

variable {m : Type → Type} [Monad m]

/-- A path inside a directory; the directory where a search begins is not named. -/
def inside (directory name : String) : String :=
  if directory = "." then name else Path.join directory name

/-- The names in a directory in order. -/
def sortedNames (fs : FileSystem m) (directory : String) : m (List String) := do
  return (← fs.names directory).mergeSort fun a b => !(b < a)

/-- The names of the directory itself and of the one around it, if a pattern asks for them by a dot
at its front. -/
def dotNames (pattern : Pattern) : List String :=
  if pattern.head? = some (.char '.') then
    ["..", "."].filter fun name => pattern.accepts name.toList
  else []

/-- Patterns without the repetitions of a recursive one at the front. -/
def collapse : List Pattern → List Pattern
  | p :: q :: rest =>
    if p.isRecursive && q.isRecursive then collapse (q :: rest) else p :: q :: rest
  | patterns => patterns

/-- Run a search on each of some paths, and put the results together in order. -/
def gather {α : Type} (search : α → m (List String)) : List α → m (List String)
  | [] => return []
  | a :: rest => do
    let found ← search a
    return found ++ (← gather search rest)

mutual

/-- The paths in a directory that the patterns stand for; at most `fuel` steps deep. -/
def expand (fs : FileSystem m) : (fuel : Nat) → (directory : String) → List Pattern →
    m (List String)
  | 0, _, _ | _, _, [] => return []
  | fuel + 1, directory, pattern :: rest => do
    match pattern.literal? with
    | some name =>
      let path := inside directory name
      let isThere ←
        if name = "." || name = ".." then fs.isDirectory directory
        else pure (← fs.kind? path).isSome
      if isThere then proceed fs fuel path rest else return []
    | none =>
      if ← fs.isDirectory directory then
        let dots ← gather (fun name => proceed fs fuel (Path.join directory name) rest)
          (dotNames pattern)
        let found ← gather (fun name => visit fs fuel (inside directory name) name (pattern :: rest))
          (← sortedNames fs directory)
        return dots ++ found
      else return []

/-- Go on with the remaining patterns at a path that the patterns before them stand for. -/
def proceed (fs : FileSystem m) : (fuel : Nat) → (path : String) → List Pattern → m (List String)
  | 0, _, _ => return []
  | fuel + 1, path, rest => if rest.isEmpty then return [path] else expand fs fuel path rest

/-- Match the name of a path against the first pattern, and go on with the others. -/
def visit (fs : FileSystem m) : (fuel : Nat) → (path name : String) → List Pattern →
    m (List String)
  | 0, _, _, _ | _, _, _, [] => return []
  | fuel + 1, path, name, pattern :: rest => do
    if pattern.isRecursive then
      let patterns := collapse (pattern :: rest)
      let below ← if ← fs.isDirectory path then expand fs fuel path patterns else pure []
      match patterns.drop 1 with
      | [] => if ← fs.isDirectory path then return path :: below else return []
      | rest => return (← visit fs fuel path name rest) ++ below
    else if pattern.accepts name.toList then proceed fs fuel path rest
    else return []

end

/-- How many steps a search goes down: a path is shorter than this. -/
def maxDepth : Nat := 3 * 4096

/-- The files that a pattern stands for. -/
def files (fs : FileSystem m) (pattern : String) : m (Except PatternError (List String)) := do
  match PathPattern.read pattern with
  | .error e => return .error e
  | .ok p =>
    let found ← expand fs maxDepth p.start p.parts
    if p.wantsDirectory then return .ok []
    else return .ok (← found.filterM fs.isFile)

end MessageCatalog.Glob
