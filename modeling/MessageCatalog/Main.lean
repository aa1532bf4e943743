import MessageCatalog.CommandLine.Run

/-!
# The program

The operations of the file system of the machine, and the program that runs on them.
-/

namespace MessageCatalog.Machine

/-- The error that the system has for a failed operation. -/
def errorOfCode (code : UInt32) (details : String) : FileError :=
  match code.toNat with
  | 2 => .notFound
  | 17 => .exists
  | 20 => .notDirectory
  | 21 => .isDirectory
  | number => .other (FileError.systemText details number)

def fileError : IO.Error → FileError
  | .noFileOrDirectory _ code details => errorOfCode code details
  | .alreadyExists _ code details => errorOfCode code details
  | .inappropriateType _ code details => errorOfCode code details
  | .permissionDenied _ code details => errorOfCode code details
  | .resourceExhausted _ code details => errorOfCode code details
  | .invalidArgument _ code details => errorOfCode code details
  | .otherError code details => errorOfCode code details
  | e => .other (toString e)

/-- The outcome of an operation. -/
def outcome {α : Type} (operation : IO α) : IO (Except FileError α) := do
  try
    return .ok (← operation)
  catch e =>
    return .error (fileError e)

def kind? (path : String) : IO (Option EntryKind) := do
  if path.isEmpty then return none
  try
    match (← ((← IO.currentDir) / path).metadata).type with
    | .file => return some .file
    | .dir => return some .directory
    | _ => return some .special
  catch _ => return none

def names (path : String) : IO (List String) := do
  try
    let entries ← ((← IO.currentDir) / path).readDir
    return entries.toList.map (·.fileName)
  catch _ => return []

def readText (path : String) : IO (Except FileError String) := do
  match ← outcome (IO.FS.readBinFile path) with
  | .error e => return .error e
  | .ok bytes =>
    match String.fromUTF8? bytes with
    | some contents => return .ok contents
    | none => return .error .invalidText

/-- The operations of the file system of the machine. -/
def fileSystem : FileSystem IO where
  kind? := kind?
  names := names
  readText := readText
  makeDirectory path := outcome (IO.FS.createDir path)
  writeText path contents := outcome (IO.FS.writeFile path contents)

end MessageCatalog.Machine

open MessageCatalog in
/-- Run the program in the working directory. -/
def main (words : List String) : IO UInt32 := do
  let start ← IO.currentDir
  let report ← CommandLine.run Machine.fileSystem start.toString words
  IO.print report.output
  IO.eprint report.errorOutput
  return .ofNat report.status
