import MessageCatalog.Diagnostic
import MessageCatalog.FileFormat.Basic
import MessageCatalog.FileSystem.Basic
import MessageCatalog.Glob.Search
import MessageCatalog.Log

/-!
# Plans

A command first reads everything and makes a plan of what it says, reports and writes. A plan that
ends in a failure still has the steps before it. Only carrying a plan out changes any file, and the
first file that cannot be written ends it.
-/

namespace MessageCatalog.Command

/-- Why a command fails as a whole. -/
inductive CommandError where
  | multipleLocales (locales : List String) (output : String)
  | noMessages
  | noFiles
  | unsupportedTarget (format : FileFormat)
  | pattern (pattern : String) (cause : Glob.PatternError)
  | write (path : String) (cause : FileError)
  deriving DecidableEq, Repr

namespace CommandError

def message : CommandError → String
  | multipleLocales locales output =>
    "Multiple locales detected (\"" ++ Text.join "," locales ++ "\") but output \"" ++ output ++
      "\" is not a directory"
  | noMessages =>
    "No messages found. You should build the angular app without a language target for this " ++
      "command to work."
  | noFiles => "Couldn't find any file to convert."
  | unsupportedTarget format =>
    "Format \"" ++ format.name ++
      "\" cannot hold translations and is not a valid conversion target."
  | pattern p cause => "Invalid source pattern \"" ++ p ++ "\": " ++ cause.message
  | write path cause => "Unable to write file \"" ++ path ++ "\": " ++ cause.message

/-- The message of what lies behind the error, if anything does. -/
def cause? : CommandError → Option String
  | pattern _ cause => some cause.message
  | write _ cause => some cause.message
  | _ => none

end CommandError

/-- A step of a plan. -/
inductive Action where
  /-- Write a progress line. -/
  | say (level : LogLevel) (text : String)
  /-- Add to the diagnostics. -/
  | report (diagnostics : Diagnostics)
  /-- Write a file of the output. -/
  | generate (path contents : String)
  deriving DecidableEq, Repr

/-- The steps of a command, and why it fails after them, if it does. -/
structure Plan where
  actions : List Action := []
  failure : Option CommandError := none
  deriving DecidableEq, Repr

/-- The path that a step writes. -/
def Action.target? : Action → Option String
  | generate path _ => some path
  | _ => none

/-- The paths that a plan writes, in order. -/
def Plan.targets (p : Plan) : List String := p.actions.filterMap Action.target?

/-- What has come of a plan so far. -/
structure Progress where
  /-- The paths of the files that were written. -/
  generated : List String := []
  diagnostics : Diagnostics := []
  log : Log := []
  deriving DecidableEq, Repr

namespace Progress

def say (p : Progress) (logger : Logger) (level : LogLevel) (text : String) : Progress :=
  { p with log := p.log ++ logger.write level text }

def report (p : Progress) (ds : Diagnostics) : Progress :=
  { p with diagnostics := p.diagnostics ++ ds }

/-- Note that a file was written. -/
def generate (p : Progress) (logger : Logger) (path : String) : Progress :=
  { p.say logger .info ("  Generated file \"" ++ path ++ "\"") with
    generated := p.generated ++ [path] }

end Progress

/-- What has come of a command. -/
structure Outcome where
  progress : Progress
  failure : Option CommandError
  deriving DecidableEq, Repr

/-- The paths of the files that were written, unless the command failed. -/
def Outcome.result (o : Outcome) : Except CommandError (List String) :=
  match o.failure with
  | some e => .error e
  | none => .ok o.progress.generated

variable {m : Type → Type} [Monad m]

/-- Carry out a step. -/
def Action.perform (fs : FileSystem m) (logger : Logger) (p : Progress) :
    Action → m (Except CommandError Progress)
  | say level text => return .ok (p.say logger level text)
  | report ds => return .ok (p.report ds)
  | generate path contents => do
    match ← fs.writeFile path contents with
    | .ok () => return .ok (p.generate logger path)
    | .error e => return .error (.write path e)

/-- Carry out steps up to the first that fails. -/
def perform (fs : FileSystem m) (logger : Logger) (p : Progress) :
    List Action → m (Progress × Option CommandError)
  | [] => return (p, none)
  | action :: rest => do
    match ← action.perform fs logger p with
    | .ok p => perform fs logger p rest
    | .error e => return (p, some e)

/-- Carry out a plan. -/
def Plan.execute (plan : Plan) (fs : FileSystem m) (logger : Logger) : m Outcome := do
  let (progress, failure) ← perform fs logger {} plan.actions
  return ⟨progress, failure <|> plan.failure⟩

/-! ## Reading what a pattern stands for -/

/-- A file that a pattern stands for, and what came of reading it. -/
structure SourceFile where
  path : String
  contents : Except FileError String

/-- Read files in order. -/
def readAll (fs : FileSystem m) : List String → m (List SourceFile)
  | [] => return []
  | path :: rest => do
    let contents ← fs.readText path
    return ⟨path, contents⟩ :: (← readAll fs rest)

end MessageCatalog.Command
