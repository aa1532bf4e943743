import MessageCatalog.Command.Convert
import MessageCatalog.Command.Extract
import MessageCatalog.CommandLine.Help

/-!
# Running the program

A command line is read and its command is run. A command that fails adds its error to the
diagnostics; they are written behind the progress lines and decide the exit status.
-/

namespace MessageCatalog.CommandLine

/-- What a run of the program comes to. -/
structure Report where
  status : Nat
  output : String := ""
  errorOutput : String := ""
  deriving DecidableEq, Repr

/-- The exit status for a command line that cannot be read. -/
def usageStatus : Nat := 2

/-- What comes of a command line that is not read to its end. -/
def Stop.report : Stop → Report
  | help place => ⟨0, helpText place, ""⟩
  | version => ⟨0, versionText, ""⟩
  | stop => ⟨usageStatus, "", "error: " ++ stop.complaint ++ "\n"⟩

/-- An error and what lies behind it. -/
def chain (message : String) (cause : Option String) : String :=
  match cause with
  | some cause => message ++ ": " ++ cause
  | none => message

/-- What has come of a command, with the text of the error that ended it. -/
structure Ending where
  progress : Command.Progress := {}
  failure : Option String := none

def Ending.ofOutcome (o : Command.Outcome) : Ending :=
  ⟨o.progress, o.failure.map fun e => chain e.message e.cause?⟩

/-- The ending of a command that was not begun. -/
def Ending.ofError (message : String) (cause : Option String) : Ending :=
  ⟨{}, some (chain message cause)⟩

/-- All diagnostics of an ending. -/
def Ending.diagnostics (e : Ending) : Diagnostics :=
  match e.failure with
  | some text => e.progress.diagnostics.error text
  | none => e.progress.diagnostics

/-- All lines that are written, the diagnostics behind the progress lines. -/
def Ending.lines (e : Ending) (logger : Logger) : Log :=
  e.progress.log ++ e.diagnostics.flatMap logger.writeDiagnostic

def Ending.report (e : Ending) (logger : Logger) : Report where
  status := e.diagnostics.exitStatus
  output := String.join ((e.lines logger).map LogLine.standardOutput)
  errorOutput := String.join ((e.lines logger).map LogLine.standardError)

variable {m : Type → Type} [Monad m]

/-- The configuration for an invocation in the directory `start`. -/
def configuration (fs : FileSystem m) (start : String) (i : Invocation) :
    m (Except ConfigError Config) :=
  match i.config with
  | some path => Config.load fs path
  | none => Config.discover fs start

/-- Run a command with its options. -/
def runCommand (fs : FileSystem m) (logger : Logger) (command : Subcommand)
    (options : Command.Options) : m Ending := do
  match command with
  | .extract =>
    match options.extractRequest with
    | .ok r => return .ofOutcome (← Command.Extract.run fs logger r)
    | .error e => return .ofError e.message none
  | .convert =>
    match options.request with
    | .ok r => return .ofOutcome (← Command.Convert.run fs logger r)
    | .error e => return .ofError e.message none

/-- Carry out an invocation. -/
def Invocation.run (fs : FileSystem m) (start : String) (logger : Logger) (i : Invocation) :
    m Ending := do
  match ← configuration fs start i with
  | .error e => return .ofError e.message (some e.cause)
  | .ok config => runCommand fs logger i.command (i.options.withDefaults config)

/-- Run the program in the directory `start`. -/
def run (fs : FileSystem m) (start : String) (words : List String) : m Report := do
  match Invocation.read words with
  | .error stop => return stop.report
  | .ok i =>
    let logger := Logger.writing (.ofVerbosity i.verbose)
    return (← i.run fs start logger).report logger

end MessageCatalog.CommandLine
