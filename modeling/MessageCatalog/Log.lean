import MessageCatalog.Diagnostic

/-!
# Progress lines

A command says what it does in lines of four levels. A logger writes the lines from its own level
on; where they go is the business of whoever runs the command.
-/

namespace MessageCatalog

/-- The weight of a progress line. -/
inductive LogLevel where
  | debug
  | info
  | warn
  | error
  deriving DecidableEq, Repr

namespace LogLevel

def rank : LogLevel → Nat
  | debug => 0
  | info => 1
  | warn => 2
  | error => 3

/-- The level of a run, which may be asked to say more. -/
def ofVerbosity (verbose : Bool) : LogLevel :=
  if verbose then debug else info

/-- The level at which a diagnostic is shown. -/
def ofSeverity : Severity → LogLevel
  | .info => info
  | .warning => warn
  | .error => error

end LogLevel

/-- A progress line. -/
structure LogLine where
  level : LogLevel
  text : String
  deriving DecidableEq, Repr

/-- Progress lines, oldest first. -/
abbrev Log := List LogLine

/-- What is done with progress lines. -/
inductive Logger where
  /-- Write the lines from a level on. -/
  | writing (level : LogLevel)
  /-- Write nothing. -/
  | silent
  deriving DecidableEq, Repr

namespace Logger

def level : Logger → LogLevel
  | writing level => level
  | silent => .error

/-- Whether lines of a level are written. -/
def isEnabled : Logger → LogLevel → Bool
  | writing threshold, level => threshold.rank ≤ level.rank
  | silent, _ => false

/-- The lines that are written of a line. -/
def write (logger : Logger) (level : LogLevel) (text : String) : Log :=
  if logger.isEnabled level then [⟨level, text⟩] else []

/-- The lines that are written of a diagnostic. -/
def writeDiagnostic (logger : Logger) (d : Diagnostic) : Log :=
  logger.write (.ofSeverity d.severity) d.line

end Logger

namespace LogLine

/-- What a line adds to standard output. -/
def standardOutput (l : LogLine) : String :=
  match l.level with
  | .info => l.text ++ "\n"
  | _ => ""

/-- What a line adds to standard error. -/
def standardError (l : LogLine) : String :=
  match l.level with
  | .debug => "[DEBUG] " ++ l.text ++ "\n"
  | .info => ""
  | .warn | .error => l.text ++ "\n"

end LogLine

end MessageCatalog
