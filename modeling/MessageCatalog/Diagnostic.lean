import MessageCatalog.Text

/-!
# Diagnostics

What a run has to say beside its result: notes, warnings and errors, collected in order. Collectors
of separate pieces of work are joined with `++` in a fixed order, so a report does not depend on
the order in which the pieces were done.
-/

namespace MessageCatalog

/-- How much a diagnostic matters; only errors fail a run. -/
inductive Severity where
  | info
  | warning
  | error
  deriving DecidableEq, Repr

/-- A severity and what there is to say. -/
structure Diagnostic where
  severity : Severity
  message : String
  deriving DecidableEq, Repr

/-- The line shown to a user: warnings and errors say what they are. -/
def Diagnostic.line (d : Diagnostic) : String :=
  match d.severity with
  | .info => d.message
  | .warning => "Warning: " ++ d.message
  | .error => "Error: " ++ d.message

/-- The diagnostics of one piece of work, oldest first. -/
abbrev Diagnostics := List Diagnostic

namespace Diagnostics

/-- Add a diagnostic at the end. -/
def add (ds : Diagnostics) (severity : Severity) (message : String) : Diagnostics :=
  ds ++ [⟨severity, message⟩]

def info (ds : Diagnostics) (message : String) : Diagnostics := ds.add .info message

def warn (ds : Diagnostics) (message : String) : Diagnostics := ds.add .warning message

def error (ds : Diagnostics) (message : String) : Diagnostics := ds.add .error message

def hasErrors (ds : Diagnostics) : Bool :=
  ds.any (·.severity = .error)

/-- The exit status of a run with these diagnostics: 1 with an error, else 0. -/
def exitStatus (ds : Diagnostics) : Nat :=
  if ds.hasErrors then 1 else 0

/-- The messages of one severity as list items. -/
def items (ds : Diagnostics) (severity : Severity) : List String :=
  (ds.filter (·.severity = severity)).map (" - " ++ ·.message)

/-- A titled list, or nothing when there are no items. -/
def listing (title : String) (items : List String) : String :=
  if items.isEmpty then "" else "\n" ++ title ++ ":\n" ++ Text.join "\n" items

/-- `headline` followed by the errors and the warnings, each list under its title. -/
def report (ds : Diagnostics) (headline : String) : String :=
  headline ++ listing "ERRORS" (ds.items .error) ++ listing "WARNINGS" (ds.items .warning)

end Diagnostics

end MessageCatalog
