import MessageCatalog.Config
import MessageCatalog.Loader

/-!
# Options of a command

What a command is asked for may be spread over options and a configuration file. Together they make
a request, in which everything that the command needs is there.
-/

namespace MessageCatalog.Command

/-- What a command is to read and to write. -/
structure Request where
  pattern : String
  format : FileFormat
  output : String
  deriving DecidableEq, Repr

/-- A request for extraction also says which locales to write. -/
structure ExtractRequest extends Request where
  locales : List String := [defaultLocale]
  deriving DecidableEq, Repr

/-- The locales to write; there is always one. -/
def ExtractRequest.effectiveLocales (r : ExtractRequest) : List String :=
  if r.locales.isEmpty then [defaultLocale] else r.locales

/-- The options of a command, each of which may be missing. -/
structure Options where
  source : Option String := none
  format : Option String := none
  outputPath : Option String := none
  locales : List String := []
  deriving DecidableEq, Repr

/-- Why options make no request. -/
inductive OptionError where
  | missing (name : String)
  | invalidFormat (name : String)
  deriving DecidableEq, Repr

def OptionError.message : OptionError → String
  | missing name => "Missing required argument: " ++ name
  | invalidFormat name => FileFormat.unsupportedMessage name

namespace Options

/-- The name of the format that is written when none is asked for. -/
def defaultFormat : String := "json"

/-- Take what is missing from a configuration. -/
def withDefaults (o : Options) (c : Config) : Options where
  source := o.source <|> c.source
  format := o.format <|> c.format
  outputPath := o.outputPath <|> c.outputPath
  locales := if o.locales.isEmpty then (c.locale.map Locales.toList).getD [] else o.locales

def request (o : Options) : Except OptionError Request :=
  match o.source with
  | none => .error (.missing Config.Field.source.name)
  | some pattern =>
    match o.outputPath with
    | none => .error (.missing Config.Field.outputPath.name)
    | some output =>
      let name := o.format.getD defaultFormat
      match FileFormat.ofName? name with
      | none => .error (.invalidFormat name)
      | some format => .ok ⟨pattern, format, output⟩

def extractRequest (o : Options) : Except OptionError ExtractRequest := do
  return { ← o.request with locales := o.locales }

end Options

end MessageCatalog.Command
