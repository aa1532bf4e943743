/-!
# Options of the command line

Each option has long names and may have a letter. Some are known everywhere, some only to one
command.
-/

namespace MessageCatalog.CommandLine

/-- A command of the program. -/
inductive Subcommand where
  | extract
  | convert
  deriving DecidableEq, Repr

namespace Subcommand

def name : Subcommand → String
  | extract => "extract"
  | convert => "convert"

def ofName? : String → Option Subcommand
  | "extract" => some extract
  | "convert" => some convert
  | _ => none

end Subcommand

/-- An option of the command line. -/
inductive Flag where
  | source
  | format
  | outputPath
  | locale
  | config
  | verbose
  | help
  | version
  deriving DecidableEq, Repr

namespace Flag

def longNames : Flag → List String
  | source => ["source"]
  | format => ["format"]
  | outputPath => ["output-path", "outputPath"]
  | locale => ["locale"]
  | config => ["config"]
  | verbose => ["verbose"]
  | help => ["help"]
  | version => ["version"]

def letter? : Flag → Option Char
  | source => some 's'
  | format => some 'f'
  | outputPath => some 'o'
  | locale => some 'l'
  | config => none
  | verbose => some 'v'
  | help => some 'h'
  | version => some 'V'

def takesValue : Flag → Bool
  | source | format | outputPath | locale | config => true
  | verbose | help | version => false

/-- Whether an option may be given more than once at one place. -/
def isRepeatable : Flag → Bool
  | locale => true
  | _ => false

end Flag

/-- Where an option stands: before the command or behind it. -/
inductive Place where
  | before
  | behind (command : Subcommand)
  deriving DecidableEq, Repr

namespace Place

/-- The options that are known at a place. -/
def flags : Place → List Flag
  | before => [.config, .verbose, .help, .version]
  | behind .extract => [.source, .format, .outputPath, .locale, .config, .verbose, .help]
  | behind .convert => [.source, .format, .outputPath, .config, .verbose, .help]

def ofLongName? (p : Place) (name : String) : Option Flag :=
  p.flags.find? (name ∈ ·.longNames)

def ofLetter? (p : Place) (letter : Char) : Option Flag :=
  p.flags.find? (·.letter? = some letter)

end Place

end MessageCatalog.CommandLine
