/-!
# File formats

The formats that messages can be written in.
-/

namespace MessageCatalog

/-- A format of translation files. -/
inductive FileFormat where
  | json
  | xliff1
  | xliff2
  | xmb
  | xtb
  deriving DecidableEq, Repr

namespace FileFormat

def name : FileFormat → String
  | json => "json"
  | xliff1 => "xliff1"
  | xliff2 => "xliff2"
  | xmb => "xmb"
  | xtb => "xtb"

/-- The extension of files in a format; the two versions of XLIFF share one. -/
def extension : FileFormat → String
  | json => "json"
  | xliff1 | xliff2 => "xlf"
  | xmb => "xmb"
  | xtb => "xtb"

/-- Whether a format has a place for the texts of a target locale. -/
def holdsTarget : FileFormat → Bool
  | xmb => false
  | _ => true

/-- The format that a name stands for. -/
def ofName? : String → Option FileFormat
  | "json" => some json
  | "xlf" | "xlif" | "xliff" | "xlf1" | "xliff1" => some xliff1
  | "xlf2" | "xlif2" | "xliff2" => some xliff2
  | "xmb" => some xmb
  | "xtb" => some xtb
  | _ => none

/-- What is said about a name that stands for no format. -/
def unsupportedMessage (name : String) : String :=
  "Unsupported translation file format \"" ++ name ++
    "\". Expected one of: json, xlf, xliff1, xlf2, xliff2, xmb, xtb"

end FileFormat

end MessageCatalog
