import MessageCatalog.FileFormat.Basic
import MessageCatalog.FileSystem.Basic
import MessageCatalog.Json.Reader

/-!
# Configuration

What a command works on can be given as options or in a configuration file, which is looked for in
the working directory and in the directories around it. Options that are given win.
-/

namespace MessageCatalog

/-- The locales of a configuration, in one of the two ways to write them. -/
inductive Locales where
  | one (locale : String)
  | many (locales : List String)
  deriving DecidableEq, Repr

def Locales.toList : Locales → List String
  | one locale => [locale]
  | many locales => locales

/-- The contents of a configuration file. -/
structure Config where
  source : Option String := none
  format : Option String := none
  outputPath : Option String := none
  locale : Option Locales := none
  deriving DecidableEq, Repr

/-- Why a configuration file cannot be used. -/
inductive ConfigError where
  | unreadable (path : String) (cause : FileError)
  | malformed (path cause : String)
  deriving DecidableEq, Repr

namespace ConfigError

def message : ConfigError → String
  | unreadable path _ => "Unable to read config file \"" ++ path ++ "\""
  | malformed path _ => "Invalid config file \"" ++ path ++ "\""

/-- The message of what lies behind the error. -/
def cause : ConfigError → String
  | unreadable _ e => e.message
  | malformed _ cause => cause

end ConfigError

namespace Config

/-! ## Fields -/

/-- A field of a configuration. -/
inductive Field where
  | source
  | format
  | outputPath
  | locale
  deriving DecidableEq, Repr

namespace Field

def name : Field → String
  | source => "source"
  | format => "format"
  | outputPath => "outputPath"
  | locale => "locale"

/-- The field of a key, which may be one letter. -/
def ofKey? : String → Option Field
  | "source" | "s" => some source
  | "format" | "f" => some format
  | "outputPath" | "o" => some outputPath
  | "locale" | "l" => some locale
  | _ => none

/-- The fields in the order of a configuration that is a list. -/
def all : List Field := [source, format, outputPath, locale]

end Field

/-! ## Reading -/

open Json (Scan Value)

/-- What a configuration is called in messages. -/
def typeName : String := "struct LoclConfig"

/-- What a configuration that is a list is called in messages. -/
def listName : String :=
  typeName ++ " with " ++ toString Field.all.length ++ " elements"

/-- What locales are called in messages. -/
def localesTypeName : String := "OneOrMany"

/-- Stop at a value of another type than the wanted one. Of lists and objects only the first
character is looked at. -/
def wrongType {α : Type} (wanted : String) : Scan α :=
  Scan.placed do
    let found ← Scan.valueWith .wanted (return .array []) (return .object [])
    Scan.faultUnplaced (.invalidType found.description wanted)

/-- Read `null` as no value. -/
def optional {α : Type} (body : Scan α) : Scan (Option α) := do
  match ← Scan.next? with
  | some 'n' =>
    Scan.skip 1
    Scan.ident "ull".toList
    return none
  | _ => some <$> body

def string : Scan String := do
  match ← Scan.nextOr .endInValue with
  | '"' => Scan.string .wanted
  | _ => wrongType "a string"

/-- The locales that a value stands for. -/
def localesOf? : Value → Option Locales
  | .string locale => some (.one locale)
  | .array items => (items.mapM Value.string?).map .many
  | _ => none

/-- Read locales; the value is read whole before it is looked at. -/
def locales : Scan Locales := do
  match localesOf? (← Scan.value .wanted (Scan.maxDepth - 1)) with
  | some l => return l
  | none => Scan.faultUnplaced (.noVariant localesTypeName)

/-- Read the value of a field. -/
def fieldValue (c : Config) : Field → Scan Config
  | .source => return { c with source := ← optional string }
  | .format => return { c with format := ← optional string }
  | .outputPath => return { c with outputPath := ← optional string }
  | .locale => return { c with locale := ← optional locales }

/-- Read members up to the closing brace; each field may stand there once, and other keys are
skipped. `seen` are the fields before, of `c`. -/
def members (seen : List Field) (c : Config) : (fuel : Nat) → (first : Bool) → Scan Config
  | 0, _ => return c
  | fuel + 1, first => do
    match ← Scan.nextKey? .wanted first with
    | none => return c
    | some key =>
      match Field.ofKey? key with
      | some field =>
        if field ∈ seen then Scan.faultUnplaced (.duplicateField field.name)
        Scan.colon
        let c ← fieldValue c field
        members (field :: seen) c fuel false
      | none =>
        Scan.colon
        let _ ← Scan.value .skipped (← Scan.rest).length
        members seen c fuel false

/-- Read the values of `fields` as items of a list, of which `count` stand before. -/
def items (c : Config) (count : Nat) : List Field → Scan Config
  | [] => return c
  | field :: rest => do
    if ← Scan.hasItem .wanted (count = 0) then
      items (← fieldValue c field) (count + 1) rest
    else Scan.faultUnplaced (.invalidLength count listName)

/-- Close an object. -/
def closeObject : Scan Unit := do
  match ← Scan.nextOr .endInObject with
  | '}' => Scan.skip 1
  | ',' => Scan.faultNext .trailingComma
  | _ => Scan.faultNext .trailingCharacters

/-- Close a list. -/
def closeList : Scan Unit := do
  match ← Scan.nextOr .endInList with
  | ']' => Scan.skip 1
  | ',' =>
    Scan.skip 1
    if (← Scan.next?) = some ']' then Scan.faultNext .trailingComma
    Scan.faultNext .trailingCharacters
  | _ => Scan.faultNext .trailingCharacters

/-- Go past a bracket, read what it holds and close it. Closing is tried also after a fault, which
may only then get its place; the first fault counts. -/
def bracketed (body : Scan Config) (close : Scan Unit) : Scan Config :=
  Scan.placed do
    Scan.skip 1
    match ← Scan.outcome body with
    | .ok c =>
      close
      return c
    | .error fault =>
      let _ ← Scan.outcome close
      throw fault

/-- Read a configuration: an object, or a list of the values of all fields. -/
def document : Scan Config := do
  match ← Scan.nextOr .endInValue with
  | '{' => bracketed (do members [] {} ((← Scan.rest).length + 1) true) closeObject
  | '[' => bracketed (items {} 0 Field.all) closeList
  | _ => wrongType typeName

/-- Read the text of a configuration file. -/
def parse (contents : String) : Except Json.Fault Config :=
  Scan.runDocument document contents

/-! ## Files -/

variable {m : Type → Type} [Monad m]

/-- Load a configuration file. -/
def load (fs : FileSystem m) (path : String) : m (Except ConfigError Config) := do
  match ← fs.readText path with
  | .error e => return .error (.unreadable path e)
  | .ok contents =>
    match parse contents with
    | .ok c => return .ok c
    | .error fault => return .error (.malformed path (fault.message contents))

/-- The names of configuration files, the first of which counts. -/
def fileNames : List String := [".loclrc", ".locl.json"]

/-- The first of these paths that is a file. -/
def firstFile? (fs : FileSystem m) : List String → m (Option String)
  | [] => return none
  | path :: rest => do
    if ← fs.isFile path then return some path
    firstFile? fs rest

/-- The configuration file of the nearest directory, from `start` upwards, that has one. -/
def find? (fs : FileSystem m) (start : String) : m (Option String) :=
  firstFile? fs ((Path.ancestors start).flatMap fun directory =>
    fileNames.map (Path.join directory))

/-- Load the nearest configuration file; without one nothing is configured. -/
def discover (fs : FileSystem m) (start : String) : m (Except ConfigError Config) := do
  match ← find? fs start with
  | some path => load fs path
  | none => return .ok {}

end Config

end MessageCatalog
