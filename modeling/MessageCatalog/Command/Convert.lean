import MessageCatalog.BundleName
import MessageCatalog.Command.Options
import MessageCatalog.Command.Plan
import MessageCatalog.FileFormat.Render

/-!
# The command that converts translation files

The translations of all files that load go to one output file, or those of each file to a file of
its own in an output directory. One output file holds each id once, with the translation of the
first file that has it. A file that does not load only adds to the diagnostics.
-/

namespace MessageCatalog.Command.Convert

/-- What came of loading a file. -/
structure Loaded where
  path : String
  bundle : Option Bundle
  diagnostics : Diagnostics

/-- Load a file that was read. -/
def load (source : SourceFile) : Loaded :=
  match source.contents with
  | .ok contents =>
    let (bundle, ds) := Loader.load ⟨source.path, contents⟩ []
    ⟨source.path, bundle, ds⟩
  | .error e =>
    ⟨source.path, none, Diagnostics.error []
      ("Unable to read translation file \"" ++ source.path ++ "\": " ++ e.message)⟩

/-- The files that loaded, with their bundles. -/
def bundles (files : List Loaded) : List (String × Bundle) :=
  files.filterMap fun l => l.bundle.map fun b => (l.path, b)

/-! ## One output file -/

/-- Add translations of ids that are not there yet. -/
def addNew (all : OrderedMap String Translation) (b : Bundle) : OrderedMap String Translation :=
  b.translations.entries.foldl (fun all (id, t) => all.insertNew id t) all

/-- The translations of all bundles; of several with one id the first is kept. -/
def union (bs : List Bundle) : OrderedMap String Translation := bs.foldl addNew ∅

def localeOf (b : Bundle) : String := b.locale.getD defaultLocale

/-- Write all bundles to one file in the locale of the first. -/
def fileActions (r : Request) (bs : List Bundle) : List Action :=
  let locale := (bs.head?.map localeOf).getD defaultLocale
  [.generate r.output (r.format.render (Message.ofTranslations (union bs)) locale true)]

/-! ## An output directory -/

/-- The path of the output for a file. -/
def target (r : Request) (path : String) : String :=
  Path.join r.output ((Path.fileStem? path).getD "" ++ "." ++ r.format.extension)

/-- Write each bundle to a file of its own, apart from output that is taken. -/
def directoryActions (r : Request) :
    (taken : List String) → List (String × Bundle) → List Action
  | _, [] => []
  | taken, (path, b) :: rest =>
    let output := target r path
    if taken.any (Path.same output) then
      .report (Diagnostics.error [] (BundleName.collisionMessage path output)) ::
        directoryActions r taken rest
    else
      .generate output (r.format.render b.messages (localeOf b) true) ::
        directoryActions r (taken ++ [output]) rest

/-! ## The command -/

/-- What is said first. -/
def openingLine (r : Request) : String :=
  "Converting files from source \"" ++ r.pattern ++ "\" to format \"" ++ r.format.name ++
    "\" and output \"" ++ r.output ++ "\""

/-- What is done with the files that loaded. -/
def outputActions (r : Request) (isFile : Bool) (bs : List (String × Bundle)) : List Action :=
  if isFile then fileActions r (bs.map Prod.snd) else directoryActions r [] bs

/-- What is done with the files, which are `sources`. -/
def plan (r : Request) (isFile : Bool) (sources : List SourceFile) : Plan :=
  let files := sources.map load
  let opening := .say .info (openingLine r) :: files.map fun l => Action.report l.diagnostics
  let bs := bundles files
  if bs.isEmpty then ⟨opening, some .noFiles⟩
  else
    let count := "Loaded " ++ toString bs.length ++ " translation file(s)"
    ⟨opening ++ .say .debug count :: outputActions r isFile bs, none⟩

variable {m : Type → Type} [Monad m]

/-- Look at the file system and make the plan. -/
def prepare (fs : FileSystem m) (r : Request) : m Plan := do
  if !r.format.holdsTarget then return ⟨[], some (.unsupportedTarget r.format)⟩
  match ← Glob.files fs r.pattern with
  | .error e => return ⟨[.say .info (openingLine r)], some (.pattern r.pattern e)⟩
  | .ok paths =>
    let sources ← readAll fs paths
    return plan r (← fs.isFileOutput r.output) sources

/-- Convert files. -/
def run (fs : FileSystem m) (logger : Logger) (r : Request) : m Outcome := do
  (← prepare fs r).execute fs logger

end MessageCatalog.Command.Convert
