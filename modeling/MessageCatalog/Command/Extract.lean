import MessageCatalog.BundleName
import MessageCatalog.Command.Options
import MessageCatalog.Command.Plan
import MessageCatalog.Extraction
import MessageCatalog.FileFormat.Render

/-!
# The command that extracts messages

The messages of all source files go to one output file, or those of each source file to files of
its own, one for each locale, in an output directory. In a directory no file is written twice: what
comes first is kept.
-/

namespace MessageCatalog.Command.Extract

/-- What was found in a source file. -/
structure Findings where
  path : String
  messages : List Message
  diagnostics : Diagnostics
  deriving DecidableEq, Repr

/-- The findings in a source file, looked at on its own. -/
def findings (source : SourceFile) : Findings :=
  match source.contents with
  | .ok contents =>
    let (e, ds) := Extraction.extract {} ⟨source.path, contents⟩ []
    ⟨source.path, e.messages, ds⟩
  | .error e =>
    ⟨source.path, [], Diagnostics.error []
      ("Unable to read source file \"" ++ source.path ++ "\": " ++ e.message)⟩

/-- Say that a source file is looked at, and report what is wrong with it. -/
def openingActions (f : Findings) : List Action :=
  [.say .info ("Extracting translations from \"" ++ f.path ++ "\""), .report f.diagnostics]

/-! ## One output file -/

/-- All messages found; of several with one id the first is kept. -/
def allMessages (found : List Findings) : List Message :=
  (found.foldl (fun e f => Extraction.addAll e f.messages) ({} : Extraction)).messages

/-- Write all messages to one file. -/
def filePlan (r : ExtractRequest) (found : List Findings) : Plan :=
  let opening := found.flatMap openingActions
  let messages := allMessages found
  if messages.isEmpty then ⟨opening, some .noMessages⟩
  else
    let locale := r.effectiveLocales.headD defaultLocale
    ⟨opening ++ [.generate r.output (r.format.render messages locale false)], none⟩

/-! ## An output directory -/

/-- The path of the output for the messages of a source file in a locale. -/
def target (r : ExtractRequest) (path locale : String) : String :=
  Path.join r.output (BundleName.localized path locale r.format.extension)

/-- Whether a path is one of those taken already. -/
def isTaken (taken : List String) (path : String) : Bool :=
  taken.any (Path.same path)

/-- Write the findings in a source file for each of `locales`, apart from output that is taken;
also gives what is taken then. -/
def localeActions (r : ExtractRequest) (f : Findings) :
    (taken : List String) → List String → List Action × List String
  | taken, [] => ([], taken)
  | taken, locale :: rest =>
    let path := target r f.path locale
    if isTaken taken path then
      let (actions, taken) := localeActions r f taken rest
      (.report (Diagnostics.error [] (BundleName.collisionMessage f.path path)) :: actions, taken)
    else
      let (actions, taken) := localeActions r f (taken ++ [path]) rest
      (.generate path (r.format.render f.messages locale false) :: actions, taken)

/-- Write the findings in each source file that has messages. -/
def directoryActions (r : ExtractRequest) :
    (taken : List String) → List Findings → List Action
  | _, [] => []
  | taken, f :: rest =>
    if f.messages.isEmpty then openingActions f ++ directoryActions r taken rest
    else
      let (actions, taken) := localeActions r f taken r.effectiveLocales
      openingActions f ++ actions ++ directoryActions r taken rest

/-- Write the findings in all source files to a directory. -/
def directoryPlan (r : ExtractRequest) (found : List Findings) : Plan :=
  let actions := directoryActions r [] found
  if (actions.filterMap Action.target?).isEmpty then ⟨actions, some .noMessages⟩
  else ⟨actions, none⟩

/-! ## The command -/

/-- What is done with the findings. -/
def outputPlan (r : ExtractRequest) (isFile : Bool) (found : List Findings) : Plan :=
  if isFile then filePlan r found else directoryPlan r found

/-- What is done with the source files, which are `sources`. -/
def plan (r : ExtractRequest) (isFile : Bool) (sources : List SourceFile) : Plan :=
  let p := outputPlan r isFile (sources.map findings)
  let count := "Found " ++ toString sources.length ++ " source file(s) matching \"" ++ r.pattern ++
    "\""
  { p with actions := .say .debug count :: p.actions }

variable {m : Type → Type} [Monad m]

/-- Look at the file system and make the plan. -/
def prepare (fs : FileSystem m) (r : ExtractRequest) : m Plan := do
  let isFile ← fs.isFileOutput r.output
  if isFile && r.effectiveLocales.length > 1 then
    return ⟨[], some (.multipleLocales r.effectiveLocales r.output)⟩
  match ← Glob.files fs r.pattern with
  | .error e => return ⟨[], some (.pattern r.pattern e)⟩
  | .ok paths => return plan r isFile (← readAll fs (BundleName.dedup paths))

/-- Extract messages and write them. -/
def run (fs : FileSystem m) (logger : Logger) (r : ExtractRequest) : m Outcome := do
  (← prepare fs r).execute fs logger

end MessageCatalog.Command.Extract
