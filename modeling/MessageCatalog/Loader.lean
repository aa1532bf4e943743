import MessageCatalog.FileFormat.Json
import MessageCatalog.FileFormat.Xliff1
import MessageCatalog.FileFormat.Xliff2
import MessageCatalog.FileFormat.Xtb

/-!
# Loading translation files

A file is read by the first reader that accepts it. Loading gives a bundle, or it adds one error to
the diagnostics: the error of the reader, or the reasons of all readers when none accepts the file.
-/

namespace MessageCatalog

/-- A format that can be read. -/
inductive Reader where
  | xliff2
  | xliff1
  | xtb
  | json
  deriving DecidableEq, Repr

namespace Reader

/-- The name in diagnostics. -/
def name : Reader → String
  | xliff2 => "xliff2"
  | xliff1 => "xliff1"
  | xtb => "xtb"
  | json => "json"

def ofName? : String → Option Reader
  | "xliff2" => some xliff2
  | "xliff1" => some xliff1
  | "xtb" => some xtb
  | "json" => some json
  | _ => none

/-- Find out whether a file is in the format of a reader. -/
def analyze : Reader → FileText → Analysis
  | xliff2 => FileFormat.Xliff2.analyze
  | xliff1 => FileFormat.Xliff1.analyze
  | xtb => FileFormat.Xtb.analyze
  | json => FileFormat.Json.analyze

/-- Read a file, of which an analysis may have read the document already. -/
def read : Reader → FileText → Option Document → Except ReadError Bundle
  | xliff2 => FileFormat.Xliff2.read
  | xliff1 => FileFormat.Xliff1.read
  | xtb => FileFormat.Xtb.read
  | json => FileFormat.Json.read

/-- All readers, in the order in which they are tried. -/
def all : List Reader := [xliff2, xliff1, xtb, json]

end Reader

namespace Loader

/-- Read a file that a reader has accepted. Diagnostics of the bundle are moved to `ds`. -/
def readAccepted (reader : Reader) (file : FileText) (document : Option Document)
    (ds : Diagnostics) : Option Bundle × Diagnostics :=
  match reader.read file document with
  | .ok bundle => (some { bundle with diagnostics := [] }, ds ++ bundle.diagnostics)
  | .error e => (none, ds.error e.render)

/-- Load a file with the first of `readers` that accepts it; `rejections` are the reasons of the
readers before them. -/
def loadWith (file : FileText) (ds rejections : Diagnostics) :
    List Reader → Option Bundle × Diagnostics
  | [] =>
    (none, ds.error
      (rejections.report ("Unable to parse translation file \"" ++ file.path ++ "\"")))
  | reader :: rest =>
    let analysis := reader.analyze file
    if analysis.accepted then
      readAccepted reader file analysis.document (ds ++ analysis.diagnostics)
    else
      let reasons := analysis.diagnostics.map fun d =>
        (⟨.warning, reader.name ++ ": " ++ d.message⟩ : Diagnostic)
      loadWith file ds (rejections ++ reasons) rest

/-- Load a file. -/
def load (file : FileText) (ds : Diagnostics) : Option Bundle × Diagnostics :=
  loadWith file ds [] Reader.all

end Loader

/-- Translations by their ids as messages. -/
def Message.ofTranslations (translations : OrderedMap String Translation) : List Message :=
  translations.entries.map fun (id, t) => t.toMessage id

/-- The translations of a bundle as messages. -/
def Bundle.messages (b : Bundle) : List Message := Message.ofTranslations b.translations

/-- The locale of files that name none. -/
def defaultLocale : String := "en"

end MessageCatalog
