import MessageCatalog.FileFormat.Content
import MessageCatalog.Markup.Writer

/-!
# The XLIFF 2.0 format

A unit with a segment per message. The segments of a unit may stand anywhere below it and all are
stored under the id of the innermost unit around them.
-/

namespace MessageCatalog.FileFormat.Xliff2

open Markup (Element Writer)

def version : String := "2.0"

def xmlns : String := "urn:oasis:names:tc:xliff:document:2.0"

/-- What the elements inside a message mean. -/
def rules : ContentRules where
  inlineElements := ["cp", "sc", "ec", "mrk", "sm", "em"]
  placeholder := ⟨"ph", "equiv"⟩
  container := some ⟨"pc", "equivStart", "equivEnd"⟩

/-! ## Writing -/

/-- Write a placeholder; they are numbered from one in each text and show their source text. -/
def writePlaceholder (substitutions : List String) (w : Writer) (index : Nat) (name : String) :
    Writer :=
  w.startTag "ph"
    [("id", some (toString (index + 1))), ("equiv", some name), ("disp", substitutions[index]?)]
    { selfClosing := true }

/-- Write the content of a message as an element. -/
def writeText (w : Writer) (element : String) (m : Message) : Writer :=
  let opened := w.startTag element [] { preserve := some true }
  (m.writeContent (writePlaceholder m.substitutions) opened).endTag element
    { preserve := some false }

def writeUnit (isTarget : Bool) (w : Writer) (m : Message) : Writer :=
  let w := w.startTag "unit" [("id", some m.id)]
  let w := w.startTag "segment"
  let w := if isTarget then w else writeText w "source" m
  let w := writeText w "target" m
  (w.endTag "segment").endTag "unit"

def writeFile (messages : List Message) (locale : String) (isTarget : Bool) : Writer :=
  let w : Writer := {}
  let w := w.startTag "xliff"
    [("version", some version), ("xmlns", some xmlns), ("srcLang", some locale),
      ("trgLang", some locale)]
  let w := w.startTag "file"
  let w := messages.foldl (writeUnit isTarget) w
  (w.endTag "file").endTag "xliff"

def render (messages : List Message) (locale : String) (isTarget : Bool) : String :=
  (writeFile messages locale isTarget).output

/-! ## Reading -/

/-- Find out whether a file is in this format. -/
def analyze (file : FileText) : Analysis :=
  file.analyzeMarkup "xliff" [("version", version)]

/-- What has been read of a file. -/
structure Contents where
  translations : OrderedMap String Translation := ∅
  sources : OrderedMap String Translation := ∅
  deriving DecidableEq, Repr

/-- Read a segment of the unit with this id. -/
def readSegment (file : FileText) (c : Contents) (unitId : Option String) (s : Element) :
    Except ReadError Contents := do
  match unitId, (s.childrenNamed "target").head? with
  | none, _ => .error (.atElement file s.tag .segmentOutsideUnit)
  | some _, none => .error (.atElement file s.tag .missingTarget)
  | some id, some target =>
    let sources ←
      match (s.childrenNamed "source").head? with
      | some source => do pure (c.sources.insert id (← Content.read rules file source))
      | none => pure c.sources
    let translation ← Content.read rules file target
    return { translations := c.translations.insert id translation, sources }

/-- The id of a unit, which no earlier translation may have. -/
def unitId (file : FileText) (c : Contents) (tag : Markup.Tag) : Except ReadError String := do
  let id ← file.requiredAttribute tag "id"
  if c.translations.contains id then .error (.atElement file tag (.duplicateMessage id))
  else return id

mutual

/-- Read the segments of a node inside the unit with the id `inside`. -/
def readNode (file : FileText) (inside : Option String) (c : Contents) :
    Markup.Node → Except ReadError Contents
  | .element tag children =>
    if tag.name = "unit" then do
      let id ← unitId file c tag
      readNodes file (some id) c children
    else if tag.name = "segment" then readSegment file c inside ⟨tag, children⟩
    else readNodes file inside c children
  | _ => .ok c

/-- Read the segments of nodes in order. -/
def readNodes (file : FileText) (inside : Option String) (c : Contents) :
    List Markup.Node → Except ReadError Contents
  | [] => .ok c
  | node :: rest => do
    let c ← readNode file inside c node
    readNodes file inside c rest

end

/-- Read a file. -/
def read (file : FileText) (document : Option Document) : Except ReadError Bundle := do
  let root ← file.markupOf "XLIFF 2.0" analyze document
  let c ← readNodes file none {} root.children
  return {
    locale := root.attribute? "trgLang"
    translations := c.translations
    sources := if c.sources.isEmpty then none else some c.sources }

end MessageCatalog.FileFormat.Xliff2
