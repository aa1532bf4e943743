import MessageCatalog.FileFormat.Content
import MessageCatalog.Markup.Writer

/-!
# The XLIFF 1.2 format

A unit per message, with a source text, a target text and notes. Units may stand anywhere below the
root element, but not inside another unit.
-/

namespace MessageCatalog.FileFormat.Xliff1

open Markup (Element Writer)

def version : String := "1.2"

def xmlns : String := "urn:oasis:names:tc:xliff:document:1.2"

/-- What the elements inside a message mean. -/
def rules : ContentRules where
  inlineElements := ["g", "bx", "ex", "bpt", "ept", "ph", "it", "mrk"]
  placeholder := ⟨"x", "id"⟩

/-! ## Writing -/

def writePlaceholder (w : Writer) (_index : Nat) (name : String) : Writer :=
  w.startTag "x" [("id", some name)] { selfClosing := true }

/-- Write the content of a message as an element. -/
def writeText (w : Writer) (element : String) (m : Message) : Writer :=
  let opened := w.startTag element [] { preserve := some true }
  (m.writeContent writePlaceholder opened).endTag element { preserve := some false }

/-- Write a note, unless it is empty. -/
def writeNote (w : Writer) (kind value : String) : Writer :=
  if value.isEmpty then w
  else
    ((w.startTag "note" [("priority", some "1"), ("from", some kind)]
      { preserve := some true }).text value).endTag "note" { preserve := some false }

def writeUnit (isTarget : Bool) (w : Writer) (m : Message) : Writer :=
  let w := w.startTag "trans-unit" [("id", some m.id), ("datatype", some "html")]
  let w := if isTarget then w else writeText w "source" m
  let w := writeText w "target" m
  let w := writeNote w "description" m.description
  let w := writeNote w "meaning" m.meaning
  w.endTag "trans-unit"

def writeFile (messages : List Message) (locale : String) (isTarget : Bool) : Writer :=
  let w : Writer := {}
  let w := w.startTag "xliff" [("version", some version), ("xmlns", some xmlns)]
  let w := w.startTag "file"
    [("source-language", if isTarget then none else some locale),
      ("target-language", some locale), ("datatype", some "plaintext")]
  let w := w.startTag "body"
  let w := messages.foldl (writeUnit isTarget) w
  ((w.endTag "body").endTag "file").endTag "xliff"

def render (messages : List Message) (locale : String) (isTarget : Bool) : String :=
  (writeFile messages locale isTarget).output

/-! ## Reading -/

/-- Find out whether a file is in this format. -/
def analyze (file : FileText) : Analysis :=
  file.analyzeMarkup "xliff" [("version", version)]

/-- What has been read of a unit. -/
structure UnitParts where
  source : Option Translation := none
  target : Option Translation := none
  description : Option String := none
  meaning : Option String := none
  deriving DecidableEq, Repr

/-- Take in a note; an empty one and one of another kind say nothing. -/
def UnitParts.addNote (u : UnitParts) (note : Element) : UnitParts :=
  if note.textContent.isEmpty then u
  else
    match note.attribute? "from" with
    | some "description" => { u with description := some note.textContent }
    | some "meaning" => { u with meaning := some note.textContent }
    | _ => u

/-- Take in a child of a unit. -/
def UnitParts.addChild (file : FileText) (u : UnitParts) (child : Element) :
    Except ReadError UnitParts :=
  match child.name with
  | "target" => do return { u with target := some (← Content.read rules file child) }
  | "source" => do return { u with source := some (← Content.read rules file child) }
  | "note" => .ok (u.addNote child)
  | _ => .ok u

/-- The translation of a unit: the target, or else the source, with the notes. -/
def UnitParts.translation? (u : UnitParts) : Option Translation :=
  (u.target.or u.source).map fun t =>
    { t with
      description := u.description.or t.description
      meaning := u.meaning.or t.meaning }

/-- What has been read of a file. -/
structure Contents where
  locale : Option String := none
  translations : OrderedMap String Translation := ∅
  sources : OrderedMap String Translation := ∅
  deriving DecidableEq, Repr

/-- Read a unit. -/
def readUnit (file : FileText) (c : Contents) (u : Element) : Except ReadError Contents := do
  let id ← file.requiredAttribute u.tag "id"
  if c.translations.contains id then .error (.atElement file u.tag (.duplicateMessage id))
  let parts ← u.childElements.foldlM (UnitParts.addChild file) {}
  match parts.translation? with
  | none => .error (.atElement file u.tag .missingTarget)
  | some translation =>
    return { c with
      translations := c.translations.insert id translation
      sources :=
        match parts.source with
        | some source => c.sources.insert id source
        | none => c.sources }

/-- Take in what a tag outside the units says: the first target language of a file. -/
def Contents.enter (c : Contents) (tag : Markup.Tag) : Contents :=
  if tag.name = "file" then { c with locale := c.locale.or (tag.attribute? "target-language") }
  else c

mutual

/-- Read the units of a node. -/
def readNode (file : FileText) (c : Contents) : Markup.Node → Except ReadError Contents
  | .element tag children =>
    if tag.name = "trans-unit" then readUnit file c ⟨tag, children⟩
    else readNodes file (c.enter tag) children
  | _ => .ok c

/-- Read the units of nodes in order. -/
def readNodes (file : FileText) (c : Contents) : List Markup.Node → Except ReadError Contents
  | [] => .ok c
  | node :: rest => do
    let c ← readNode file c node
    readNodes file c rest

end

/-- Read a file. -/
def read (file : FileText) (document : Option Document) : Except ReadError Bundle := do
  let root ← file.markupOf "XLIFF 1.2" analyze document
  let c ← readNodes file {} root.children
  return {
    locale := c.locale
    translations := c.translations
    sources := if c.sources.isEmpty then none else some c.sources }

end MessageCatalog.FileFormat.Xliff1
