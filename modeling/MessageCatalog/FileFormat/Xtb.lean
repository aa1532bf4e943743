import MessageCatalog.FileFormat.Content
import MessageCatalog.Markup.Writer

/-!
# The XTB format

A bundle of translations, one element per message right below the root element.
-/

namespace MessageCatalog.FileFormat.Xtb

open Markup (Element Writer)

def rootName : String := "translationbundle"

def messageName : String := "translation"

/-- What the elements inside a message mean. -/
def rules : ContentRules where
  placeholder := ⟨"ph", "name"⟩

/-! ## Writing -/

/-- The lines before the root element. -/
def preamble : String :=
  "<?xml version=\"1.0\" encoding=\"UTF-8\"?>\n" ++
  "<!DOCTYPE translationbundle [\n" ++
  "<!ELEMENT translationbundle (translation)*>\n" ++
  "<!ATTLIST translationbundle lang CDATA #REQUIRED>\n" ++
  "\n" ++
  "<!ELEMENT translation (#PCDATA|ph)*>\n" ++
  "<!ATTLIST translation id CDATA #REQUIRED>\n" ++
  "<!ATTLIST translation desc CDATA #IMPLIED>\n" ++
  "<!ATTLIST translation meaning CDATA #IMPLIED>\n" ++
  "<!ATTLIST translation xml:space (default|preserve) \"default\">\n" ++
  "\n" ++
  "<!ELEMENT ph (#PCDATA|ex)*>\n" ++
  "<!ATTLIST ph name CDATA #REQUIRED>\n" ++
  "\n" ++
  "<!ELEMENT ex (#PCDATA)>\n" ++
  "]>\n"

def writePlaceholder (w : Writer) (_index : Nat) (name : String) : Writer :=
  w.startTag "ph" [("name", some name)] { selfClosing := true }

/-- Write a message as an element with this name. -/
def writeMessage (element : String) (w : Writer) (m : Message) : Writer :=
  let opened := w.startTag element
    [("id", some m.id), ("desc", some m.description), ("meaning", some m.meaning)]
    { preserve := some true }
  (m.writeContent writePlaceholder opened).endTag element { preserve := some false }

def writeFile (messages : List Message) (locale : String) : Writer :=
  let w : Writer := {}
  let w := (w.raw preamble).startTag rootName [("lang", some locale)]
  (messages.foldl (writeMessage messageName) w).endTag rootName

def render (messages : List Message) (locale : String) : String :=
  (writeFile messages locale).output

/-! ## Reading -/

/-- Find out whether a file is in this format; its extension counts, too. -/
def analyze (file : FileText) : Analysis :=
  match Path.extension? file.path with
  | some "xtb" | some "xmb" => file.analyzeMarkup rootName []
  | _ => .reject "Must have xtb or xmb extension."

/-- Read a message and add it to those before it. -/
def readMessage (file : FileText) (translations : OrderedMap String Translation) (e : Element) :
    Except ReadError (OrderedMap String Translation) := do
  let id ← file.requiredAttribute e.tag "id"
  if translations.contains id then .error (.atElement file e.tag (.duplicateMessage id))
  let t ← Content.read rules file e
  return translations.insert id
    { t with description := e.attribute? "desc", meaning := e.attribute? "meaning" }

/-- Read a file. -/
def read (file : FileText) (document : Option Document) : Except ReadError Bundle := do
  let root ← file.markupOf "XTB" analyze document
  let translations ← (root.childrenNamed messageName).foldlM (readMessage file) ∅
  return { locale := root.attribute? "lang", translations }

end MessageCatalog.FileFormat.Xtb
