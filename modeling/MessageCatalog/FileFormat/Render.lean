import MessageCatalog.FileFormat.Basic
import MessageCatalog.FileFormat.Json
import MessageCatalog.FileFormat.Xliff1
import MessageCatalog.FileFormat.Xliff2
import MessageCatalog.FileFormat.Xtb

/-!
# Writing a file in any format

Each format has a writer. The format XMB has nothing else: a bundle of source messages has no place
for translations, so there is no reader for it, and its messages are written as those of the XTB
format are.
-/

namespace MessageCatalog.FileFormat

namespace Xmb

open Markup (Writer)

def rootName : String := "messagebundle"

def messageName : String := "msg"

/-- The lines before the root element. -/
def preamble : String :=
  "<?xml version=\"1.0\" encoding=\"UTF-8\" ?>\n" ++
  "<!DOCTYPE messagebundle [\n" ++
  "<!ELEMENT messagebundle (msg)*>\n" ++
  "<!ATTLIST messagebundle class CDATA #IMPLIED>\n" ++
  "\n" ++
  "<!ELEMENT msg (#PCDATA|ph|source)*>\n" ++
  "<!ATTLIST msg id CDATA #IMPLIED>\n" ++
  "<!ATTLIST msg seq CDATA #IMPLIED>\n" ++
  "<!ATTLIST msg name CDATA #IMPLIED>\n" ++
  "<!ATTLIST msg desc CDATA #IMPLIED>\n" ++
  "<!ATTLIST msg meaning CDATA #IMPLIED>\n" ++
  "<!ATTLIST msg obsolete (obsolete) #IMPLIED>\n" ++
  "<!ATTLIST msg xml:space (default|preserve) \"default\">\n" ++
  "<!ATTLIST msg is_hidden CDATA #IMPLIED>\n" ++
  "\n" ++
  "<!ELEMENT source (#PCDATA)>\n" ++
  "\n" ++
  "<!ELEMENT ph (#PCDATA|ex)*>\n" ++
  "<!ATTLIST ph name CDATA #REQUIRED>\n" ++
  "\n" ++
  "<!ELEMENT ex (#PCDATA)>\n" ++
  "]>\n"

def writeFile (messages : List Message) : Writer :=
  let w : Writer := {}
  let w := (w.raw preamble).startTag rootName
  (messages.foldl (Xtb.writeMessage messageName) w).endTag rootName

def render (messages : List Message) : String :=
  (writeFile messages).output

end Xmb

/-- The contents of a file with these messages. With `isTarget` the messages are translations, and
a format with places for both writes the target only. -/
def render (format : FileFormat) (messages : List Message) (locale : String)
    (isTarget : Bool) : String :=
  match format with
  | .json => Json.render messages locale
  | .xliff1 => Xliff1.render messages locale isTarget
  | .xliff2 => Xliff2.render messages locale isTarget
  | .xmb => Xmb.render messages
  | .xtb => Xtb.render messages locale

end MessageCatalog.FileFormat
