import MessageCatalog.Json.Reader
import MessageCatalog.Location
import MessageCatalog.Markup.Reader
import MessageCatalog.Message
import MessageCatalog.Path

/-!
# Looking at a translation file

A file is first analyzed: does it look like a file of the format? What the analysis has read of it
is handed on, so that the file is read only once. Reading then gives a bundle or one error.
-/

namespace MessageCatalog

/-- What an analysis has read of a file. -/
inductive Document where
  | json (value : Json.Value)
  | markup (root : Markup.Element)
  deriving Repr

/-- The outcome of an analysis; a file that is not accepted comes with the reason. -/
structure Analysis where
  accepted : Bool
  document : Option Document := none
  diagnostics : Diagnostics := []
  deriving Repr

namespace Analysis

def accept (document : Document) : Analysis := ⟨true, some document, []⟩

def reject (reason : String) : Analysis := ⟨false, none, [⟨.warning, reason⟩]⟩

end Analysis

/-- What is wrong at an element of a file. -/
inductive ElementProblem where
  | unexpected
  /-- A placeholder of a message lacks an attribute. -/
  | incompletePlaceholder (attr : String)
  | missingAttribute (attr element : String)
  | openExpansion
  | duplicateMessage (id : String)
  | missingTarget
  | segmentOutsideUnit
  deriving DecidableEq, Repr

def ElementProblem.message : ElementProblem → String
  | unexpected => "Invalid element found in message."
  | incompletePlaceholder attr => "Missing required \"" ++ attr ++ "\" attribute:"
  | missingAttribute attr element =>
    "Missing required \"" ++ attr ++ "\" attribute on <" ++ element ++ "> element."
  | openExpansion => "Unterminated ICU expression found in message."
  | duplicateMessage id => "Duplicated translations for message \"" ++ id ++ "\""
  | missingTarget => "Missing required <target> element"
  | segmentOutsideUnit => "Invalid <segment> element: should be a child of a <unit> element."

/-- Why a file cannot be read. -/
inductive ReadError where
  | located (error : LocatedError)
  | invalid (message : String)
  | block (error : UnterminatedBlock)
  deriving DecidableEq, Repr

namespace ReadError

/-- A problem at an element of a file. -/
def atElement (file : FileText) (tag : Markup.Tag) (problem : ElementProblem) : ReadError :=
  .located ⟨Span.ofRange file.contents file.path tag.start tag.stop, problem.message⟩

/-- The message without the place. -/
def message : ReadError → String
  | located e => e.message
  | invalid message => message
  | block e => e.message

/-- The message with the place, where there is one. -/
def render : ReadError → String
  | located e => e.render
  | invalid message => message
  | block e => e.message

end ReadError

/-- The attribute of an element that must be there. -/
def FileText.requiredAttribute (file : FileText) (tag : Markup.Tag) (name : String) :
    Except ReadError String :=
  match tag.attribute? name with
  | some value => .ok value
  | none => .error (.atElement file tag (.missingAttribute name tag.name))

/-- Find out whether a file is a document with this root element and these attributes on it. -/
def FileText.analyzeMarkup (file : FileText) (rootName : String)
    (attributes : List (String × String)) : Analysis :=
  match Markup.read file.contents with
  | .error fault => .reject (fault.message file.contents ++ ": " ++ file.path)
  | .ok root =>
    if root.name ≠ rootName then
      .reject ("The XML file does not contain a <" ++ rootName ++ "> root node.")
    else
      match attributes.find? fun (name, value) => root.attribute? name ≠ some value with
      | some (name, value) =>
        .reject ("The <" ++ rootName ++ "> node does not have the required attribute: " ++ name ++
          "=\"" ++ value ++ "\".")
      | none => .accept (.markup root)

/-- What an analysis has read, or else what it reads now, if that is markup; `format` names the
format in the error. -/
def FileText.markupOf (file : FileText) (format : String) (analyze : FileText → Analysis)
    (document : Option Document) : Except ReadError Markup.Element :=
  match document.or (analyze file).document with
  | some (.markup root) => .ok root
  | _ => .error (.invalid ("Unable to parse \"" ++ file.path ++ "\" as " ++ format ++ " format."))

end MessageCatalog
