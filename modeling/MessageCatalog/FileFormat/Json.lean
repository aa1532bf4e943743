import MessageCatalog.FileFormat.Analysis
import MessageCatalog.Json.Writer

/-!
# The JSON format

An object with a locale and an object of texts by id, each with its placeholders as `{$NAME}`.
-/

namespace MessageCatalog.FileFormat.Json

open MessageCatalog.Json (Value)

def localeKey : String := "locale"

def translationsKey : String := "translations"

/-- Write messages: of two with one id, the first gives the place and the last the text. -/
def render (messages : List Message) (locale : String) : String :=
  let texts := OrderedMap.ofList (messages.map fun m => (m.id, m.text))
  MessageCatalog.Json.writeObject ""
    [(localeKey, MessageCatalog.Json.quote locale),
      (translationsKey,
        MessageCatalog.Json.writeObject "  "
          (texts.entries.map fun (id, text) => (id, MessageCatalog.Json.quote text)))]

/-- What is wrong with a document that is to be a translation file, if anything is. -/
def complaint? (value : Value) : Option String :=
  match value.get? localeKey, value.get? translationsKey with
  | none, _ => some "Required \"locale\" property missing."
  | some locale, translations =>
    if locale.string?.isNone then some "The \"locale\" property is not a string."
    else
      match translations with
      | none => some "Required \"translations\" property missing."
      | some translations =>
        if translations.members?.isNone then some "The \"translations\" is not an object."
        else none

/-- Find out whether a file is in this format. -/
def analyze (file : FileText) : Analysis :=
  if Path.extension? file.path ≠ some "json" then .reject "File does not have .json extension."
  else
    match MessageCatalog.Json.read file.contents with
    | .error _ => .reject "File is not valid JSON."
    | .ok value =>
      match complaint? value with
      | some reason => .reject reason
      | none => .accept (.json value)

/-- The translations of the members of an object. -/
def translationsOf (file : FileText) :
    List (String × Value) → Except ReadError (List (String × Translation))
  | [] => .ok []
  | (id, value) :: rest =>
    match value.string? with
    | none =>
      .error (.invalid
        ("The translation for message \"" ++ id ++ "\" is not a string: " ++ file.path))
    | some text => do
      let more ← translationsOf file rest
      return (id, Translation.parse text) :: more

/-- Read a file. -/
def read (file : FileText) (document : Option Document) : Except ReadError Bundle :=
  match document.or (analyze file).document with
  | some (.json value) => do
    let members := ((value.get? translationsKey).bind Value.members?).getD []
    let translations ← translationsOf file members
    return {
      locale := (value.get? localeKey).bind Value.string?
      translations := OrderedMap.ofList translations }
  | _ => .error (.invalid ("Unable to parse \"" ++ file.path ++ "\" as JSON format."))

end MessageCatalog.FileFormat.Json
