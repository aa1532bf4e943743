import MessageCatalog.Message

/-!
# Replaying message content

The content of a message in a file is a run of texts and placeholders. Replaying it collects the
parts of a translation: a placeholder ends a part, except inside an ICU expansion such as
`{count, plural, one {...} other {...}}`, where it stays in the text as `{NAME}`. Only braces that
open an expansion, and the braces inside one, are counted; any other brace is text.
-/

namespace MessageCatalog

namespace IcuExpansion

/-- What an expansion may choose by. -/
def kinds : List String := ["plural", "select", "selectordinal"]

/-- The characters of an argument name. -/
def isNameChar (c : Char) : Bool :=
  !(Text.isBlank c || c = ',' || c = '{' || c = '}')

/-- The text behind the blanks and a comma at the front of `text`. -/
def afterComma? (text : List Char) : Option (List Char) :=
  match Text.dropBlanks text with
  | ',' :: rest => some rest
  | _ => none

/-- Whether `text` is `kind`, blanks and a comma, and anything. -/
def opensWithKind (text : List Char) (kind : String) : Bool :=
  match Text.dropLead? kind.toList text with
  | some rest => (afterComma? rest).isSome
  | none => false

/-- Whether the text behind an opening brace makes it the start of an expansion: an argument name,
a comma, a kind and a comma, with blanks between them. -/
def opens (text : List Char) : Bool :=
  let text := Text.dropBlanks text
  if (text.takeWhile isNameChar).isEmpty then false
  else
    match afterComma? (text.dropWhile isNameChar) with
    | some rest => kinds.any (opensWithKind (Text.dropBlanks rest))
    | none => false

/-- The number of open braces of an expansion after a text, given the number before it. -/
def depthAfter (depth : Nat) : List Char → Nat
  | [] => depth
  | c :: text =>
    if c = '{' then depthAfter (if depth > 0 || opens text then depth + 1 else depth) text
    else if c = '}' then depthAfter (depth - 1) text
    else depthAfter depth text

end IcuExpansion

/-- One piece of message content. -/
inductive Step where
  | text (content : String)
  | placeholder (name : String)
  deriving DecidableEq, Repr

/-- The parts and names collected so far, the text of the current part, and the number of open
braces of an ICU expansion. -/
structure Replay where
  parts : List String := []
  placeholderNames : List String := []
  current : String := ""
  depth : Nat := 0
  deriving DecidableEq, Repr

namespace Replay

/-- Whether an expansion is open. -/
def inExpansion (r : Replay) : Bool := r.depth > 0

/-- Placeholder names are written with underscores. -/
def normalizeName (name : String) : String :=
  String.ofList (Text.replace '-' '_' name.toList)

/-- Take one step. -/
def step (r : Replay) : Step → Replay
  | .text content =>
    { r with
      current := r.current ++ content
      depth := IcuExpansion.depthAfter r.depth content.toList }
  | .placeholder name =>
    let name := normalizeName name
    if r.inExpansion then { r with current := r.current ++ "\x7b" ++ name ++ "\x7d" }
    else
      { r with
        parts := r.parts ++ [r.current]
        placeholderNames := r.placeholderNames ++ [name]
        current := "" }

/-- Take all steps in order. -/
def run (r : Replay) (steps : List Step) : Replay :=
  steps.foldl step r

/-- The translation made of what was collected. -/
def finish (r : Replay) : Translation :=
  Translation.ofParts (r.parts ++ [r.current]) r.placeholderNames

end Replay

/-- The steps that write a message: its first part, and then a placeholder and a part in turn. -/
def Message.steps (m : Message) : List Step :=
  .text (m.parts.headD "") ::
    (m.placeholderNames.zip (m.parts.drop 1)).flatMap fun (name, part) =>
      [.placeholder name, .text part]

end MessageCatalog
