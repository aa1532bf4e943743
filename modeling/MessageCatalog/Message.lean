import MessageCatalog.Block
import MessageCatalog.Diagnostic
import MessageCatalog.Digest
import MessageCatalog.OrderedMap

/-!
# Messages and translations

A message is what source code says: text cut at its placeholders, with an id. A translation is the
same content in one locale, read from a file. Both have one text form, in which a placeholder is
`{$NAME}`; the id of a message is computed from that form.
-/

namespace MessageCatalog

/-- The strings of a tagged template with escapes processed (cooked) and as written (raw), and the
source text of each substitution. -/
structure Template where
  cooked : List String := []
  raw : List String := []
  substitutions : List String := []
  deriving DecidableEq, Repr

/-- A template without escapes. -/
def Template.ofCooked (cooked : List String) : Template :=
  { cooked, raw := cooked }

/-- A message to be written to a file. -/
structure Message where
  /-- The custom id when there is one, else the digest. -/
  id : String := ""
  customId : Option String := none
  /-- Other ids of the message; never `id`. -/
  legacyIds : List String := []
  /-- The content with each placeholder as `{$NAME}`. -/
  text : String := ""
  meaning : String := ""
  description : String := ""
  /-- The literal text; one part more than there are placeholders. -/
  parts : List String := []
  placeholderNames : List String := []
  /-- The source text behind each placeholder, where it is known. -/
  substitutions : List String := []
  deriving DecidableEq, Repr

/-- The content of a message in one locale. -/
structure Translation where
  parts : List String := []
  /-- The parts as a template would have to write them. -/
  rawParts : List String := []
  placeholderNames : List String := []
  description : Option String := none
  meaning : Option String := none
  deriving DecidableEq, Repr

/-- The contents of a translation file. -/
structure Bundle where
  /-- The locale that the file names. -/
  locale : Option String := none
  translations : OrderedMap String Translation := ∅
  /-- The source texts, in a format that keeps them beside the translations. -/
  sources : Option (OrderedMap String Translation) := none
  diagnostics : Diagnostics := []
  deriving DecidableEq, Repr

namespace Placeholder

/-- The form of a placeholder in a text. -/
def token (name : String) : String := "\x7b$" ++ name ++ "\x7d"

/-- The name of the placeholder before part `index` when its block gives none. -/
def positionalName (index : Nat) : String :=
  if index = 1 then "PH" else "PH_" ++ toString (index - 1)

/-- A first part and, in turn, a placeholder and a part. -/
def interleave (parts names : List String) : String :=
  (names.zip (parts.drop 1)).foldl (fun text (name, part) => text ++ token name ++ part)
    (parts.headD "")

/-- The text before the first placeholder of a text, its name, and the text after it. A placeholder
runs from `{$` to the next closing brace. -/
def next? (text : List Char) : Option (List Char × List Char × List Char) :=
  match Text.cutAt? ['{', '$'] text with
  | none => none
  | some (before, body) =>
    match Text.cutAt? ['}'] body with
    | none => none
    | some (name, rest) => some (before, name, rest)

/-- Cut off `count` placeholders at most: the text before the first, then each name with the text
after it. -/
def segments : (count : Nat) → List Char → List Char × List (List Char × List Char)
  | 0, text => (text, [])
  | count + 1, text =>
    match next? text with
    | none => (text, [])
    | some (before, name, rest) =>
      let (part, more) := segments count rest
      (before, (name, part) :: more)

end Placeholder

namespace Translation

/-- The raw form of literal text: a marker at its front is escaped, so that it opens no block. -/
def rawPart (part : String) : String :=
  if part.toList.head? = some Block.marker then "\\" ++ part else part

/-- The translation with these literal parts. -/
def ofParts (parts placeholderNames : List String)
    (description meaning : Option String := none) : Translation :=
  { parts, rawParts := parts.map rawPart, placeholderNames, description, meaning }

/-- Cut a text at its placeholders. -/
def parse (text : String) : Translation :=
  let (first, rest) := Placeholder.segments text.length text.toList
  ofParts (String.ofList first :: rest.map (String.ofList ·.2)) (rest.map (String.ofList ·.1))

/-- The content with each placeholder as `{$NAME}`. -/
def text (t : Translation) : String :=
  Placeholder.interleave t.parts t.placeholderNames

/-- The names of the placeholders between `count` parts from part `index` on: the given names, and
positional names where there are no more. -/
def fillNames (index : Nat) : (count : Nat) → (names : List String) → List String
  | 0, _ => []
  | count + 1, [] => Placeholder.positionalName index :: fillNames (index + 1) count []
  | count + 1, name :: names => name :: fillNames (index + 1) count names

/-- The message with this id and the content of a translation. Parts are literal text. -/
def toMessage (id : String) (t : Translation) : Message :=
  let parts := if t.parts.isEmpty then [""] else t.parts
  let placeholderNames := fillNames 1 (parts.length - 1) t.placeholderNames
  { id
    text := Placeholder.interleave parts placeholderNames
    meaning := t.meaning.getD ""
    description := t.description.getD ""
    parts
    placeholderNames }

end Translation

namespace Message

/-- The strings of a template in pairs; a missing raw string is the cooked one. -/
def pairRaw : (cooked raw : List String) → List (String × String)
  | [], _ => []
  | c :: cooked, [] => (c, c) :: pairRaw cooked []
  | c :: cooked, r :: raw => (c, r) :: pairRaw cooked raw

/-- Read the parts from part `index` on: the name of the placeholder before each, and its text. -/
def laterParts (index : Nat) :
    List (String × String) → Except UnterminatedBlock (List (String × String))
  | [] => .ok []
  | (cooked, raw) :: rest => do
    let part ← PlaceholderPart.parse cooked raw
    let more ← laterParts (index + 1) rest
    return (part.name.getD (Placeholder.positionalName index), part.text) :: more

/-- The other ids of a message: those its block lists, and the digest when a custom id hides it. -/
def otherIds (metadata : Metadata) (digest id : String) : List String :=
  let listed := metadata.legacyIds.filter (· ≠ id)
  if metadata.customId.isSome ∧ digest ≠ id ∧ digest ∉ listed then listed ++ [digest] else listed

/-- The message of what its first block says, and of the name and the text of each later part. -/
def assemble (metadata : Metadata) (later : List (String × String)) (substitutions : List String) :
    Message :=
  let parts := metadata.text :: later.map Prod.snd
  let placeholderNames := later.map Prod.fst
  let text := Placeholder.interleave parts placeholderNames
  let meaning := metadata.meaning.getD ""
  let digest := Digest.messageId text meaning
  let id := metadata.customId.getD digest
  { id
    customId := metadata.customId
    legacyIds := otherIds metadata digest id
    text
    meaning
    description := metadata.description.getD ""
    parts
    placeholderNames
    substitutions }

/-- The message of a template, with its id. -/
def ofTemplate (t : Template) : Except UnterminatedBlock Message := do
  let firstCooked := t.cooked.headD ""
  let metadata ← Metadata.parse firstCooked (t.raw.headD firstCooked)
  let later ← laterParts 1 (pairRaw (t.cooked.drop 1) (t.raw.drop 1))
  return assemble metadata later t.substitutions

end Message

end MessageCatalog
