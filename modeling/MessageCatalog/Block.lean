import MessageCatalog.Text

/-!
# Blocks at the front of message parts

A part of a tagged template may start with a block between two colons. In the first part the block
is `meaning|description@@id␟legacy␟legacy`, in a later part it is `name@@id` and names the
placeholder before the part. A colon that is escaped in the source neither opens nor closes a block,
so every function here reads the cooked text (escapes processed) beside the raw text (as written).
-/

namespace MessageCatalog

/-- A block that is opened and not closed, in the part with this raw text. -/
structure UnterminatedBlock where
  raw : String
  deriving DecidableEq, Repr

def UnterminatedBlock.message (e : UnterminatedBlock) : String :=
  "Unterminated $localize metadata block in \"" ++ e.raw ++ "\"."

namespace Block

/-- Opens and closes a block. -/
def marker : Char := ':'

/-- Stands between meaning and description. -/
def meaningSeparator : Char := '|'

/-- Stands before an id. -/
def idSeparator : List Char := ['@', '@']

/-- Stands before each legacy id. -/
def legacySeparator : Char := '\u241F'

/-- The index of the first marker of a cooked text that its raw text does not escape. Both texts are
walked together: what is left of the cooked text begins at `index`, and what the raw text has for it
at `rawIndex`. A backslash of the raw text stands together with the next raw character for one
cooked character. -/
def markerFrom? (raw : Array Char) : (index rawIndex : Nat) → (cooked : List Char) → Option Nat
  | _, _, [] => none
  | index, rawIndex, c :: cooked =>
    if raw[rawIndex]? = some '\\' then markerFrom? raw (index + 1) (rawIndex + 2) cooked
    else if c = marker then some index
    else markerFrom? raw (index + 1) (rawIndex + 1) cooked

/-- The index in the cooked text of the marker that closes the block opened by its first
character. -/
def endIndex (cooked raw : String) : Except UnterminatedBlock Nat :=
  match markerFrom? raw.toList.toArray 1 1 (cooked.toList.drop 1) with
  | some index => .ok index
  | none => .error ⟨raw⟩

/-- The block at the front of a part, if it has one, and the text after it. Only a marker that the
raw text shows unescaped opens a block. -/
def split (cooked raw : String) : Except UnterminatedBlock (Option String × String) :=
  if raw.toList.head? = some marker then do
    let stop ← endIndex cooked raw
    let block := (cooked.toList.drop 1).take (stop - 1)
    let text := cooked.toList.drop (stop + 1)
    return (some (String.ofList block), String.ofList text)
  else .ok (none, cooked)

/-- A text cut at the first id separator. -/
def cutId (text : List Char) : List Char × Option (List Char) :=
  match Text.cutAt? idSeparator text with
  | some (front, id) => (front, some id)
  | none => (text, none)

/-- A text cut at the first meaning separator. Without one there is no meaning before it. -/
def cutMeaning (text : List Char) : Option (List Char) × List Char :=
  match Text.cutAt? [meaningSeparator] text with
  | some (meaning, description) => (some meaning, description)
  | none => (none, text)

end Block

/-- What the block of the first part says about the whole message, and the text after it. -/
structure Metadata where
  text : String
  meaning : Option String := none
  description : Option String := none
  customId : Option String := none
  legacyIds : List String := []
  deriving DecidableEq, Repr

namespace Metadata

/-- The fields of a block `meaning|description@@id␟legacy␟legacy`. Without a meaning separator there
is only a description, and an empty description is none. -/
def ofBlock (text : String) (block : List Char) : Metadata :=
  let segments := Text.pieces Block.legacySeparator block
  let (front, id) := Block.cutId (segments.headD [])
  let (meaning, description) := Block.cutMeaning front
  { text
    meaning := meaning.map String.ofList
    description := if description.isEmpty then none else some (String.ofList description)
    customId := id.map String.ofList
    legacyIds := (segments.drop 1).map String.ofList }

/-- Read the first part of a message. -/
def parse (cooked raw : String) : Except UnterminatedBlock Metadata := do
  match ← Block.split cooked raw with
  | (none, text) => return { text }
  | (some block, text) => return ofBlock text block.toList

end Metadata

/-- A later part of a message: its text, and what its block says about the placeholder before it. -/
structure PlaceholderPart where
  text : String
  name : Option String := none
  messageId : Option String := none
  deriving DecidableEq, Repr

namespace PlaceholderPart

/-- The fields of a block `name@@id`. -/
def ofBlock (text : String) (block : List Char) : PlaceholderPart :=
  let (name, id) := Block.cutId block
  { text, name := some (String.ofList name), messageId := id.map String.ofList }

/-- Read a part that follows a placeholder. -/
def parse (cooked raw : String) : Except UnterminatedBlock PlaceholderPart := do
  match ← Block.split cooked raw with
  | (none, text) => return { text }
  | (some block, text) => return ofBlock text block.toList

end PlaceholderPart

end MessageCatalog
