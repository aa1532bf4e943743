/-!
# Cutting text

Searching and cutting over lists of characters: splitting at a separator, stripping a prefix, and
the blanks that patterns skip. Nothing here knows about messages; the block grammar, the file
formats and the command line cut their text with these functions.
-/

namespace MessageCatalog.Text

/-- The rest of `text` after `lead`, when `text` starts with it. -/
def dropLead? : (lead text : List Char) → Option (List Char)
  | [], text => some text
  | _ :: _, [] => none
  | l :: lead, c :: text => if l = c then dropLead? lead text else none

/-- Whether `text` starts with `lead`. -/
def startsWith (lead text : List Char) : Bool :=
  (dropLead? lead text).isSome

/-- Cut `text` at the first occurrence of `separator`: what stands before it and what stands after
it. -/
def cutAt? (separator : List Char) : List Char → Option (List Char × List Char)
  | [] => (dropLead? separator []).map fun rest => ([], rest)
  | c :: text =>
    match dropLead? separator (c :: text) with
    | some rest => some ([], rest)
    | none => (cutAt? separator text).map fun (before, after) => (c :: before, after)

/-- The pieces of `text` between the occurrences of a separating character; never empty. -/
def pieces (separator : Char) : List Char → List (List Char)
  | [] => [[]]
  | c :: text =>
    if c = separator then [] :: pieces separator text
    else
      match pieces separator text with
      | [] => [[c]]
      | piece :: rest => (c :: piece) :: rest

/-- Whether `needle` occurs somewhere in `text`. -/
def contains (needle text : List Char) : Bool :=
  (cutAt? needle text).isSome

/-- Put every occurrence of a character in the form `replacement`. -/
def replace (target replacement : Char) (text : List Char) : List Char :=
  text.map fun c => if c = target then replacement else c

/-- The characters with the Unicode property White_Space. -/
def isBlank (c : Char) : Bool :=
  let n := c.toNat
  (0x09 ≤ n && n ≤ 0x0D) || n = 0x20 || n = 0x85 || n = 0xA0 || n = 0x1680 ||
    (0x2000 ≤ n && n ≤ 0x200A) || n = 0x2028 || n = 0x2029 || n = 0x202F || n = 0x205F || n = 0x3000

/-- `text` without the blanks at its front. -/
def dropBlanks (text : List Char) : List Char :=
  text.dropWhile isBlank

/-- Strings joined by a separator. -/
def join (separator : String) : List String → String
  | [] => ""
  | [s] => s
  | s :: rest => s ++ separator ++ join separator rest

/-- The number of bytes of a text in UTF-8. -/
def byteLength (text : List Char) : Nat :=
  text.foldr (fun c n => c.utf8Size + n) 0

end MessageCatalog.Text

namespace MessageCatalog

/-- A place in a document: the characters from there on, and how many bytes stand before them. -/
structure Cursor where
  rest : List Char
  offset : Nat := 0
  deriving DecidableEq, Repr

/-- The place behind the next `count` characters. -/
def Cursor.skip (c : Cursor) (count : Nat) : Cursor :=
  ⟨c.rest.drop count, c.offset + Text.byteLength (c.rest.take count)⟩

end MessageCatalog
