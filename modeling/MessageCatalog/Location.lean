import MessageCatalog.Text

/-!
# Files and locations in them

A file that is being read is its path and its contents. A location in it is a byte offset together
with its line and column, both counted from zero, the column in characters. A span adds the text
around its start, which is what an error message shows.
-/

namespace MessageCatalog

/-- A file that is being read. -/
structure FileText where
  path : String
  contents : String
  deriving DecidableEq, Repr

/-- A place in the file `url`. -/
structure Location where
  url : String
  offset : Nat
  line : Nat
  col : Nat
  deriving DecidableEq, Repr

namespace Location

/-- The longest front of `text` that takes at most `bytes` bytes. -/
def frontWithin : (bytes : Nat) → (text : List Char) → List Char
  | _, [] => []
  | bytes, c :: text =>
    if c.utf8Size ≤ bytes then c :: frontWithin (bytes - c.utf8Size) text else []

/-- The number of newlines of a text. -/
def newlines (text : List Char) : Nat :=
  text.count '\n'

/-- The number of characters after the last newline of a text. -/
def lastLineLength (text : List Char) : Nat :=
  (text.reverse.takeWhile (· ≠ '\n')).length

/-- The location right after `front`, a front of the contents of `url`. -/
def after (url : String) (front : List Char) : Location :=
  ⟨url, Text.byteLength front, newlines front, lastLineLength front⟩

/-- The location of a byte offset: the last place between two characters that is not behind it. -/
def ofOffset (content url : String) (offset : Nat) : Location :=
  after url (frontWithin offset content.toList)

/-- The form `url@line:col`. -/
def render (l : Location) : String :=
  l.url ++ "@" ++ toString l.line ++ ":" ++ toString l.col

end Location

/-- A range of a file and the text on both sides of its start. -/
structure Span where
  start : Location
  stop : Location
  before : String
  after : String
  deriving DecidableEq, Repr

namespace Span

/-- The longest front of `text` with at most `chars` characters and at most `lines` newlines. -/
def window : (chars lines : Nat) → (text : List Char) → List Char
  | 0, _, _ => []
  | _, _, [] => []
  | chars + 1, lines, c :: text =>
    if c = '\n' then
      match lines with
      | 0 => []
      | lines + 1 => c :: window chars lines text
    else c :: window chars lines text

/-- How many characters of context an error shows on each side. -/
def contextChars : Nat := 100

/-- How many newlines the context may hold on each side. -/
def contextNewlines : Nat := 2

/-- The span of a byte range, with the context around its start. -/
def ofRange (content url : String) (start stop : Nat) : Span :=
  let front := Location.frontWithin start content.toList
  let rest := content.toList.drop front.length
  { start := Location.ofOffset content url start
    stop := Location.ofOffset content url stop
    before := String.ofList (window contextChars contextNewlines front.reverse).reverse
    after := String.ofList (window contextChars contextNewlines rest) }

end Span

/-- A problem at a known place. -/
structure LocatedError where
  span : Span
  message : String
  deriving DecidableEq, Repr

namespace LocatedError

/-- The message with the text around the place. -/
def contextual (e : LocatedError) : String :=
  e.message ++ " (\"" ++ e.span.before ++ "[ERROR ->]" ++ e.span.after ++ "\")"

/-- The message with its context and its location. -/
def render (e : LocatedError) : String :=
  e.contextual ++ ": " ++ e.span.start.render

end LocatedError

end MessageCatalog
