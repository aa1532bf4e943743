import MessageCatalog.OrderedMap

/-!
# Writing markup

Five characters have a meaning in markup; in text and in attribute values each is written as an
entity. A writer puts each tag on a line of its own, indented by two spaces per open element. Inside
a region that preserves white space, such as message content, it adds nothing around the tags.
-/

namespace MessageCatalog.Markup

/-! ## Escaped text -/

/-- The written form of a character. -/
def escapeChar (c : Char) : List Char :=
  match c with
  | '&' => "&amp;".toList
  | '"' => "&quot;".toList
  | '\'' => "&apos;".toList
  | '<' => "&lt;".toList
  | '>' => "&gt;".toList
  | c => [c]

/-- The written form of a text. -/
def escapeChars (text : List Char) : List Char :=
  text.flatMap escapeChar

/-- The written form of a string. -/
def escape (text : String) : String :=
  String.ofList (escapeChars text.toList)

/-! ## Tags -/

/-- How a tag is written. -/
structure TagStyle where
  selfClosing : Bool := false
  /-- Whether the tags after this one preserve white space; no value leaves that as it is. -/
  preserve : Option Bool := none
  deriving DecidableEq, Repr

/-- The output so far, the indent of the next line, the names of the open elements (innermost
first), and whether white space is preserved. -/
structure Writer where
  output : String := ""
  indent : String := ""
  stack : List String := []
  preserving : Bool := false
  deriving DecidableEq, Repr

namespace Writer

/-- What is added to the indent for each open element. -/
def indentStep : String := "  "

/-- The indent of the element around this one. -/
def lessIndent (indent : String) : String :=
  String.ofList (indent.toList.take (indent.toList.length - indentStep.length))

/-- The written form of an attribute; one without a value or with an empty value is not written. -/
def attributeText : String × Option String → String
  | (_, none) => ""
  | (name, some value) =>
    if value.isEmpty then "" else " " ++ name ++ "=\"" ++ escape value ++ "\""

/-- Write markup as it is. -/
def raw (w : Writer) (markup : String) : Writer :=
  { w with output := w.output ++ markup }

/-- Write text. -/
def text (w : Writer) (content : String) : Writer :=
  w.raw (escape content)

/-- The white space before a tag. -/
def lead (w : Writer) : String :=
  if w.preserving then "" else w.indent

/-- Take over the style of the tag just written and end the line, unless white space is preserved
from here on. -/
def settle (w : Writer) (style : TagStyle) : Writer :=
  let preserving := style.preserve.getD w.preserving
  { w with preserving, output := if preserving then w.output else w.output ++ "\n" }

/-- The text of a start tag. Of two attributes with one name the first gives the place and the last
the value. -/
def startTagText (name : String) (attributes : List (String × Option String))
    (style : TagStyle) : String :=
  "<" ++ name ++ String.join ((OrderedMap.ofList attributes).entries.map attributeText) ++
    (if style.selfClosing then "/>" else ">")

/-- Write a start tag and, unless it closes itself, open the element. -/
def startTag (w : Writer) (name : String) (attributes : List (String × Option String) := [])
    (style : TagStyle := {}) : Writer :=
  let written := { w with output := w.output ++ w.lead ++ startTagText name attributes style }
  let opened :=
    if style.selfClosing then written
    else { written with stack := name :: w.stack, indent := w.indent ++ indentStep }
  opened.settle style

/-- Close the innermost element, if one is open, and write an end tag. -/
def endTag (w : Writer) (name : String) (style : TagStyle := {}) : Writer :=
  let closed := { w with stack := w.stack.drop 1, indent := lessIndent w.indent }
  let written := { closed with output := closed.output ++ closed.lead ++ "</" ++ name ++ ">" }
  written.settle style

end Writer

end MessageCatalog.Markup
