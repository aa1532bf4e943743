import MessageCatalog.Markup.Builder
import MessageCatalog.Markup.Writer
import MessageCatalog.Proofs.Text

/-!
# Mixed content

The documents that writers produce, as trees: text, then an element, then the rest of the content.
Such a tree has one printed form, and it stands for one list of nodes at each place of a document.
Keeping the text before an element beside it makes every text of the tree a maximal run, which is
what a reader sees as one text node.
-/

namespace MessageCatalog.Markup

/-- A start tag as it is written. -/
structure WrittenTag where
  name : String
  attributes : List (String × String) := []
  deriving DecidableEq, Repr

/-- Content: a text that ends it, or a text, an element without content (`leaf`) or with content
(`branch`), and what comes after the element. -/
inductive Mixed where
  | text (value : String)
  | leaf (before : String) (tag : WrittenTag) (after : Mixed)
  | branch (before : String) (tag : WrittenTag) (inside after : Mixed)
  deriving Repr

/-! ## Printed form -/

/-- The printed form of an attribute, without the blank before it. -/
def printAttribute (a : String × String) : List Char :=
  a.1.toList ++ '=' :: '"' :: (escapeChars a.2.toList ++ ['"'])

namespace WrittenTag

/-- The printed form of a start tag without its closing bracket. -/
def opening (t : WrittenTag) : List Char :=
  '<' :: (t.name.toList ++ t.attributes.flatMap fun a => ' ' :: printAttribute a)

/-- The printed form of an end tag. -/
def closing (t : WrittenTag) : List Char :=
  '<' :: '/' :: (t.name.toList ++ ['>'])

end WrittenTag

namespace Mixed

/-- The printed form of content. -/
def print : Mixed → List Char
  | text value => escapeChars value.toList
  | leaf before tag after =>
    escapeChars before.toList ++ (tag.opening ++ ('/' :: '>' :: after.print))
  | branch before tag inside after =>
    escapeChars before.toList ++
      (tag.opening ++ ('>' :: (inside.print ++ (tag.closing ++ after.print))))

end Mixed

/-! ## Nodes -/

/-- The value that an attribute written with this text has: white space becomes blanks. -/
def normalizedValue : List Char → List Char
  | [] => []
  | '\r' :: '\n' :: text => normalizedValue ('\n' :: text)
  | c :: text => (if isSpace c then ' ' else c) :: normalizedValue text

/-- Whether an attribute declares the default namespace. -/
def isDeclaration (a : String × String) : Bool := a.1 = "xmlns"

/-- The attribute that is read for a written one. -/
def readAttribute (a : String × String) : Attribute :=
  { name := a.1, value := String.ofList (normalizedValue a.2.toList) }

/-- The namespace declaration that is read for a written attribute. -/
def readDeclaration (a : String × String) : Declaration :=
  (none, (readAttribute a).value)

namespace WrittenTag

/-- The attributes that an element written with this tag has. -/
def readAttributes (t : WrittenTag) : List Attribute :=
  (t.attributes.filter (!isDeclaration ·)).map readAttribute

/-- The tag of an element written with this start tag, from `start` to `stop`. -/
def toTag (t : WrittenTag) (start stop : Nat) : Tag :=
  { name := t.name, attributes := t.readAttributes, start, stop }

end WrittenTag

/-- The nodes of a text: an empty one has none. -/
def textNodes (value : String) : List Node :=
  if value.isEmpty then [] else [.text value]

namespace Mixed

/-- The nodes that content at the byte offset `start` stands for. -/
def nodes (start : Nat) : Mixed → List Node
  | text value => textNodes value
  | leaf before tag after =>
    let place := start + Text.byteLength (escapeChars before.toList)
    let stop := place + Text.byteLength tag.opening + 2
    textNodes before ++ .element (tag.toTag place stop) [] :: after.nodes stop
  | branch before tag inside after =>
    let place := start + Text.byteLength (escapeChars before.toList)
    let first := place + Text.byteLength tag.opening + 1
    let stop := first + Text.byteLength inside.print + Text.byteLength tag.closing
    textNodes before ++ .element (tag.toTag place stop) (inside.nodes first) :: after.nodes stop

/-- Whether content ends in a text node. -/
def endsInText : Mixed → Bool
  | text value => !value.isEmpty
  | leaf _ _ after | branch _ _ _ after => after.endsInText

end Mixed

/-! ## Well-formedness -/

/-- A name without a prefix. -/
def isPlainName (name : String) : Bool :=
  (name.toList.head?.any isNameStart) && name.toList.all fun c => isNameChar c && c ≠ ':'

/-- Whether a document may hold all characters of a text. -/
def isXmlText (text : String) : Bool := text.toList.all isXmlChar

/-- Whether a text is read as it is written: it holds no carriage return, which would be read as a
line end. -/
def isPlainText (text : String) : Bool := text.toList.all fun c => isXmlChar c && c ≠ '\r'

/-- What makes a start tag readable. -/
structure WrittenTag.Sound (t : WrittenTag) : Prop where
  name : isPlainName t.name = true
  names : ∀ a ∈ t.attributes, isPlainName a.1 = true
  values : ∀ a ∈ t.attributes, isXmlText a.2 = true
  distinct : (t.attributes.map Prod.fst).Nodup
  /-- The default namespace is not one of the two reserved ones. -/
  notReserved : ∀ a ∈ t.attributes, isDeclaration a = true →
    (readAttribute a).value ≠ Namespace.xml ∧ (readAttribute a).value ≠ Namespace.xmlns

/-- What makes content readable. -/
def Mixed.Sound : Mixed → Prop
  | text value => isPlainText value = true
  | leaf before tag after => isPlainText before = true ∧ tag.Sound ∧ after.Sound
  | branch before tag inside after =>
    isPlainText before = true ∧ tag.Sound ∧ inside.Sound ∧ after.Sound

end MessageCatalog.Markup
