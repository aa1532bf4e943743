/-!
# Markup as a tree

What is left of a document when its tags, references and line ends have been read. Names are local
names; an attribute keeps the namespace of its prefix, since an attribute with a prefix is not the
one asked for without. Each element keeps the byte range from its start tag to its end tag.
-/

namespace MessageCatalog.Markup

/-- An attribute of an element. -/
structure Attribute where
  /-- The namespace that the prefix stands for; none without a prefix. -/
  space : Option String := none
  name : String
  value : String
  deriving DecidableEq, Repr

/-- What an element is apart from its content. -/
structure Tag where
  name : String
  attributes : List Attribute := []
  start : Nat := 0
  stop : Nat := 0
  deriving DecidableEq, Repr

/-- A piece of content. -/
inductive Node where
  | text (value : String)
  | comment (value : String)
  | instruction (target : String)
  | element (tag : Tag) (children : List Node)
  deriving Repr

/-- An element with its content. -/
structure Element where
  tag : Tag
  children : List Node := []
  deriving Repr

namespace Node

/-- The element that a node is. -/
def element? : Node → Option Element
  | .element tag children => some ⟨tag, children⟩
  | _ => none

end Node

namespace Tag

/-- The value of the attribute with this name and no prefix. -/
def attribute? (t : Tag) (name : String) : Option String :=
  (t.attributes.find? fun a => a.space.isNone && a.name = name).map (·.value)

end Tag

mutual

/-- All text of a node and below it. -/
def Node.textContent : Node → String
  | .text value => value
  | .element _ children => textOf children
  | _ => ""

/-- All text of a list of nodes and below them. -/
def textOf : List Node → String
  | [] => ""
  | node :: rest => node.textContent ++ textOf rest

end

namespace Element

def name (e : Element) : String := e.tag.name

def attribute? (e : Element) (name : String) : Option String := e.tag.attribute? name

/-- All text of an element and below it. -/
def textContent (e : Element) : String := textOf e.children

/-- The elements right below an element. -/
def childElements (e : Element) : List Element := e.children.filterMap Node.element?

/-- The elements right below an element with this name. -/
def childrenNamed (e : Element) (name : String) : List Element :=
  e.childElements.filter (·.name = name)

end Element

end MessageCatalog.Markup
