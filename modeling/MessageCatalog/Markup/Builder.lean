import MessageCatalog.Markup.Fault
import MessageCatalog.Markup.Tree

/-!
# Building the tree

The tags, texts and comments of a document arrive one after the other; the builder keeps the
elements that are still open and attaches each finished node to the innermost of them. It also
knows the declared entities and the namespaces in scope.
-/

namespace MessageCatalog.Markup

/-- A namespace declaration: the prefix, or none for the default namespace, and its URI. -/
abbrev Declaration := Option String × String

/-- The name in a start tag that has not ended yet. -/
structure TagName where
  space : String
  name : String
  start : Nat
  deriving DecidableEq, Repr

/-- An attribute as it is written, with a normalized value. -/
structure WrittenAttribute where
  space : String
  name : String
  value : String
  start : Nat
  deriving DecidableEq, Repr

/-- An element that is not closed yet. -/
structure OpenElement where
  tag : Tag
  /-- The prefix its name is written with. -/
  space : String
  /-- The namespace declarations in scope inside it. -/
  scope : List Declaration
  /-- The nodes inside it so far, the last one first. -/
  nodes : List Node
  deriving Repr

/-- What has been built so far. -/
structure Builder where
  /-- The open elements, innermost first. -/
  opened : List OpenElement := []
  /-- The finished nodes outside all elements, the last one first. -/
  nodes : List Node := []
  /-- Whether the last thing taken in was text, which the next text continues. -/
  afterText : Bool := false
  /-- The entities in order of declaration, each with the place of its value. -/
  entities : List (String × Cursor) := []
  /-- The start tag that was begun last; none at the start of an entity. -/
  tagName : Option TagName := none
  /-- The attributes of the tag being read. -/
  attributes : List WrittenAttribute := []
  /-- The namespaces declared in the tag being read. -/
  declared : List Declaration := []
  /-- How many entities the reading is inside of. -/
  entityDepth : Nat := 0
  /-- The references read inside the outermost entity. -/
  entityReferences : Nat := 0
  deriving Repr

namespace Namespace

def xml : String := "http://www.w3.org/XML/1998/namespace"

def xmlns : String := "http://www.w3.org/2000/xmlns/"

/-- The URI of a prefix, or none when there is no prefix and no default namespace. -/
def resolve (scope : List Declaration) (space : String) (offset : Nat) :
    Except Fault (Option String) :=
  match scope.find? (·.1 = if space.isEmpty then none else some space) with
  | some (_, uri) => .ok (some uri)
  | none => if space.isEmpty then .ok none else .error ⟨.unknownPrefix space, offset⟩

/-- The declarations in scope in an element: its own ones, and those around it whose prefix it does
not declare again. -/
def extend (outer own : List Declaration) : List Declaration :=
  own ++ outer.filter fun (space, _) => own.all (·.1 ≠ space)

end Namespace

/-- A name with its prefix. -/
def qualified (space name : String) : String :=
  if space.isEmpty then name else space ++ ":" ++ name

namespace Builder

/-- The nodes of the innermost open element, or of the document. -/
def current (b : Builder) : List Node :=
  match b.opened with
  | [] => b.nodes
  | e :: _ => e.nodes

/-- Replace the nodes of the innermost open element, or of the document. -/
def setCurrent (b : Builder) (nodes : List Node) : Builder :=
  match b.opened with
  | [] => { b with nodes }
  | e :: rest => { b with opened := { e with nodes } :: rest }

/-- Attach a node that is no text. -/
def addNode (b : Builder) (node : Node) : Builder :=
  { b.setCurrent (node :: b.current) with afterText := false }

/-- Attach text, joined to the text right before it. -/
def addText (b : Builder) (value : String) : Builder :=
  match b.afterText, b.current with
  | true, .text before :: nodes => b.setCurrent (.text (before ++ value) :: nodes)
  | _, nodes => { b.setCurrent (.text value :: nodes) with afterText := true }

/-- The declarations in scope around the tag being read. -/
def outerScope (b : Builder) : List Declaration :=
  match b.opened with
  | [] => []
  | e :: _ => e.scope

/-- The first value declared for an entity. -/
def entity? (b : Builder) (name : String) : Option Cursor :=
  b.entities.lookup name

/-- Begin a start tag. -/
def beginTag (b : Builder) (space name : String) (start : Nat) : Except Fault Builder :=
  if space = "xmlns" then .error ⟨.xmlnsPrefix, start + 1⟩
  else .ok { b with tagName := some ⟨space, name, start⟩, afterText := false }

/-- Declare a namespace for a prefix. -/
def declarePrefix (b : Builder) (name uri : String) (start : Nat) : Except Fault Builder :=
  if uri = Namespace.xmlns then .error ⟨.xmlnsUri, start⟩
  else if name = "xml" ∧ uri ≠ Namespace.xml then .error ⟨.xmlPrefixWrongUri, start⟩
  else if name ≠ "xml" ∧ uri = Namespace.xml then .error ⟨.xmlUriWrongPrefix, start⟩
  else if b.declared.any (·.1 = some name) then .error ⟨.duplicateNamespace name, start⟩
  else if uri = Namespace.xml then .ok b
  else .ok { b with declared := b.declared ++ [(some name, uri)] }

/-- Declare the default namespace. -/
def declareDefault (b : Builder) (uri : String) (start : Nat) : Except Fault Builder :=
  if uri = Namespace.xml then .error ⟨.xmlUriWrongPrefix, start⟩
  else if uri = Namespace.xmlns then .error ⟨.xmlnsUri, start⟩
  else .ok { b with declared := b.declared ++ [(none, uri)] }

/-- Take in an attribute of the tag being read; some attributes declare namespaces. -/
def addAttribute (b : Builder) (a : WrittenAttribute) : Except Fault Builder :=
  if a.space = "xmlns" then b.declarePrefix a.name a.value a.start
  else if a.name = "xmlns" then b.declareDefault a.value a.start
  else .ok { b with attributes := b.attributes ++ [a] }

/-- Find the namespaces of attributes, refusing two of one name, after those in `done`. -/
def resolveAttributes (scope : List Declaration) :
    (done : List Attribute) → List WrittenAttribute → Except Fault (List Attribute)
  | done, [] => .ok done
  | done, a :: rest => do
    let space ←
      if a.space = "xml" then .ok (some Namespace.xml)
      else if a.space.isEmpty then .ok none
      else Namespace.resolve scope a.space a.start
    if done.any fun d => d.space = space ∧ d.name = a.name then
      .error ⟨.duplicateAttribute a.name, a.start⟩
    else resolveAttributes scope (done ++ [⟨space, a.name, a.value⟩]) rest

/-- End the start tag of an element at `stop`; the element has no content. -/
def endEmptyTag (b : Builder) (t : TagName) (stop : Nat) : Except Fault Builder := do
  let scope := Namespace.extend b.outerScope b.declared
  let attributes ← resolveAttributes scope [] b.attributes
  let _ ← Namespace.resolve scope t.space (t.start + 1)
  let node := Node.element { name := t.name, attributes, start := t.start, stop } []
  return { b.addNode node with attributes := [], declared := [] }

/-- End the start tag of an element, whose content follows. -/
def endOpenTag (b : Builder) (t : TagName) (stop : Nat) : Except Fault Builder := do
  let scope := Namespace.extend b.outerScope b.declared
  let attributes ← resolveAttributes scope [] b.attributes
  let _ ← Namespace.resolve scope t.space (t.start + 1)
  let tag : Tag := { name := t.name, attributes, start := t.start, stop }
  return { b with
    opened := ⟨tag, t.space, scope, []⟩ :: b.opened
    attributes := [], declared := [], afterText := false }

/-- Take in an end tag from `start` to `stop`. -/
def closeTag (b : Builder) (space name : String) (start stop : Nat) : Except Fault Builder := do
  if b.tagName.isNone then .error ⟨.closeTagInEntity, start⟩
  let _ ← resolveAttributes (Namespace.extend b.outerScope b.declared) [] b.attributes
  match b.opened with
  | [] => .error ⟨.closeTagInEntity, start⟩
  | e :: rest =>
    if e.space ≠ space ∨ e.tag.name ≠ name then
      .error ⟨.wrongCloseTag (qualified e.space e.tag.name) (qualified space name), start⟩
    else
      let node := Node.element { e.tag with stop } e.nodes.reverse
      return { { b with opened := rest }.addNode node with attributes := [], declared := [] }

end Builder

end MessageCatalog.Markup
