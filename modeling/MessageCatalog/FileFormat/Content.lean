import MessageCatalog.FileFormat.Analysis
import MessageCatalog.Markup.Writer
import MessageCatalog.Replay

/-!
# Message content in markup

The content of a message is text with elements in it. A format says which element is a placeholder,
which one is a pair of placeholders around further content, and which elements are looked through.
Reading walks the content in document order and replays it.
-/

namespace MessageCatalog

/-- An element that stands for a placeholder, and the attribute with its name. -/
structure PlaceholderElement where
  element : String
  nameAttribute : String
  deriving DecidableEq, Repr

/-- An element around content that starts and ends with a placeholder. -/
structure ContainerElement where
  element : String
  startAttribute : String
  endAttribute : String
  deriving DecidableEq, Repr

/-- What the elements inside a message mean. -/
structure ContentRules where
  /-- Elements whose content is read as if it stood outside them. -/
  inlineElements : List String := []
  placeholder : PlaceholderElement
  container : Option ContainerElement := none
  deriving DecidableEq, Repr

/-- The meaning of an element inside a message. -/
inductive ElementRole where
  | placeholder (nameAttribute : String)
  | container (startAttribute endAttribute : String)
  | inline
  | foreign
  deriving DecidableEq, Repr

namespace ContentRules

/-- The meaning of an element with this name. -/
def roleOf (rules : ContentRules) (name : String) : ElementRole :=
  if name = rules.placeholder.element then .placeholder rules.placeholder.nameAttribute
  else
    match rules.container.filter (·.element = name) with
    | some c => .container c.startAttribute c.endAttribute
    | none => if name ∈ rules.inlineElements then .inline else .foreign

end ContentRules

namespace Content

/-- The attribute of a placeholder element, which must be there. -/
def placeholderAttribute (file : FileText) (tag : Markup.Tag) (name : String) :
    Except ReadError String :=
  match tag.attribute? name with
  | some value => .ok value
  | none => .error (.atElement file tag (.incompletePlaceholder name))

mutual

/-- Replay a node. -/
def walkNode (rules : ContentRules) (file : FileText) (r : Replay) :
    Markup.Node → Except ReadError Replay
  | .text value => .ok (r.step (.text value))
  | .element tag children =>
    match rules.roleOf tag.name with
    | .placeholder attr => do
      let name ← placeholderAttribute file tag attr
      return r.step (.placeholder name)
    | .container startAttribute endAttribute => do
      let first ← placeholderAttribute file tag startAttribute
      let last ← placeholderAttribute file tag endAttribute
      let r ← walk rules file (r.step (.placeholder first)) children
      return r.step (.placeholder last)
    | .inline => walk rules file r children
    | .foreign => .error (.atElement file tag .unexpected)
  | _ => .ok r

/-- Replay nodes in order. -/
def walk (rules : ContentRules) (file : FileText) (r : Replay) :
    List Markup.Node → Except ReadError Replay
  | [] => .ok r
  | node :: rest => do
    let r ← walkNode rules file r node
    walk rules file r rest

end

/-- The translation that the content of an element is. -/
def read (rules : ContentRules) (file : FileText) (e : Markup.Element) :
    Except ReadError Translation := do
  let r ← walk rules file {} e.children
  if r.inExpansion then .error (.atElement file e.tag .openExpansion)
  else return r.finish

end Content

/-- Write the content of a message: its first part, and then a placeholder and a part in turn.
`placeholder` writes the placeholder with this index and name. -/
def Message.writeContent (m : Message)
    (placeholder : Markup.Writer → Nat → String → Markup.Writer) (w : Markup.Writer) :
    Markup.Writer :=
  (m.placeholderNames.zip (m.parts.drop 1)).zipIdx.foldl
    (fun w ((name, part), index) => (placeholder w index name).text part)
    (w.text (m.parts.headD ""))

end MessageCatalog
