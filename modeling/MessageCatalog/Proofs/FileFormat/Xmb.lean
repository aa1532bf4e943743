import Mathlib.Data.List.Forall2
import MessageCatalog.FileFormat.Render
import MessageCatalog.Proofs.FileFormat.Xtb

/-!
# XMB files describe what XTB files describe

The two formats have document types of their own, and elements of other names around and for
messages. Apart from names and places both are read as the same messages: each element has the
attributes of its message that are not empty, and nothing inside it but its texts and placeholders.
-/

namespace MessageCatalog

open Markup (Element Node WrittenElement WrittenTag)

/-! ## Markup apart from its place -/

namespace Markup

mutual

/-- A node without its place in a file. -/
def Node.unplaced : Node → Node
  | .element tag children => .element { tag with start := 0, stop := 0 } (unplacedAll children)
  | node => node

/-- Nodes without their places in a file. -/
def unplacedAll : List Node → List Node
  | [] => []
  | node :: rest => node.unplaced :: unplacedAll rest

end

/-- The places are taken off nodes one by one. -/
lemma unplacedAll_eq_map (nodes : List Node) : unplacedAll nodes = nodes.map Node.unplaced := by
  induction nodes with
  | nil => rfl
  | cons node rest ih => rw [unplacedAll, ih, List.map_cons]

/-- Texts have no place. -/
lemma map_unplaced_textNodes (value : String) :
    (textNodes value).map Node.unplaced = textNodes value := by
  rw [textNodes]
  split <;> rfl

/-- The attributes with these values, apart from those that are empty. -/
def givenAttributes (attributes : List (String × String)) : List Attribute :=
  attributes.filterMap fun a => (Text.unlessEmpty a.2).map fun value => { name := a.1, value }

/-- The attributes of a written tag are read as they are written. -/
lemma readAttributes_of {attributes : List (String × String)}
    (hkeys : "xmlns" ∉ attributes.map Prod.fst)
    (hlines : ∀ a ∈ attributes, isLineText a.2 = true) (element : String) :
    (WrittenTag.of element (attributes.map fun a => (a.1, some a.2))).readAttributes =
      givenAttributes attributes := by
  rw [WrittenTag.readAttributes, WrittenTag.of]
  induction attributes with
  | nil => rfl
  | cons a rest ih =>
    obtain ⟨name, value⟩ := a
    obtain ⟨line, later⟩ := List.forall_mem_cons.1 hlines
    rw [List.map_cons, List.mem_cons, not_or] at hkeys
    have front : presentAttributes (((name, value) :: rest).map fun a => (a.1, some a.2)) =
        presentAttribute (name, some value) ++
          presentAttributes (rest.map fun a => (a.1, some a.2)) := rfl
    rw [front, List.filter_append, List.map_append, ih hkeys.2 later, presentAttribute]
    split
    case isTrue empty =>
      have nothing : Text.unlessEmpty value = none := if_pos empty
      rw [givenAttributes, givenAttributes, List.filterMap_cons_none (by rw [nothing]; rfl)]
      rfl
    case isFalse given =>
      have written : Text.unlessEmpty value = some value := if_neg given
      -- the declaration of a namespace would not be read as an attribute
      have declares : isDeclaration (name, value) = false := decide_eq_false (Ne.symm hkeys.1)
      have same : readAttribute (name, value) = { name, value } := by
        rw [readAttribute, normalizedValue_of_line fun c m => (isLineText_iff.1 line c m).2,
          String.ofList_toList]
      rw [List.filter_cons_of_pos (by rw [declares]; rfl), List.filter_nil, List.map_singleton,
        same, givenAttributes, givenAttributes, List.filterMap_cons_some (by rw [written]; rfl)]
      rfl

/-- What is the case for elements wherever they stand is the case for them on lines. -/
lemma forall₂_placed {α : Type} {R : α → Element → Prop} {element : α → WrittenElement}
    {as : List α} (h : ∀ a ∈ as, ∀ start, R a ((element a).toElement start)) (lead start : Nat) :
    List.Forall₂ R as (placed lead start (as.map element)) := by
  induction as generalizing start with
  | nil => exact .nil
  | cons a rest ih =>
    obtain ⟨first, later⟩ := List.forall_mem_cons.1 h
    exact .cons (first _) (ih later _)

end Markup

namespace FileFormat

/-! ## Descriptions of messages -/

/-- The nodes that a step of a message is written as. -/
def nodesOfStep : Step → List Node
  | .text value => Markup.textNodes value
  | .placeholder name =>
    [.element { name := "ph", attributes := Markup.givenAttributes [("name", name)] } []]

/-- An element describes a message: it has the attributes that are not empty, and inside it there is
nothing but the texts and the placeholders of the message. -/
structure Describes (element : String) (m : Message) (e : Element) : Prop where
  name : e.name = element
  attributes : e.tag.attributes =
    Markup.givenAttributes [("id", m.id), ("desc", m.description), ("meaning", m.meaning)]
  content : Markup.unplacedAll e.children = m.steps.flatMap nodesOfStep

/-- Two elements are the same but for their names and places. -/
structure SameContent (e e' : Element) : Prop where
  attributes : e.tag.attributes = e'.tag.attributes
  content : Markup.unplacedAll e.children = Markup.unplacedAll e'.children

/-- The elements below a root element describe messages, one by one and in order. -/
structure DescribesAll (name element : String) (messages : List Message) (root : Element) :
    Prop where
  name : root.name = name
  messages : List.Forall₂ (Describes element) messages (root.childrenNamed element)
  only : root.childElements = root.childrenNamed element

/-! ## Written messages -/

namespace Xtb

/-- The written content of a message is read as the nodes of its steps. -/
lemma unplaced_ofParts {pairs : List (String × String)}
    (h : ∀ pair ∈ pairs, Markup.isLineText pair.1 = true) (first : String) (index start : Nat) :
    ((Markup.Mixed.ofParts placeholderTag first index pairs).nodes start).map Node.unplaced =
      (Step.text first :: pairs.flatMap fun (name, part) =>
        [.placeholder name, .text part]).flatMap nodesOfStep := by
  induction pairs generalizing first index start with
  | nil =>
    rw [Markup.Mixed.ofParts, Markup.Mixed.nodes, Markup.map_unplaced_textNodes]
    exact (List.append_nil _).symm
  | cons pair rest ih =>
    obtain ⟨name, part⟩ := pair
    obtain ⟨line, later⟩ := List.forall_mem_cons.1 h
    have lines : ∀ a ∈ [("name", name)], Markup.isLineText a.2 = true :=
      List.forall_mem_singleton.2 line
    have attributes : (placeholderTag index name).readAttributes =
        Markup.givenAttributes [("name", name)] :=
      Markup.readAttributes_of (by exact (by decide : "xmlns" ∉ ["name"])) lines "ph"
    rw [Markup.Mixed.ofParts, Markup.Mixed.nodes, List.map_append, List.map_cons, ih later,
      Markup.map_unplaced_textNodes, Node.unplaced, WrittenTag.toTag, attributes]
    rfl

/-- A written message is read as an element that describes it. -/
lemma describes_messageElement (element : String) {m : Message} (hm : m.HasText)
    (hn : HasLineNotes m) (start : Nat) :
    Describes element m ((messageElement element m).toElement start) := by
  constructor
  case name => rfl
  case attributes =>
    have lines : ∀ a ∈ [("id", m.id), ("desc", m.description), ("meaning", m.meaning)],
        Markup.isLineText a.2 = true :=
      List.forall_mem_cons.2 ⟨hm.id_text, List.forall_mem_cons.2 ⟨hn.1,
        List.forall_mem_singleton.2 hn.2⟩⟩
    exact Markup.readAttributes_of (by exact (by decide : "xmlns" ∉ ["id", "desc", "meaning"]))
      lines element
  case content =>
    rw [Markup.unplacedAll_eq_map]
    exact unplaced_ofParts (fun pair h => hm.names_text _ (Message.names_laterPairs h).1) _ _ _

/-- Written around messages, an element describes them. -/
lemma describesAll_block (tag : WrittenTag) (element : String) {messages : List Message}
    (hm : ∀ m ∈ messages, m.HasText) (hn : ∀ m ∈ messages, HasLineNotes m) (start : Nat) :
    DescribesAll tag.name element messages ((WrittenElement.block tag
      (fun _ => messages.map (messageElement element)) "").toElement start) := by
  obtain ⟨lead, first, children, only⟩ := children_messages tag element messages start
  refine ⟨rfl, ?_, only⟩
  rw [children]
  exact Markup.forall₂_placed
    (fun m h start => describes_messageElement element (hm m h) (hn m h) start) lead first

end Xtb

namespace Xmb

open Markup.Writer (Writes)

/-- The document type of a bundle. -/
def documentType : Markup.WrittenType where
  spaced := true
  name := rootName
  lines :=
    ["<!ELEMENT messagebundle (msg)*>\n",
      "<!ATTLIST messagebundle class CDATA #IMPLIED>\n",
      "\n",
      "<!ELEMENT msg (#PCDATA|ph|source)*>\n",
      "<!ATTLIST msg id CDATA #IMPLIED>\n",
      "<!ATTLIST msg seq CDATA #IMPLIED>\n",
      "<!ATTLIST msg name CDATA #IMPLIED>\n",
      "<!ATTLIST msg desc CDATA #IMPLIED>\n",
      "<!ATTLIST msg meaning CDATA #IMPLIED>\n",
      "<!ATTLIST msg obsolete (obsolete) #IMPLIED>\n",
      "<!ATTLIST msg xml:space (default|preserve) \"default\">\n",
      "<!ATTLIST msg is_hidden CDATA #IMPLIED>\n",
      "\n",
      "<!ELEMENT source (#PCDATA)>\n",
      "\n",
      "<!ELEMENT ph (#PCDATA|ex)*>\n",
      "<!ATTLIST ph name CDATA #REQUIRED>\n",
      "\n",
      "<!ELEMENT ex (#PCDATA)>\n"]

/-- The root element. -/
def rootElement (messages : List Message) (indent : String) : WrittenElement :=
  .block (.of rootName []) (fun _ => messages.map (Xtb.messageElement messageName)) indent

/-- The lines before the root element are a prologue with a document type. -/
lemma preamble_eq : preamble = String.ofList documentType.prologue := by
  have start : "<!DOCTYPE " ++ documentType.name ++ " [\n" = "<!DOCTYPE messagebundle [\n" := by
    decide
  rw [documentType.ofList_prologue, start, if_pos (by exact rfl)]
  delta preamble
  simp only [documentType, String.join_cons, String.join_nil, String.append_assoc,
    String.empty_append]

/-- The document type is one that can be read. -/
lemma sound_documentType : documentType.Sound where
  name := by decide
  lines := by decide +kernel

/-- The whole file is written as its root element behind the prologue. -/
lemma render_eq (messages : List Message) :
    render messages = String.ofList
      (documentType.prologue ++ ((rootElement messages "").print ++ ['\n'])) := by
  have root : Writes (fun w => (messages.foldl (Xtb.writeMessage messageName)
      (w.startTag rootName)).endTag rootName) fun indent => [rootElement messages indent] :=
    (Markup.Writer.writes_foldl fun m _ => Xtb.writes_message messageName m).block
      (by exact List.nodup_nil) rootName
  have start : ({} : Markup.Writer).raw preamble = { output := preamble } := by
    rw [Markup.Writer.raw, String.empty_append]
  rw [String.ofList_append, ← preamble_eq, render, writeFile, start]
  exact root.output preamble

/-- The root element is sound when all messages and their notes can be held. -/
lemma sound_rootElement {messages : List Message} (hm : ∀ m ∈ messages, m.HasText)
    (hn : ∀ m ∈ messages, Xtb.HasLineNotes m) : (rootElement messages "").Sound := by
  have tag : (WrittenTag.of rootName []).Sound :=
    WrittenTag.sound_of_keys [] (by decide) rfl (by decide) nofun
  exact Xtb.sound_messages tag (by decide) hm hn

end Xmb

/-! ## Both formats -/

/-- Elements that describe the same messages are the same but for names and places. -/
lemma forall₂_sameContent {element element' : String} {messages : List Message}
    {es es' : List Element} (h : List.Forall₂ (Describes element) messages es)
    (h' : List.Forall₂ (Describes element') messages es') : List.Forall₂ SameContent es es' := by
  induction h generalizing es' with
  | nil =>
    cases h'
    exact .nil
  | cons first _ ih =>
    cases h' with
    | cons first' later' =>
      exact .cons ⟨first.attributes.trans first'.attributes.symm,
        first.content.trans first'.content.symm⟩ (ih later')

/-- Files with the same messages can be read as documents in both formats. Below their root elements
there is nothing but descriptions of the messages, one by one and in order, and these are the same
in both. -/
theorem xmb_describes_xtb_messages {locale : String} (hl : Markup.isXmlText locale = true)
    {messages : List Message} (hm : ∀ m ∈ messages, m.HasText)
    (hn : ∀ m ∈ messages, Xtb.HasLineNotes m) (isTarget : Bool) :
    ∃ xmb xtb, Markup.read (FileFormat.render .xmb messages locale isTarget) = .ok xmb ∧
      Markup.read (FileFormat.render .xtb messages locale isTarget) = .ok xtb ∧
      DescribesAll Xmb.rootName Xmb.messageName messages xmb ∧
      DescribesAll Xtb.rootName Xtb.messageName messages xtb ∧
      List.Forall₂ SameContent (xmb.childrenNamed Xmb.messageName)
        (xtb.childrenNamed Xtb.messageName) := by
  let xmb := (Xmb.rootElement messages "").toElement (Text.byteLength Xmb.documentType.prologue)
  let xtb := (Xtb.rootElement locale messages "").toElement
    (Text.byteLength Xtb.documentType.prologue)
  have readsXmb : Markup.read (FileFormat.render .xmb messages locale isTarget) = .ok xmb := by
    change Markup.read (Xmb.render messages) = _
    rw [Xmb.render_eq]
    exact Markup.read_prologue_print Xmb.sound_documentType (Xmb.sound_rootElement hm hn)
  have readsXtb : Markup.read (FileFormat.render .xtb messages locale isTarget) = .ok xtb := by
    change Markup.read (Xtb.render messages locale) = _
    rw [Xtb.render_eq]
    exact Markup.read_prologue_print Xtb.sound_documentType
      (Xtb.sound_rootElement_of_hasText hl hm hn)
  have inXmb : DescribesAll Xmb.rootName Xmb.messageName messages xmb :=
    Xtb.describesAll_block (.of Xmb.rootName []) Xmb.messageName hm hn _
  have inXtb : DescribesAll Xtb.rootName Xtb.messageName messages xtb :=
    Xtb.describesAll_block (.of Xtb.rootName [("lang", some locale)]) Xtb.messageName hm hn _
  exact ⟨xmb, xtb, readsXmb, readsXtb, inXmb, inXtb,
    forall₂_sameContent inXmb.messages inXtb.messages⟩

/-- A message without an id, with a placeholder without a name. -/
def nameless : Message where
  parts := ["", " & "]
  placeholderNames := [""]
  description := "Shown \"once\""

/-- Two messages under one id, neither of which any reader takes, in a locale with a tab. -/
theorem xmb_describes_xtb_messages_nameless :
    ∃ xmb xtb, Markup.read (FileFormat.render .xmb [nameless, nameless] "a\tb" true) = .ok xmb ∧
      Markup.read (FileFormat.render .xtb [nameless, nameless] "a\tb" true) = .ok xtb ∧
      DescribesAll "messagebundle" "msg" [nameless, nameless] xmb ∧
      DescribesAll "translationbundle" "translation" [nameless, nameless] xtb ∧
      List.Forall₂ SameContent (xmb.childrenNamed "msg") (xtb.childrenNamed "translation") := by
  have text : nameless.HasText := ⟨by decide, by decide, by decide⟩
  have notes : Xtb.HasLineNotes nameless := ⟨by decide, by decide⟩
  exact xmb_describes_xtb_messages (by decide)
    (List.forall_mem_cons.2 ⟨text, List.forall_mem_singleton.2 text⟩)
    (List.forall_mem_cons.2 ⟨notes, List.forall_mem_singleton.2 notes⟩) true

end FileFormat

end MessageCatalog
