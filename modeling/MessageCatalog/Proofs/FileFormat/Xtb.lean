import MessageCatalog.FileFormat.Render
import MessageCatalog.Proofs.FileFormat.Content
import MessageCatalog.Proofs.Loader
import MessageCatalog.Proofs.Markup.Prologue

/-!
# XTB files are read as they were written

What is written denotes one element behind a prologue: a bundle with an element for each message,
whose notes are attributes.
-/

namespace MessageCatalog.FileFormat.Xtb

open Markup (WrittenTag WrittenElement)
open Markup.Writer (Writes Puts)

/-! ## The written elements -/

/-- The document type of a bundle. -/
def documentType : Markup.WrittenType where
  name := rootName
  lines :=
    ["<!ELEMENT translationbundle (translation)*>\n",
      "<!ATTLIST translationbundle lang CDATA #REQUIRED>\n",
      "\n",
      "<!ELEMENT translation (#PCDATA|ph)*>\n",
      "<!ATTLIST translation id CDATA #REQUIRED>\n",
      "<!ATTLIST translation desc CDATA #IMPLIED>\n",
      "<!ATTLIST translation meaning CDATA #IMPLIED>\n",
      "<!ATTLIST translation xml:space (default|preserve) \"default\">\n",
      "\n",
      "<!ELEMENT ph (#PCDATA|ex)*>\n",
      "<!ATTLIST ph name CDATA #REQUIRED>\n",
      "\n",
      "<!ELEMENT ex (#PCDATA)>\n"]

/-- What stands for a placeholder. -/
def placeholderTag (_index : Nat) (name : String) : WrittenTag := .of "ph" [("name", some name)]

/-- The tag of a message that is written as an element with this name. -/
def messageTag (element : String) (m : Message) : WrittenTag :=
  .of element [("id", some m.id), ("desc", some m.description), ("meaning", some m.meaning)]

/-- The element of a message. -/
def messageElement (element : String) (m : Message) : WrittenElement :=
  ⟨messageTag element m, m.mixed placeholderTag⟩

/-- The root element. -/
def rootElement (locale : String) (messages : List Message) (indent : String) : WrittenElement :=
  .block (.of rootName [("lang", some locale)])
    (fun _ => messages.map (messageElement messageName)) indent

/-! ## Writing -/

/-- No element has two attributes with one name. -/
lemma distinct_messageKeys : ["id", "desc", "meaning"].Nodup := by decide

/-- The lines before the root element are a prologue with a document type. -/
lemma preamble_eq : preamble = String.ofList documentType.prologue := by
  have start : "<!DOCTYPE " ++ documentType.name ++ " [\n" = "<!DOCTYPE translationbundle [\n" := by
    decide
  rw [documentType.ofList_prologue, start, if_neg (by exact Bool.false_ne_true)]
  delta preamble
  simp only [documentType, String.join_cons, String.join_nil, String.append_assoc,
    String.empty_append]

/-- A placeholder is put as a tag that closes itself. -/
lemma puts_placeholder (index : Nat) (name : String) :
    Puts (writePlaceholder · index name) ((placeholderTag index name).opening ++ ['/', '>']) :=
  Markup.Writer.puts_leaf (by exact (by decide : ["name"].Nodup)) "ph"

/-- A message is written as one element. -/
lemma writes_message (element : String) (m : Message) :
    Writes (writeMessage element · m) fun _ => [messageElement element m] :=
  Writes.preserved (m.puts_writeContent puts_placeholder) (by exact distinct_messageKeys) element

/-- A file is written as one root element. -/
lemma writes_root (locale : String) (messages : List Message) :
    Writes (fun w => (messages.foldl (writeMessage messageName)
        (w.startTag rootName [("lang", some locale)])).endTag rootName)
      fun indent => [rootElement locale messages indent] :=
  (Markup.Writer.writes_foldl fun m _ => writes_message messageName m).block
    (by exact (by decide : ["lang"].Nodup)) rootName

/-- The whole file is written as its root element behind the prologue. -/
lemma render_eq (messages : List Message) (locale : String) :
    render messages locale = String.ofList
      (documentType.prologue ++ ((rootElement locale messages "").print ++ ['\n'])) := by
  have start : ({} : Markup.Writer).raw preamble = { output := preamble } := by
    rw [Markup.Writer.raw, String.empty_append]
  rw [String.ofList_append, ← preamble_eq, render, writeFile, start]
  exact (writes_root locale messages).output preamble

/-! ## Soundness -/

/-- Whether the notes of a message are ones that attributes can hold. -/
def HasLineNotes (m : Message) : Prop :=
  Markup.isLineText m.description = true ∧ Markup.isLineText m.meaning = true

instance (m : Message) : Decidable (HasLineNotes m) := inferInstanceAs (Decidable (_ ∧ _))

/-- The document type is one that can be read. -/
lemma sound_documentType : documentType.Sound where
  name := by decide
  lines := by decide +kernel

/-- The tag of a placeholder is sound when its name is text on a line. -/
lemma sound_placeholderTag (index : Nat) {name : String} (h : Markup.isLineText name = true) :
    (placeholderTag index name).Sound :=
  WrittenTag.sound_of_keys ["name"] (by decide) rfl (by decide)
    (List.forall_mem_singleton.2 (Markup.isXmlText_of_isLineText h))

/-- The element of a message is sound when the message and its notes can be held. -/
lemma sound_messageElement {element : String} (he : Markup.isPlainName element = true) {m : Message}
    (hm : m.HasText) (hn : HasLineNotes m) : (messageElement element m).Sound := by
  have tag : (messageTag element m).Sound := by
    refine WrittenTag.sound_of_keys ["id", "desc", "meaning"] he rfl (by decide) ?_
    have lines : ∀ value ∈ [m.id, m.description, m.meaning], Markup.isLineText value = true :=
      List.forall_mem_cons.2 ⟨hm.id_text, List.forall_mem_cons.2 ⟨hn.1,
        List.forall_mem_singleton.2 hn.2⟩⟩
    exact fun value h => Markup.isXmlText_of_isLineText (lines value h)
  exact ⟨tag, Message.sound_mixed sound_placeholderTag hm⟩

/-- An element around messages is sound when its tag is. -/
lemma sound_messages {tag : WrittenTag} (ht : tag.Sound) {element : String}
    (he : Markup.isPlainName element = true) {messages : List Message}
    (hm : ∀ m ∈ messages, m.HasText) (hn : ∀ m ∈ messages, HasLineNotes m) :
    (WrittenElement.block tag (fun _ => messages.map (messageElement element)) "").Sound := by
  refine WrittenElement.sound_block ht nofun fun _ _ e h => ?_
  obtain ⟨m, hmem, rfl⟩ := List.mem_map.1 h
  exact sound_messageElement he (hm m hmem) (hn m hmem)

/-- The root element can be read whatever the locale is, and whether or not each message can. -/
lemma sound_rootElement_of_hasText {locale : String} (hl : Markup.isXmlText locale = true)
    {messages : List Message} (hm : ∀ m ∈ messages, m.HasText)
    (hn : ∀ m ∈ messages, HasLineNotes m) : (rootElement locale messages "").Sound := by
  have tag : (WrittenTag.of rootName [("lang", some locale)]).Sound :=
    WrittenTag.sound_of_keys ["lang"] (by decide) rfl (by decide)
      (List.forall_mem_singleton.2 hl)
  exact sound_messages tag (by decide) hm hn

/-- The root element is sound when the locale, the messages and their notes can be held. -/
lemma sound_rootElement {locale : String} (hl : Markup.isLineText locale = true)
    {messages : List Message} (hm : ∀ m ∈ messages, m.Ready)
    (hn : ∀ m ∈ messages, HasLineNotes m) : (rootElement locale messages "").Sound :=
  sound_rootElement_of_hasText (Markup.isXmlText_of_isLineText hl) (fun m h => (hm m h).hasText) hn

/-! ## Reading -/

/-- The rules of the format find the names of the placeholders that are written. -/
lemma finds_placeholders : Content.Finds rules placeholderTag "name" where
  role _ _ := rfl
  name index name start stop hne hname :=
    Markup.attribute?_of_some (by exact (by decide : ["name"].Nodup)) (by decide) hname
      (by exact Text.unlessEmpty_of_ne hne) "ph" start stop

/-- The attributes of a message element are read as what they were written for. -/
lemma attribute?_messageElement {m : Message} (hm : m.Ready) (hn : HasLineNotes m) (start : Nat) :
    let e := (messageElement messageName m).toElement start
    e.attribute? "id" = some m.id ∧ e.attribute? "desc" = Text.unlessEmpty m.description ∧
      e.attribute? "meaning" = Text.unlessEmpty m.meaning := by
  intro e
  have keys : (List.map Prod.fst [("id", some m.id), ("desc", some m.description),
      ("meaning", some m.meaning)]).Nodup := by
    exact distinct_messageKeys
  have note : ∀ {text value : String}, Markup.isLineText text = true →
      value ∈ Text.unlessEmpty text → Markup.isLineText value = true :=
    fun ht h => Text.eq_of_mem_unlessEmpty h ▸ ht
  refine ⟨?id, ?desc, ?meaning⟩
  case id =>
    exact Markup.attribute?_of_some keys (by decide) hm.id_text
      (by exact Text.unlessEmpty_of_ne hm.id_ne) messageName _ _
  case desc =>
    exact Markup.attribute?_of keys (by decide) (by exact fun value h => note hn.1 h)
      messageName _ _
  case meaning =>
    exact Markup.attribute?_of keys (by decide) (by exact fun value h => note hn.2 h)
      messageName _ _

variable (file : FileText)

/-- A message element is read as its message. -/
lemma readMessage_messageElement {done : List Message} {m : Message} (hm : m.Ready)
    (hn : HasLineNotes m) (hnew : m.id ∉ done.map Message.id) (start : Nat) :
    readMessage file (Message.listed Message.annotated done)
        ((messageElement messageName m).toElement start) =
      .ok (Message.listed Message.annotated (done ++ [m])) := by
  obtain ⟨hid, hdesc, hmeaning⟩ := attribute?_messageElement hm hn start
  have id :
      file.requiredAttribute ((messageElement messageName m).toElement start).tag "id" = .ok m.id :=
    FileText.requiredAttribute_of_some hid
  have content :
      Content.read rules file ((messageElement messageName m).toElement start) = .ok m.replayed :=
    Content.read_mixed finds_placeholders hm _ _
  have new : (Message.listed Message.annotated done).contains m.id = false :=
    Message.contains_listed hnew
  rw [readMessage, id]
  dsimp only [bind, Except.bind]
  rw [new, if_neg Bool.false_ne_true, content, hdesc, hmeaning]
  exact congrArg Except.ok (Message.insert_listed hnew)

/-- Below an element that was written around messages there is nothing but their elements. -/
lemma children_messages (tag : WrittenTag) (element : String) (messages : List Message)
    (start : Nat) :
    let root := (WrittenElement.block tag
      (fun _ => messages.map (messageElement element)) "").toElement start
    ∃ lead first, root.childrenNamed element =
        Markup.placed lead first (messages.map (messageElement element)) ∧
      root.childElements = root.childrenNamed element := by
  intro root
  obtain ⟨lead, first, inside⟩ := Markup.childElements_block tag
    (fun _ => messages.map (messageElement element)) "" start
  have named : root.childElements.filter (·.name = element) = root.childElements := by
    rw [List.filter_eq_self, inside]
    intro e h
    obtain ⟨written, hw, place, rfl⟩ := Markup.mem_placed h
    obtain ⟨m, -, rfl⟩ := List.mem_map.1 hw
    exact decide_eq_true rfl
  exact ⟨lead, first, named.trans inside, named.symm⟩

/-- The messages of a written file are right below its root element. -/
lemma childrenNamed_rootElement (locale : String) (messages : List Message) (start : Nat) :
    ∃ lead first, ((rootElement locale messages "").toElement start).childrenNamed messageName =
      Markup.placed lead first (messages.map (messageElement messageName)) := by
  obtain ⟨lead, first, children, -⟩ := children_messages (.of rootName [("lang", some locale)])
    messageName messages start
  exact ⟨lead, first, children⟩

/-! ## Loading -/

/-- What is read of a written file. -/
lemma read_rootElement {locale : String} (hl : Markup.isLineText locale = true)
    {messages : List Message} (hids : (messages.map Message.id).Nodup)
    (hm : ∀ m ∈ messages, m.Ready) (hn : ∀ m ∈ messages, HasLineNotes m) (start : Nat) :
    read file (some (.markup ((rootElement locale messages "").toElement start))) = .ok {
      locale := Text.unlessEmpty locale
      translations := Message.listed Message.annotated messages } := by
  obtain ⟨lead, first, children⟩ := childrenNamed_rootElement locale messages start
  have language : ((rootElement locale messages "").toElement start).attribute? "lang" =
      Text.unlessEmpty locale := by
    refine Markup.attribute?_of (by exact (by decide : ["lang"].Nodup)) (by decide) ?_ rootName _ _
    exact fun value h => Text.eq_of_mem_unlessEmpty h ▸ hl
  have nothing : (∅ : OrderedMap String Translation) = Message.listed Message.annotated [] := rfl
  have reads : Markup.Reads (readMessage file) (messages.map (messageElement messageName))
      (Message.listed Message.annotated []) (Message.listed Message.annotated messages) :=
    reads_messages (fun _ m h hnew => readMessage_messageElement file (hm m h) (hn m h) hnew) hids
  rw [read, FileText.markupOf_some]
  dsimp only [bind, Except.bind]
  rw [children, nothing, reads, language]
  rfl

/-- A written file with one of the two extensions is loaded with its locale and, in the same order,
its messages: each has the content that it says, and its notes unless they are empty. -/
theorem load_render_xtb {path : String}
    (hpath : Path.extension? path = some "xtb" ∨ Path.extension? path = some "xmb")
    {locale : String} (hl : Markup.isLineText locale = true) {messages : List Message}
    (hids : (messages.map Message.id).Nodup) (hm : ∀ m ∈ messages, m.Ready)
    (hn : ∀ m ∈ messages, HasLineNotes m) (isTarget : Bool) (ds : Diagnostics) :
    Loader.load ⟨path, FileFormat.render .xtb messages locale isTarget⟩ ds =
      (some {
        locale := Text.unlessEmpty locale
        translations := Message.listed Message.annotated messages
        sources := none }, ds) := by
  let file : FileText := ⟨path, FileFormat.render .xtb messages locale isTarget⟩
  let root := (rootElement locale messages "").toElement
    (Text.byteLength documentType.prologue)
  have reads : Markup.read file.contents = .ok root := by
    change Markup.read (render messages locale) = _
    rw [render_eq]
    exact Markup.read_prologue_print sound_documentType (sound_rootElement hl hm hn)
  -- The readers of the other formats ask for another root element.
  have name : root.name ≠ "xliff" := by
    change rootName ≠ "xliff"
    decide
  have notNewer : (Xliff2.analyze file).Rejects := FileText.analyzeMarkup_rejectRoot reads name
  have notOlder : (Xliff1.analyze file).Rejects := FileText.analyzeMarkup_rejectRoot reads name
  have accepts : analyze file = .accept (.markup root) := by
    have document : file.analyzeMarkup rootName [] = .accept (.markup root) :=
      FileText.analyzeMarkup_accept reads rfl nofun
    rw [analyze]
    rcases hpath with h | h <;> rw [h] <;> exact document
  exact Loader.loadWith_of_accept [.xliff2, .xliff1] .xtb [.json]
    (List.forall_mem_cons.2 ⟨notNewer, List.forall_mem_singleton.2 notOlder⟩) accepts
    (read_rootElement file hl hids hm hn _) rfl

/-- Two messages with their notes are loaded in their order. -/
theorem load_greetings_xtb :
    (Message.greetings.map Message.id).Nodup ∧
      Loader.load ⟨"fr.xtb", FileFormat.render .xtb Message.greetings "fr" true⟩ [] =
        (some {
          locale := some "fr"
          translations := Message.listed Message.annotated Message.greetings
          sources := none }, []) := by
  have ids : (Message.greetings.map Message.id).Nodup := by decide
  have ready : ∀ m ∈ Message.greetings, m.Ready := by decide
  have notes : ∀ m ∈ Message.greetings, HasLineNotes m := by decide
  exact ⟨ids, load_render_xtb (.inl (by decide)) (by decide) ids ready notes true []⟩

end MessageCatalog.FileFormat.Xtb
