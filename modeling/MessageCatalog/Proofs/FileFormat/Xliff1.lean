import MessageCatalog.FileFormat.Render
import MessageCatalog.Proofs.FileFormat.Content
import MessageCatalog.Proofs.Loader

/-!
# XLIFF 1.2 files are read as they were written

What is written denotes one element: a file with a unit for each message. What is read of it are
the units in order, each with its texts and its notes.
-/

namespace MessageCatalog.FileFormat.Xliff1

open Markup (WrittenTag WrittenElement)
open Markup.Writer (Writes Puts)

/-! ## The written elements -/

/-- What stands for a placeholder. -/
def placeholderTag (_index : Nat) (name : String) : WrittenTag := .of "x" [("id", some name)]

/-- The element with the content of a message. -/
def textElement (element : String) (m : Message) : WrittenElement :=
  ⟨.of element [], m.mixed placeholderTag⟩

/-- The element of a note. -/
def noteElement (kind value : String) : WrittenElement :=
  ⟨.of "note" [("priority", some "1"), ("from", some kind)], .text value⟩

/-- The element of a note, unless that is empty. -/
def noteElements (kind value : String) : List WrittenElement :=
  if value.isEmpty then [] else [noteElement kind value]

/-- The elements inside a unit. -/
def unitElements (isTarget : Bool) (m : Message) : List WrittenElement :=
  (if isTarget then [] else [textElement "source" m]) ++
    ([textElement "target" m] ++
      (noteElements "description" m.description ++ noteElements "meaning" m.meaning))

/-- The element of a unit. -/
def unitElement (isTarget : Bool) (indent : String) (m : Message) : WrittenElement :=
  .block (.of "trans-unit" [("id", some m.id), ("datatype", some "html")])
    (fun _ => unitElements isTarget m) indent

/-- The element of the body. -/
def bodyElement (isTarget : Bool) (messages : List Message) (indent : String) : WrittenElement :=
  .block (.of "body" []) (fun inner => messages.map (unitElement isTarget inner)) indent

/-- The element of the file. -/
def fileElement (isTarget : Bool) (locale : String) (messages : List Message) (indent : String) :
    WrittenElement :=
  .block (.of "file" [("source-language", if isTarget then none else some locale),
      ("target-language", some locale), ("datatype", some "plaintext")])
    (fun inner => [bodyElement isTarget messages inner]) indent

/-- The root element. -/
def rootElement (isTarget : Bool) (locale : String) (messages : List Message) (indent : String) :
    WrittenElement :=
  .block (.of "xliff" [("version", some version), ("xmlns", some xmlns)])
    (fun inner => [fileElement isTarget locale messages inner]) indent

/-! ## Writing -/

/-- No element has two attributes with one name. -/
lemma distinct_rootKeys : ["version", "xmlns"].Nodup := by decide

/-- The attributes of a file element have different names. -/
lemma distinct_fileKeys : ["source-language", "target-language", "datatype"].Nodup := by decide

/-- The attributes of a unit have different names. -/
lemma distinct_unitKeys : ["id", "datatype"].Nodup := by decide

/-- The attributes of a note have different names. -/
lemma distinct_noteKeys : ["priority", "from"].Nodup := by decide

/-- A placeholder is put as a tag that closes itself. -/
lemma puts_placeholder (index : Nat) (name : String) :
    Puts (writePlaceholder · index name) ((placeholderTag index name).opening ++ ['/', '>']) :=
  Markup.Writer.puts_leaf (by exact List.nodup_cons.2 ⟨nofun, .nil⟩) "x"

/-- The content of a message is written as one element. -/
lemma writes_text (element : String) (m : Message) :
    Writes (writeText · element m) fun _ => [textElement element m] :=
  Writes.preserved (m.puts_writeContent puts_placeholder) (by exact .nil) element

/-- A note is written as one element, or as none when it is empty. -/
lemma writes_note (kind value : String) :
    Writes (writeNote · kind value) fun _ => noteElements kind value := by
  by_cases h : value.isEmpty = true
  · have nothing : (writeNote · kind value) = fun w => w := by
      funext w
      exact if_pos h
    rw [nothing, noteElements, if_pos h]
    exact Markup.Writer.writes_nothing
  · have note : (writeNote · kind value) = fun w =>
        ((w.startTag "note" [("priority", some "1"), ("from", some kind)]
          { preserve := some true }).text value).endTag "note" { preserve := some false } := by
      funext w
      exact if_neg h
    rw [note, noteElements, if_neg h]
    exact Writes.preserved (m := .text value) (Markup.Writer.puts_text value)
      (by exact distinct_noteKeys) "note"

/-- The inside of a unit is written as its texts and its notes. -/
lemma writes_unitElements (isTarget : Bool) (m : Message) :
    Writes
      (fun w => writeNote (writeNote (writeText (if isTarget then w else writeText w "source" m)
        "target" m) "description" m.description) "meaning" m.meaning)
      fun _ => unitElements isTarget m := by
  have source : Writes (fun w => if isTarget then w else writeText w "source" m)
      fun _ => if isTarget then [] else [textElement "source" m] := by
    cases isTarget with
    | true => exact Markup.Writer.writes_nothing
    | false => exact writes_text "source" m
  have target := writes_text "target" m
  have notes := (writes_note "description" m.description).comp (writes_note "meaning" m.meaning)
  exact source.comp (target.comp notes)

/-- A message is written as one unit. -/
lemma writes_unit (isTarget : Bool) (m : Message) :
    Writes (writeUnit isTarget · m) fun indent => [unitElement isTarget indent m] :=
  (writes_unitElements isTarget m).block
    (by exact distinct_unitKeys) "trans-unit"

/-- Messages are written as the units of one body. -/
lemma writes_body (isTarget : Bool) (messages : List Message) :
    Writes (fun w => (messages.foldl (writeUnit isTarget) (w.startTag "body")).endTag "body")
      fun indent => [bodyElement isTarget messages indent] :=
  (Markup.Writer.writes_foldl fun m _ => writes_unit isTarget m).block (by exact .nil) "body"

/-- A file is written as one root element. -/
lemma writes_root (isTarget : Bool) (locale : String) (messages : List Message) :
    Writes (fun w => (((messages.foldl (writeUnit isTarget)
        (((w.startTag "xliff" [("version", some version), ("xmlns", some xmlns)]).startTag "file"
          [("source-language", if isTarget then none else some locale),
            ("target-language", some locale), ("datatype", some "plaintext")]).startTag
          "body")).endTag "body").endTag "file").endTag "xliff")
      fun indent => [rootElement isTarget locale messages indent] :=
  ((writes_body isTarget messages).block
    (by exact distinct_fileKeys) "file").block
    (by exact distinct_rootKeys) "xliff"

/-- The whole file is written as its root element. -/
lemma render_eq (messages : List Message) (locale : String) (isTarget : Bool) :
    render messages locale isTarget =
      String.ofList ((rootElement isTarget locale messages "").print ++ ['\n']) := by
  have output := (writes_root isTarget locale messages).output ""
  rw [String.empty_append] at output
  exact output

/-! ## Soundness -/

/-- Whether the notes of a message are ones that a file can hold. -/
def HasNotes (m : Message) : Prop :=
  Markup.isPlainText m.description = true ∧ Markup.isPlainText m.meaning = true

instance (m : Message) : Decidable (HasNotes m) := inferInstanceAs (Decidable (_ ∧ _))

/-- The tag of a placeholder is sound when its name is text on a line. -/
lemma sound_placeholderTag (index : Nat) {name : String} (h : Markup.isLineText name = true) :
    (placeholderTag index name).Sound :=
  WrittenTag.sound_of_keys ["id"] (by decide) rfl (by decide)
    (List.forall_mem_cons.2 ⟨Markup.isXmlText_of_isLineText h, nofun⟩)

/-- The element of a text is sound when the strings of the message can be held. -/
lemma sound_textElement {element : String} (he : Markup.isPlainName element = true) {m : Message}
    (hm : m.HasText) : (textElement element m).Sound :=
  ⟨WrittenTag.sound_of_keys [] he rfl rfl nofun, Message.sound_mixed sound_placeholderTag hm⟩

/-- A note is sound when its kind and its text can be held. -/
lemma sound_noteElements {kind value : String} (hk : Markup.isXmlText kind = true)
    (hv : Markup.isPlainText value = true) : ∀ e ∈ noteElements kind value, e.Sound := by
  intro e m
  rw [noteElements] at m
  split at m
  · cases m
  · cases List.mem_singleton.1 m
    refine ⟨WrittenTag.sound_of_keys ["priority", "from"] (by decide) rfl (by decide) ?_, hv⟩
    exact List.forall_mem_cons.2 ⟨by decide, List.forall_mem_cons.2 ⟨hk, nofun⟩⟩

/-- The elements in a unit are sound when the message and its notes can be held. -/
lemma sound_unitElements (isTarget : Bool) {m : Message} (hm : m.HasText) (hn : HasNotes m) :
    ∀ e ∈ unitElements isTarget m, e.Sound := by
  intro e h
  rw [unitElements, List.mem_append, List.mem_append, List.mem_append, List.mem_singleton] at h
  rcases h with source | rfl | description | meaning
  · cases isTarget with
    | true => cases source
    | false =>
      cases List.mem_singleton.1 source
      exact sound_textElement (by decide) hm
  · exact sound_textElement (by decide) hm
  · exact sound_noteElements (by decide) hn.1 e description
  · exact sound_noteElements (by decide) hn.2 e meaning

/-- A unit is sound when the message and its notes can be held. -/
lemma sound_unitElement (isTarget : Bool) {m : Message} (hm : m.HasText) (hn : HasNotes m)
    {indent : String} (hi : Markup.IsIndent indent) : (unitElement isTarget indent m).Sound := by
  have tag : (WrittenTag.of "trans-unit" [("id", some m.id), ("datatype", some "html")]).Sound := by
    refine WrittenTag.sound_of_keys ["id", "datatype"] (by decide) rfl (by decide) ?_
    exact List.forall_mem_cons.2 ⟨Markup.isXmlText_of_isLineText hm.id_text,
      List.forall_mem_cons.2 ⟨by decide, nofun⟩⟩
  exact WrittenElement.sound_block tag hi fun _ _ => sound_unitElements isTarget hm hn

/-- A body is sound when all messages and their notes can be held. -/
lemma sound_bodyElement (isTarget : Bool) {messages : List Message}
    (hm : ∀ m ∈ messages, m.HasText) (hn : ∀ m ∈ messages, HasNotes m) {indent : String}
    (hi : Markup.IsIndent indent) : (bodyElement isTarget messages indent).Sound := by
  have tag : (WrittenTag.of "body" []).Sound :=
    WrittenTag.sound_of_keys [] (by decide) rfl rfl nofun
  refine WrittenElement.sound_block tag hi fun inner hinner e h => ?_
  obtain ⟨m, hmem, rfl⟩ := List.mem_map.1 h
  exact sound_unitElement isTarget (hm m hmem) (hn m hmem) hinner

/-- A file element is sound when its locale and all messages can be held. -/
lemma sound_fileElement (isTarget : Bool) {locale : String}
    (hl : Markup.isLineText locale = true) {messages : List Message}
    (hm : ∀ m ∈ messages, m.HasText) (hn : ∀ m ∈ messages, HasNotes m) {indent : String}
    (hi : Markup.IsIndent indent) : (fileElement isTarget locale messages indent).Sound := by
  have hx := Markup.isXmlText_of_isLineText hl
  have tag : (WrittenTag.of "file" [("source-language", if isTarget then none else some locale),
      ("target-language", some locale), ("datatype", some "plaintext")]).Sound := by
    refine WrittenTag.sound_of_keys ["source-language", "target-language", "datatype"] (by decide)
      rfl (by decide) ?_
    have shared : ∀ value ∈ [locale, "plaintext"], Markup.isXmlText value = true :=
      List.forall_mem_cons.2 ⟨hx, List.forall_mem_cons.2 ⟨by decide, nofun⟩⟩
    cases isTarget with
    | true => exact shared
    | false => exact List.forall_mem_cons.2 ⟨hx, shared⟩
  refine WrittenElement.sound_block tag hi fun inner hinner e h => ?_
  rw [List.mem_singleton.1 h]
  exact sound_bodyElement isTarget hm hn hinner

/-- What is written can be read as markup, whether or not it is read as the messages. -/
lemma sound_rootElement_of_hasText (isTarget : Bool) {locale : String}
    (hl : Markup.isLineText locale = true) {messages : List Message}
    (hm : ∀ m ∈ messages, m.HasText) (hn : ∀ m ∈ messages, HasNotes m) :
    (rootElement isTarget locale messages "").Sound := by
  have tag : (WrittenTag.of "xliff" [("version", some version), ("xmlns", some xmlns)]).Sound := by
    refine WrittenTag.sound_of (by decide) (by exact distinct_rootKeys)
      (by exact (by decide : ∀ key ∈ ["version", "xmlns"], Markup.isPlainName key = true))
      (by exact (by decide : ∀ value ∈ [version, xmlns], Markup.isXmlText value = true)) ?_
    intro value h
    have hv : value = xmlns := by simpa using h
    rw [hv]
    decide
  refine WrittenElement.sound_block tag nofun fun inner hinner e h => ?_
  rw [List.mem_singleton.1 h]
  exact sound_fileElement isTarget hl hm hn hinner

/-- The root element is sound when the messages can be read again and their notes can be held. -/
lemma sound_rootElement (isTarget : Bool) {locale : String} (hl : Markup.isLineText locale = true)
    {messages : List Message} (hm : ∀ m ∈ messages, m.Ready) (hn : ∀ m ∈ messages, HasNotes m) :
    (rootElement isTarget locale messages "").Sound :=
  sound_rootElement_of_hasText isTarget hl (fun m h => (hm m h).hasText) hn

/-! ## Reading -/

/-- What has been read when these units have been. -/
def held (isTarget : Bool) (locale : String) (messages : List Message) : Contents where
  locale := Text.unlessEmpty locale
  translations := Message.listed Message.annotated messages
  sources := if isTarget then ∅ else Message.listed Message.replayed messages

variable (file : FileText)

/-- Nodes are read one element after the other. -/
lemma readNodes_eq_foldlM (c : Contents) (nodes : List Markup.Node) :
    readNodes file c nodes = (nodes.filterMap Markup.Node.element?).foldlM
      (fun c e => readNode file c (.element e.tag e.children)) c := by
  refine Markup.eq_foldlM_elements (fun _ => rfl) (fun _ _ _ => rfl) (fun c node h => ?_) c nodes
  cases node with
  | element => cases h
  | _ => rfl

/-- The rules of the format find the names of the placeholders that are written. -/
lemma finds_placeholders : Content.Finds rules placeholderTag "id" where
  role _ _ := rfl
  name index name start stop hne hname :=
    Markup.attribute?_of_some (by exact (by decide : ["id"].Nodup)) (by decide) hname
      (by exact Text.unlessEmpty_of_ne hne) "x" start stop

/-- A text element is read as the content of its message. -/
lemma read_textElement (element : String) {m : Message} (hm : m.Ready) (start : Nat) :
    Content.read rules file ((textElement element m).toElement start) = .ok m.replayed :=
  Content.read_mixed finds_placeholders hm _ _

/-- The source that was written is read with the content of the message. -/
lemma addChild_source {m : Message} (hm : m.Ready) (u : UnitParts) (start : Nat) :
    u.addChild file ((textElement "source" m).toElement start) =
      .ok { u with source := some m.replayed } := by
  change (do return { u with source := some (← Content.read rules file _) }) = _
  rw [read_textElement file "source" hm]
  rfl

/-- The target that was written is read with the content of the message. -/
lemma addChild_target {m : Message} (hm : m.Ready) (u : UnitParts) (start : Nat) :
    u.addChild file ((textElement "target" m).toElement start) =
      .ok { u with target := some m.replayed } := by
  change (do return { u with target := some (← Content.read rules file _) }) = _
  rw [read_textElement file "target" hm]
  rfl

/-- A note holds its text, and it says what it is about. -/
lemma textContent_noteElement (kind value : String) (start : Nat) :
    ((noteElement kind value).toElement start).textContent = value := by
  change Markup.textOf (Markup.textNodes value) = value
  rw [Markup.textNodes]
  split
  case isTrue empty => exact (String.isEmpty_iff.1 empty).symm
  case isFalse => exact String.append_empty

/-- A note is read with the kind that it was written with. -/
lemma from_noteElement {kind : String} (hne : kind ≠ "") (hk : Markup.isLineText kind = true)
    (value : String) (start : Nat) :
    ((noteElement kind value).toElement start).attribute? "from" = some kind :=
  Markup.attribute?_of_some (by exact distinct_noteKeys) (by decide) hk
    (by exact Text.unlessEmpty_of_ne hne) "note" _ _

/-- A note is taken in as what it is about, and an empty one says nothing. -/
lemma addNote_description (u : UnitParts) {note : Markup.Element}
    (h : note.attribute? "from" = some "description") :
    u.addNote note =
      { u with description := (Text.unlessEmpty note.textContent).or u.description } := by
  rw [UnitParts.addNote, h, Text.unlessEmpty]
  split
  case isTrue => rfl
  case isFalse => rfl

/-- A note about the meaning is the meaning, unless it is empty. -/
lemma addNote_meaning (u : UnitParts) {note : Markup.Element}
    (h : note.attribute? "from" = some "meaning") :
    u.addNote note = { u with meaning := (Text.unlessEmpty note.textContent).or u.meaning } := by
  rw [UnitParts.addNote, h, Text.unlessEmpty]
  split
  case isTrue => rfl
  case isFalse => rfl

/-- An empty note is not written, so reading what is written takes in what the note would add. -/
lemma reads_noteElements {kind value : String} (hne : kind ≠ "")
    (hk : Markup.isLineText kind = true) {u noted : UnitParts} (empty : value = "" → noted = u)
    (adds : ∀ note : Markup.Element, note.attribute? "from" = some kind →
      note.textContent = value → u.addNote note = noted) :
    Markup.Reads (UnitParts.addChild file) (noteElements kind value) u noted := by
  rw [noteElements]
  split
  case isTrue h =>
    rw [empty (String.isEmpty_iff.1 h)]
    exact .nil
  case isFalse =>
    refine .single fun start => ?_
    exact congrArg Except.ok
      (adds _ (from_noteElement hne hk value start) (textContent_noteElement kind value start))

/-- A description that was written is read as it was. -/
lemma reads_description (u : UnitParts) (value : String) :
    Markup.Reads (UnitParts.addChild file) (noteElements "description" value) u
      { u with description := (Text.unlessEmpty value).or u.description } := by
  refine reads_noteElements file (by decide) (by decide) ?_ ?_
  · rintro rfl
    rfl
  · rintro note hfrom rfl
    exact addNote_description u hfrom

/-- A meaning that was written is read as it was. -/
lemma reads_meaning (u : UnitParts) (value : String) :
    Markup.Reads (UnitParts.addChild file) (noteElements "meaning" value) u
      { u with meaning := (Text.unlessEmpty value).or u.meaning } := by
  refine reads_noteElements file (by decide) (by decide) ?_ ?_
  · rintro rfl
    rfl
  · rintro note hfrom rfl
    exact addNote_meaning u hfrom

/-- Inside a unit its texts and notes are read. -/
lemma reads_unitElements (isTarget : Bool) {m : Message} (hm : m.Ready) :
    Markup.Reads (UnitParts.addChild file) (unitElements isTarget m) {}
      { source := if isTarget then none else some m.replayed
        target := some m.replayed
        description := Text.unlessEmpty m.description
        meaning := Text.unlessEmpty m.meaning } := by
  have source : Markup.Reads (UnitParts.addChild file)
      (if isTarget then [] else [textElement "source" m]) {}
      { source := if isTarget then none else some m.replayed } := by
    cases isTarget with
    | true => exact .nil
    | false => exact .single (addChild_source file hm {})
  have target := Markup.Reads.single (addChild_target file hm
    { source := if isTarget then none else some m.replayed })
  have description := reads_description file
    { source := if isTarget then none else some m.replayed
      target := some m.replayed } m.description
  have meaning := reads_meaning file
    { source := if isTarget then none else some m.replayed
      target := some m.replayed
      description := Text.unlessEmpty m.description } m.meaning
  rw [Option.or_none] at description meaning
  exact source.append (target.append (description.append meaning))

/-- The target of a unit gives the translation, with the notes of the message. -/
lemma translation?_eq (m : Message) (source : Option Translation) :
    UnitParts.translation? ⟨source, some m.replayed, Text.unlessEmpty m.description,
      Text.unlessEmpty m.meaning⟩ = some m.annotated := by
  have noDescription : m.replayed.description = none := rfl
  have noMeaning : m.replayed.meaning = none := rfl
  rw [UnitParts.translation?, Option.some_or, Option.map_some, noDescription, noMeaning,
    Option.or_none, Option.or_none]
  rfl

/-- A unit is read as its message. -/
lemma readUnit_unitElement (isTarget : Bool) (locale indent : String) {done : List Message}
    {m : Message} (hm : m.Ready) (hnew : m.id ∉ done.map Message.id) (start : Nat) :
    readUnit file (held isTarget locale done) ((unitElement isTarget indent m).toElement start) =
      .ok (held isTarget locale (done ++ [m])) := by
  have id : file.requiredAttribute ((unitElement isTarget indent m).toElement start).tag "id" =
      .ok m.id :=
    FileText.requiredAttribute_of_some
      (Markup.attribute?_of_some (by exact distinct_unitKeys) (by decide)
        hm.id_text (by exact Text.unlessEmpty_of_ne hm.id_ne) "trans-unit" _ _)
  have new : (held isTarget locale done).translations.contains m.id = false :=
    Message.contains_listed hnew
  have parts : ((unitElement isTarget indent m).toElement start).childElements.foldlM
      (UnitParts.addChild file) {} = .ok
        { source := if isTarget then none else some m.replayed
          target := some m.replayed
          description := Text.unlessEmpty m.description
          meaning := Text.unlessEmpty m.meaning } :=
    Markup.Reads.inside_block (reads_unitElements file isTarget hm) start
  rw [readUnit, id]
  dsimp only [bind, Except.bind]
  rw [new, parts, if_neg Bool.false_ne_true]
  dsimp only
  rw [translation?_eq]
  have translations : (held isTarget locale done).translations.insert m.id m.annotated =
      Message.listed Message.annotated (done ++ [m]) := Message.insert_listed hnew
  have sources : (Message.listed Message.replayed done).insert m.id m.replayed =
      Message.listed Message.replayed (done ++ [m]) := Message.insert_listed hnew
  dsimp only
  rw [translations]
  -- a file of translations has no sources
  cases isTarget with
  | true => rfl
  | false =>
    exact congrArg (fun held => Except.ok (Contents.mk (Text.unlessEmpty locale)
      (Message.listed Message.annotated (done ++ [m])) held)) sources

/-- The units of a file are read as its messages. -/
lemma reads_units (isTarget : Bool) (locale indent : String) {messages : List Message}
    (hm : ∀ m ∈ messages, m.Ready) (hids : (messages.map Message.id).Nodup) :
    Markup.Reads (fun c e => readNode file c (.element e.tag e.children))
      (messages.map (unitElement isTarget indent)) (held isTarget locale [])
      (held isTarget locale messages) :=
  reads_messages (fun _ m h hnew start =>
    readUnit_unitElement file isTarget locale indent (hm m h) hnew start) hids

/-- Elements around the units are gone into. -/
lemma readNode_of_around {e : Markup.Element} (he : e.tag.name ≠ "trans-unit") (c : Contents) :
    readNode file c (.element e.tag e.children) = (e.children.filterMap Markup.Node.element?).foldlM
      (fun c e => readNode file c (.element e.tag e.children)) (c.enter e.tag) := by
  rw [readNode, if_neg he, readNodes_eq_foldlM]

/-- A body is read as the messages that were written. -/
lemma readNode_bodyElement (isTarget : Bool) (locale indent : String) {messages : List Message}
    (hm : ∀ m ∈ messages, m.Ready) (hids : (messages.map Message.id).Nodup) (start : Nat) :
    readNode file (held isTarget locale [])
      (.element ((bodyElement isTarget messages indent).toElement start).tag
        ((bodyElement isTarget messages indent).toElement start).children) =
      .ok (held isTarget locale messages) := by
  have name : ((bodyElement isTarget messages indent).toElement start).tag.name = "body" := rfl
  rw [readNode_of_around file (by rw [name]; decide), Contents.enter, if_neg (by rw [name]; decide)]
  exact Markup.Reads.inside_block (reads_units file isTarget locale _ hm hids) start

/-- A file element is read as the messages that were written, in its locale. -/
lemma readNode_fileElement (isTarget : Bool) {locale : String}
    (hl : Markup.isLineText locale = true) (indent : String) {messages : List Message}
    (hm : ∀ m ∈ messages, m.Ready) (hids : (messages.map Message.id).Nodup) (start : Nat) :
    readNode file {}
      (.element ((fileElement isTarget locale messages indent).toElement start).tag
        ((fileElement isTarget locale messages indent).toElement start).children) =
      .ok (held isTarget locale messages) := by
  have name : ((fileElement isTarget locale messages indent).toElement start).tag.name = "file" :=
    rfl
  have target : ((fileElement isTarget locale messages indent).toElement start).tag.attribute?
      "target-language" = Text.unlessEmpty locale := by
    have given : Markup.givenValue
        [("source-language", if isTarget then none else some locale),
          ("target-language", some locale), ("datatype", some "plaintext")] "target-language" =
        Text.unlessEmpty locale := rfl
    refine (Markup.attribute?_of (by exact distinct_fileKeys) (by decide) ?_ "file" _ _).trans given
    intro value h
    rw [given] at h
    rw [Text.eq_of_mem_unlessEmpty h]
    exact hl
  have enter :
      Contents.enter {} ((fileElement isTarget locale messages indent).toElement start).tag =
        held isTarget locale [] := by
    rw [Contents.enter, if_pos name, target]
    cases isTarget <;> rfl
  rw [readNode_of_around file (by rw [name]; decide), enter]
  exact Markup.Reads.inside_block
    (.single (readNode_bodyElement file isTarget locale _ hm hids)) start

/-- The content of the root element is read as the messages. -/
lemma readNodes_rootElement (isTarget : Bool) {locale : String}
    (hl : Markup.isLineText locale = true) {messages : List Message}
    (hm : ∀ m ∈ messages, m.Ready) (hids : (messages.map Message.id).Nodup) (start : Nat) :
    readNodes file {} ((rootElement isTarget locale messages "").toElement start).children =
      .ok (held isTarget locale messages) := by
  rw [readNodes_eq_foldlM]
  exact Markup.Reads.inside_block
    (.single (readNode_fileElement file isTarget hl _ hm hids)) start

/-! ## Loading -/

/-- The root element has the version of the format. -/
lemma version_rootElement (isTarget : Bool) (locale : String) (messages : List Message)
    (start : Nat) :
    ((rootElement isTarget locale messages "").toElement start).attribute? "version" =
      some version :=
  Markup.attribute?_of_some (by exact distinct_rootKeys) (by decide)
    (by decide) (by exact Text.unlessEmpty_of_ne (by decide : version ≠ "")) "xliff" _ _

/-- What is written of messages is accepted, whether or not it can be read. -/
lemma analyze_render (path : String) (isTarget : Bool) {locale : String}
    (hl : Markup.isLineText locale = true) {messages : List Message}
    (hm : ∀ m ∈ messages, m.HasText) (hn : ∀ m ∈ messages, HasNotes m) :
    analyze ⟨path, FileFormat.render .xliff1 messages locale isTarget⟩ =
      .accept (.markup ((rootElement isTarget locale messages "").toElement 0)) := by
  have reads : Markup.read (render messages locale isTarget) =
      .ok ((rootElement isTarget locale messages "").toElement 0) := by
    rw [render_eq]
    exact Markup.read_print (sound_rootElement_of_hasText isTarget hl hm hn)
  have version := version_rootElement isTarget locale messages 0
  exact FileText.analyzeMarkup_accept reads rfl (List.forall_mem_cons.2 ⟨version, nofun⟩)

/-- What is read of a written file. -/
lemma read_rootElement (isTarget : Bool) {locale : String} (hl : Markup.isLineText locale = true)
    {messages : List Message} (hm : ∀ m ∈ messages, m.Ready)
    (hids : (messages.map Message.id).Nodup) (start : Nat) :
    read file (some (.markup ((rootElement isTarget locale messages "").toElement start))) = .ok {
      locale := Text.unlessEmpty locale
      translations := Message.listed Message.annotated messages
      sources :=
        if isTarget || messages.isEmpty then none
        else some (Message.listed Message.replayed messages) } := by
  rw [read, FileText.markupOf_some]
  dsimp only [bind, Except.bind]
  rw [readNodes_rootElement file isTarget hl hm hids]
  cases isTarget with
  | true => rfl
  | false =>
    have empty : (held false locale messages).sources.isEmpty = messages.isEmpty :=
      Message.isEmpty_listed
    dsimp only
    rw [empty, Bool.false_or]
    rfl

/-- A written file is loaded with its locale and, in the same order, its messages: each has the
content that it says, and its notes unless they are empty. -/
theorem load_render_xliff1 (path : String) {locale : String} (hl : Markup.isLineText locale = true)
    {messages : List Message} (hids : (messages.map Message.id).Nodup)
    (hm : ∀ m ∈ messages, m.Ready) (hn : ∀ m ∈ messages, HasNotes m) (isTarget : Bool)
    (ds : Diagnostics) :
    Loader.load ⟨path, FileFormat.render .xliff1 messages locale isTarget⟩ ds =
      (some {
        locale := Text.unlessEmpty locale
        translations := Message.listed Message.annotated messages
        sources :=
          if isTarget || messages.isEmpty then none
          else some (Message.listed Message.replayed messages) }, ds) := by
  let root := (rootElement isTarget locale messages "").toElement 0
  let file : FileText := ⟨path, FileFormat.render .xliff1 messages locale isTarget⟩
  have reads : Markup.read file.contents = .ok root := by
    change Markup.read (render messages locale isTarget) = _
    rw [render_eq]
    exact Markup.read_print (sound_rootElement isTarget hl hm hn)
  have versions : root.attribute? "version" = some version :=
    version_rootElement isTarget locale messages 0
  -- The reader of the newer version comes first, and asks for another version.
  have notNewer : (Xliff2.analyze file).Rejects :=
    FileText.analyzeMarkup_rejectAttribute reads (by rw [versions]; decide)
  have accepts : analyze file = .accept (.markup root) :=
    FileText.analyzeMarkup_accept reads rfl (List.forall_mem_cons.2 ⟨versions, nofun⟩)
  exact Loader.loadWith_of_accept [.xliff2] .xliff1 [.xtb, .json]
    (List.forall_mem_cons.2 ⟨notNewer, nofun⟩) accepts
    (read_rootElement file isTarget hl hm hids 0) rfl

/-- Two messages are loaded in their order, with their notes. -/
theorem load_greetings_xliff1 :
    (Message.greetings.map Message.id).Nodup ∧
      Loader.load ⟨"fr.xlf", FileFormat.render .xliff1 Message.greetings "fr" false⟩ [] =
        (some {
          locale := some "fr"
          translations := Message.listed Message.annotated Message.greetings
          sources := some (Message.listed Message.replayed Message.greetings) }, []) := by
  have ids : (Message.greetings.map Message.id).Nodup := by decide
  have ready : ∀ m ∈ Message.greetings, m.Ready := by decide
  have notes : ∀ m ∈ Message.greetings, HasNotes m := by decide
  exact ⟨ids, load_render_xliff1 "fr.xlf" (by decide) ids ready notes false []⟩

end MessageCatalog.FileFormat.Xliff1
