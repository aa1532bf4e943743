import MessageCatalog.FileFormat.Render
import MessageCatalog.Proofs.FileFormat.Content
import MessageCatalog.Proofs.Loader

/-!
# XLIFF 2.0 files are read as they were written

What is written denotes one element: a file with a unit for each message and a segment in each unit.
The texts of a segment are stored under the id of the unit around it; the numbers of placeholders
and the source texts that they show are written and never read.
-/

namespace MessageCatalog.FileFormat.Xliff2

open Markup (WrittenTag WrittenElement)
open Markup.Writer (Writes Puts)

/-! ## The written elements -/

/-- What stands for a placeholder; some show what they stand for. -/
def placeholderTag (substitutions : List String) (index : Nat) (name : String) : WrittenTag :=
  .of "ph"
    [("id", some (toString (index + 1))), ("equiv", some name), ("disp", substitutions[index]?)]

/-- The element with the content of a message. -/
def textElement (element : String) (m : Message) : WrittenElement :=
  ⟨.of element [], m.mixed (placeholderTag m.substitutions)⟩

/-- The elements inside a segment. -/
def segmentElements (isTarget : Bool) (m : Message) : List WrittenElement :=
  (if isTarget then [] else [textElement "source" m]) ++ [textElement "target" m]

/-- The element of a segment. -/
def segmentElement (isTarget : Bool) (m : Message) (indent : String) : WrittenElement :=
  .block (.of "segment" []) (fun _ => segmentElements isTarget m) indent

/-- The element of a unit. -/
def unitElement (isTarget : Bool) (indent : String) (m : Message) : WrittenElement :=
  .block (.of "unit" [("id", some m.id)]) (fun inner => [segmentElement isTarget m inner]) indent

/-- The element of the file. -/
def fileElement (isTarget : Bool) (messages : List Message) (indent : String) : WrittenElement :=
  .block (.of "file" []) (fun inner => messages.map (unitElement isTarget inner)) indent

/-- The root element. -/
def rootElement (isTarget : Bool) (locale : String) (messages : List Message) (indent : String) :
    WrittenElement :=
  .block (.of "xliff" [("version", some version), ("xmlns", some xmlns), ("srcLang", some locale),
      ("trgLang", some locale)])
    (fun inner => [fileElement isTarget messages inner]) indent

/-! ## Writing -/

/-- No element has two attributes with one name. -/
lemma distinct_rootKeys : ["version", "xmlns", "srcLang", "trgLang"].Nodup := by decide

/-- The attributes of a placeholder have different names. -/
lemma distinct_placeholderKeys : ["id", "equiv", "disp"].Nodup := by decide

/-- A placeholder is put as a tag that closes itself. -/
lemma puts_placeholder (substitutions : List String) (index : Nat) (name : String) :
    Puts (writePlaceholder substitutions · index name)
      ((placeholderTag substitutions index name).opening ++ ['/', '>']) :=
  Markup.Writer.puts_leaf (by exact distinct_placeholderKeys) "ph"

/-- The content of a message is written as one element. -/
lemma writes_text (element : String) (m : Message) :
    Writes (writeText · element m) fun _ => [textElement element m] :=
  Writes.preserved (m.puts_writeContent (puts_placeholder m.substitutions)) (by exact .nil) element

/-- The inside of a segment is written as its texts. -/
lemma writes_segmentElements (isTarget : Bool) (m : Message) :
    Writes (fun w => writeText (if isTarget then w else writeText w "source" m) "target" m)
      fun _ => segmentElements isTarget m := by
  have source : Writes (fun w => if isTarget then w else writeText w "source" m)
      fun _ => if isTarget then [] else [textElement "source" m] := by
    cases isTarget with
    | true => exact Markup.Writer.writes_nothing
    | false => exact writes_text "source" m
  exact source.comp (writes_text "target" m)

/-- A message is written as one unit. -/
lemma writes_unit (isTarget : Bool) (m : Message) :
    Writes (writeUnit isTarget · m) fun indent => [unitElement isTarget indent m] :=
  ((writes_segmentElements isTarget m).block (by exact .nil) "segment").block
    (by exact (by decide : ["id"].Nodup)) "unit"

/-- Messages are written as the units of one file element. -/
lemma writes_file (isTarget : Bool) (messages : List Message) :
    Writes (fun w => (messages.foldl (writeUnit isTarget) (w.startTag "file")).endTag "file")
      fun indent => [fileElement isTarget messages indent] :=
  (Markup.Writer.writes_foldl fun m _ => writes_unit isTarget m).block (by exact .nil) "file"

/-- A file is written as one root element. -/
lemma writes_root (isTarget : Bool) (locale : String) (messages : List Message) :
    Writes (fun w => ((messages.foldl (writeUnit isTarget)
        ((w.startTag "xliff" [("version", some version), ("xmlns", some xmlns),
          ("srcLang", some locale), ("trgLang", some locale)]).startTag "file")).endTag
            "file").endTag "xliff")
      fun indent => [rootElement isTarget locale messages indent] :=
  (writes_file isTarget messages).block
    (by exact distinct_rootKeys) "xliff"

/-- The whole file is written as its root element. -/
lemma render_eq (messages : List Message) (locale : String) (isTarget : Bool) :
    render messages locale isTarget =
      String.ofList ((rootElement isTarget locale messages "").print ++ ['\n']) := by
  have output := (writes_root isTarget locale messages).output ""
  rw [String.empty_append] at output
  exact output

/-! ## Soundness -/

/-- Whether what the placeholders of a message show is text. -/
def ShowsText (m : Message) : Prop := ∀ shown ∈ m.substitutions, Markup.isXmlText shown = true

instance (m : Message) : Decidable (ShowsText m) :=
  inferInstanceAs (Decidable (∀ shown ∈ m.substitutions, _))

/-- Digits are characters that markup can hold. -/
lemma isXmlText_toString (n : Nat) : Markup.isXmlText (toString n) = true := by
  rw [Markup.isXmlText, Nat.toString_eq_repr, Nat.toList_repr, List.all_eq_true]
  intro c m
  have digit := Nat.isDigit_of_mem_toDigits (by decide) (by decide) m
  rw [Char.isDigit, Bool.and_eq_true, decide_eq_true_eq, decide_eq_true_eq] at digit
  have lower : 48 ≤ c.toNat := digit.1
  have upper : c.toNat ≤ 57 := digit.2
  rw [Markup.isXmlChar, if_neg (by omega), Bool.and_eq_true, decide_eq_true_eq, decide_eq_true_eq]
  omega

/-- The tag of a placeholder is sound when its name and what it shows can be held. -/
lemma sound_placeholderTag {substitutions : List String}
    (hs : ∀ shown ∈ substitutions, Markup.isXmlText shown = true) (index : Nat) {name : String}
    (h : Markup.isLineText name = true) : (placeholderTag substitutions index name).Sound := by
  refine WrittenTag.sound_of_keys ["id", "equiv", "disp"] (by decide) rfl (by decide) ?_
  intro value hvalue
  obtain ⟨a, ha, hsome⟩ := List.mem_filterMap.1 hvalue
  rcases List.mem_cons.1 ha with rfl | ha
  · cases hsome
    exact isXmlText_toString _
  rcases List.mem_cons.1 ha with rfl | ha
  · cases hsome
    exact Markup.isXmlText_of_isLineText h
  rw [List.mem_singleton.1 ha] at hsome
  exact hs value (List.mem_of_getElem? hsome)

/-- The element of a text is sound when the message can be held with what its placeholders show. -/
lemma sound_textElement {element : String} (he : Markup.isPlainName element = true) {m : Message}
    (hm : m.Ready) (hs : ShowsText m) : (textElement element m).Sound :=
  ⟨WrittenTag.sound_of_keys [] he rfl rfl nofun,
    Message.sound_mixed (sound_placeholderTag hs) hm.hasText⟩

/-- A segment is sound when the message can be held with what its placeholders show. -/
lemma sound_segmentElement (isTarget : Bool) {m : Message} (hm : m.Ready) (hs : ShowsText m)
    {indent : String} (hi : Markup.IsIndent indent) :
    (segmentElement isTarget m indent).Sound := by
  have tag : (WrittenTag.of "segment" []).Sound :=
    WrittenTag.sound_of_keys [] (by decide) rfl rfl nofun
  have source := sound_textElement (by decide : Markup.isPlainName "source" = true) hm hs
  have target := sound_textElement (by decide : Markup.isPlainName "target" = true) hm hs
  refine WrittenElement.sound_block tag hi fun _ _ => ?_
  cases isTarget with
  | true => exact List.forall_mem_singleton.2 target
  | false => exact List.forall_mem_cons.2 ⟨source, List.forall_mem_singleton.2 target⟩

/-- A unit is sound when the message can be held with what its placeholders show. -/
lemma sound_unitElement (isTarget : Bool) {m : Message} (hm : m.Ready) (hs : ShowsText m)
    {indent : String} (hi : Markup.IsIndent indent) : (unitElement isTarget indent m).Sound := by
  have tag : (WrittenTag.of "unit" [("id", some m.id)]).Sound :=
    WrittenTag.sound_of_keys ["id"] (by decide) rfl (by decide)
      (List.forall_mem_singleton.2 (Markup.isXmlText_of_isLineText hm.id_text))
  refine WrittenElement.sound_block tag hi fun inner hinner => ?_
  exact List.forall_mem_singleton.2 (sound_segmentElement isTarget hm hs hinner)

/-- A file element is sound when all messages can be held with what their placeholders show. -/
lemma sound_fileElement (isTarget : Bool) {messages : List Message}
    (hm : ∀ m ∈ messages, m.Ready) (hs : ∀ m ∈ messages, ShowsText m) {indent : String}
    (hi : Markup.IsIndent indent) : (fileElement isTarget messages indent).Sound := by
  have tag : (WrittenTag.of "file" []).Sound :=
    WrittenTag.sound_of_keys [] (by decide) rfl rfl nofun
  refine WrittenElement.sound_block tag hi fun inner hinner e h => ?_
  obtain ⟨m, hmem, rfl⟩ := List.mem_map.1 h
  exact sound_unitElement isTarget (hm m hmem) (hs m hmem) hinner

/-- The root element is sound when the locale and all messages can be held. -/
lemma sound_rootElement (isTarget : Bool) {locale : String} (hl : Markup.isLineText locale = true)
    {messages : List Message} (hm : ∀ m ∈ messages, m.Ready) (hs : ∀ m ∈ messages, ShowsText m) :
    (rootElement isTarget locale messages "").Sound := by
  have hx := Markup.isXmlText_of_isLineText hl
  have tag : (WrittenTag.of "xliff" [("version", some version), ("xmlns", some xmlns),
      ("srcLang", some locale), ("trgLang", some locale)]).Sound := by
    refine WrittenTag.sound_of (by decide) (by exact distinct_rootKeys)
      (by exact (by decide : ∀ key ∈ ["version", "xmlns", "srcLang", "trgLang"],
        Markup.isPlainName key = true)) ?_ ?_
    · have fixed : ∀ value ∈ [version, xmlns], Markup.isXmlText value = true := by decide
      exact List.forall_mem_append.2
        ⟨fixed, List.forall_mem_cons.2 ⟨hx, List.forall_mem_singleton.2 hx⟩⟩
    · intro value h
      have hv : value = xmlns := by simpa using h
      rw [hv]
      decide
  refine WrittenElement.sound_block tag nofun fun inner hinner => ?_
  exact List.forall_mem_singleton.2 (sound_fileElement isTarget hm hs hinner)

/-! ## Reading -/

/-- What has been read when these units have been. -/
def held (isTarget : Bool) (messages : List Message) : Contents where
  translations := Message.listed Message.replayed messages
  sources := if isTarget then ∅ else Message.listed Message.replayed messages

/-- The rules of the format find the names of the placeholders that are written. -/
lemma finds_placeholders (substitutions : List String) :
    Content.Finds rules (placeholderTag substitutions) "equiv" where
  role _ _ := rfl
  name index name start stop hne hname :=
    Markup.attribute?_of_some (by exact distinct_placeholderKeys) (by decide)
      hname (by exact Text.unlessEmpty_of_ne hne) "ph" start stop

variable (file : FileText)

/-- Nodes are read one element after the other. -/
lemma readNodes_eq_foldlM (inside : Option String) (c : Contents) (nodes : List Markup.Node) :
    readNodes file inside c nodes = (nodes.filterMap Markup.Node.element?).foldlM
      (fun c e => readNode file inside c (.element e.tag e.children)) c := by
  refine Markup.eq_foldlM_elements (fun _ => rfl) (fun _ _ _ => rfl) (fun c node h => ?_) c nodes
  cases node with
  | element => cases h
  | _ => rfl

/-- A text element is read as the content of its message. -/
lemma read_textElement (element : String) {m : Message} (hm : m.Ready) (start : Nat) :
    Content.read rules file ((textElement element m).toElement start) = .ok m.replayed :=
  Content.read_mixed (finds_placeholders m.substitutions) hm _ _

/-- A segment has one target and, in a file with source texts, one source. -/
lemma childrenNamed_segmentElement (isTarget : Bool) (m : Message) (indent : String)
    (start : Nat) :
    let segment := (segmentElement isTarget m indent).toElement start
    (∃ place, segment.childrenNamed "target" = [(textElement "target" m).toElement place]) ∧
      ∃ place, segment.childrenNamed "source" =
        if isTarget then [] else [(textElement "source" m).toElement place] := by
  obtain ⟨lead, first, inside⟩ := Markup.childElements_block (.of "segment" [])
    (fun _ => segmentElements isTarget m) indent start
  intro segment
  have named : ∀ name, segment.childrenNamed name =
      (Markup.placed lead first (segmentElements isTarget m)).filter (·.name = name) :=
    fun name => congrArg (List.filter _) inside
  rw [named, named]
  cases isTarget with
  | true => exact ⟨⟨_, rfl⟩, 0, rfl⟩
  | false => exact ⟨⟨_, rfl⟩, _, rfl⟩

/-- A segment is read as its message, under the id of the unit. -/
lemma readSegment_segmentElement (isTarget : Bool) (indent : String) {done : List Message}
    {m : Message} (hm : m.Ready) (hnew : m.id ∉ done.map Message.id) (start : Nat) :
    readSegment file (held isTarget done) (some m.id)
      ((segmentElement isTarget m indent).toElement start) =
      .ok (held isTarget (done ++ [m])) := by
  obtain ⟨⟨target, htarget⟩, source, hsource⟩ :=
    childrenNamed_segmentElement isTarget m indent start
  have translations : (Message.listed Message.replayed done).insert m.id m.replayed =
      Message.listed Message.replayed (done ++ [m]) := Message.insert_listed hnew
  unfold readSegment
  rw [htarget, hsource]
  cases isTarget with
  | true =>
    change (do
      let t ← Content.read rules file ((textElement "target" m).toElement target)
      return (⟨(Message.listed Message.replayed done).insert m.id t, ∅⟩ : Contents)) = _
    rw [read_textElement file "target" hm]
    exact congrArg (fun listed => Except.ok (Contents.mk listed ∅)) translations
  | false =>
    change (do
      let s ← Content.read rules file ((textElement "source" m).toElement source)
      let t ← Content.read rules file ((textElement "target" m).toElement target)
      return (⟨(Message.listed Message.replayed done).insert m.id t,
        (Message.listed Message.replayed done).insert m.id s⟩ : Contents)) = _
    rw [read_textElement file "source" hm, read_textElement file "target" hm]
    exact congrArg (fun listed => Except.ok (Contents.mk listed listed)) translations

/-- A unit is read with the id that it was written with. -/
lemma requiredId_unitElement (isTarget : Bool) (indent : String) {m : Message} (hm : m.Ready)
    (start : Nat) :
    file.requiredAttribute ((unitElement isTarget indent m).toElement start).tag "id" =
      .ok m.id :=
  FileText.requiredAttribute_of_some
    (Markup.attribute?_of_some (by exact (by decide : ["id"].Nodup)) (by decide) hm.id_text
      (by exact Text.unlessEmpty_of_ne hm.id_ne) "unit" _ _)

/-- A unit is read as its message. -/
lemma readNode_unitElement (isTarget : Bool) (indent : String) {done : List Message}
    {m : Message} (hm : m.Ready) (hnew : m.id ∉ done.map Message.id) (start : Nat) :
    readNode file none (held isTarget done)
      (.element ((unitElement isTarget indent m).toElement start).tag
        ((unitElement isTarget indent m).toElement start).children) =
      .ok (held isTarget (done ++ [m])) := by
  have new : (held isTarget done).translations.contains m.id = false :=
    Message.contains_listed hnew
  have id : unitId file (held isTarget done)
      ((unitElement isTarget indent m).toElement start).tag = .ok m.id := by
    rw [unitId, requiredId_unitElement file isTarget indent hm]
    change (if (held isTarget done).translations.contains m.id = true then _ else _) = _
    rw [new]
    rfl
  have segment : Markup.Reads (fun c e => readNode file (some m.id) c (.element e.tag e.children))
      [segmentElement isTarget m (indent ++ Markup.Writer.indentStep)] (held isTarget done)
      (held isTarget (done ++ [m])) :=
    .single (readSegment_segmentElement file isTarget _ hm hnew)
  have inside : readNodes file (some m.id) (held isTarget done)
      ((unitElement isTarget indent m).toElement start).children =
        .ok (held isTarget (done ++ [m])) := by
    rw [readNodes_eq_foldlM]
    exact Markup.Reads.inside_block segment start
  have name : ((unitElement isTarget indent m).toElement start).tag.name = "unit" := rfl
  rw [readNode, if_pos name, id]
  exact inside

/-- Units are read as the messages that were written. -/
lemma reads_units (isTarget : Bool) (indent : String) {messages : List Message}
    (hm : ∀ m ∈ messages, m.Ready) (hids : (messages.map Message.id).Nodup) :
    Markup.Reads (fun c e => readNode file none c (.element e.tag e.children))
      (messages.map (unitElement isTarget indent)) (held isTarget []) (held isTarget messages) :=
  reads_messages (fun _ m h hnew => readNode_unitElement file isTarget indent (hm m h) hnew) hids

/-- The content of the root element is read as the messages. -/
lemma readNodes_rootElement (isTarget : Bool) (locale : String) {messages : List Message}
    (hm : ∀ m ∈ messages, m.Ready) (hids : (messages.map Message.id).Nodup) (start : Nat) :
    readNodes file none {} ((rootElement isTarget locale messages "").toElement start).children =
      .ok (held isTarget messages) := by
  have nothing : held isTarget [] = {} := by cases isTarget <;> rfl
  have inside : ∀ start, readNode file none {}
      (.element ((fileElement isTarget messages ("" ++ Markup.Writer.indentStep)).toElement
          start).tag
        ((fileElement isTarget messages ("" ++ Markup.Writer.indentStep)).toElement
          start).children) = .ok (held isTarget messages) := by
    intro start
    have name : ((fileElement isTarget messages ("" ++ Markup.Writer.indentStep)).toElement
      start).tag.name = "file" := rfl
    rw [readNode, if_neg (by rw [name]; decide), if_neg (by rw [name]; decide),
      readNodes_eq_foldlM, ← nothing]
    exact Markup.Reads.inside_block (reads_units file isTarget _ hm hids) start
  rw [readNodes_eq_foldlM]
  exact Markup.Reads.inside_block (.single inside) start

/-! ## Loading -/

/-- The root element has the version of the format. -/
lemma version_rootElement (isTarget : Bool) (locale : String) (messages : List Message)
    (start : Nat) :
    ((rootElement isTarget locale messages "").toElement start).attribute? "version" =
      some version :=
  Markup.attribute?_of_some (by exact distinct_rootKeys) (by decide) (by decide)
    (by exact Text.unlessEmpty_of_ne (by decide : version ≠ "")) "xliff" _ _

/-- The root element has the locale as its target language, unless that is empty. -/
lemma targetLanguage_rootElement (isTarget : Bool) {locale : String}
    (hl : Markup.isLineText locale = true) (messages : List Message) (start : Nat) :
    ((rootElement isTarget locale messages "").toElement start).attribute? "trgLang" =
      Text.unlessEmpty locale := by
  have given : Markup.givenValue [("version", some version), ("xmlns", some xmlns),
      ("srcLang", some locale), ("trgLang", some locale)] "trgLang" = Text.unlessEmpty locale := rfl
  refine (Markup.attribute?_of (by exact distinct_rootKeys) (by decide) ?_ "xliff" _ _).trans given
  intro value h
  rw [given] at h
  rw [Text.eq_of_mem_unlessEmpty h]
  exact hl

/-- What is read of a written file. -/
lemma read_rootElement (isTarget : Bool) {locale : String} (hl : Markup.isLineText locale = true)
    {messages : List Message} (hm : ∀ m ∈ messages, m.Ready)
    (hids : (messages.map Message.id).Nodup) (start : Nat) :
    read file (some (.markup ((rootElement isTarget locale messages "").toElement start))) = .ok {
      locale := Text.unlessEmpty locale
      translations := Message.listed Message.replayed messages
      sources :=
        if isTarget || messages.isEmpty then none
        else some (Message.listed Message.replayed messages) } := by
  rw [read, FileText.markupOf_some]
  dsimp only [bind, Except.bind]
  rw [readNodes_rootElement file isTarget locale hm hids, targetLanguage_rootElement isTarget hl]
  cases isTarget with
  | true => rfl
  | false =>
    have empty : (held false messages).sources.isEmpty = messages.isEmpty := Message.isEmpty_listed
    dsimp only
    rw [empty, Bool.false_or]
    rfl

/-- A written file is loaded with its locale and, in the same order, its messages: each has the
content that it says and no notes, whatever its placeholders show. -/
theorem load_render_xliff2 (path : String) {locale : String}
    (hl : Markup.isLineText locale = true) {messages : List Message}
    (hids : (messages.map Message.id).Nodup) (hm : ∀ m ∈ messages, m.Ready)
    (hs : ∀ m ∈ messages, ShowsText m) (isTarget : Bool) (ds : Diagnostics) :
    Loader.load ⟨path, FileFormat.render .xliff2 messages locale isTarget⟩ ds =
      (some {
        locale := Text.unlessEmpty locale
        translations := Message.listed Message.replayed messages
        sources :=
          if isTarget || messages.isEmpty then none
          else some (Message.listed Message.replayed messages) }, ds) := by
  let root := (rootElement isTarget locale messages "").toElement 0
  let file : FileText := ⟨path, FileFormat.render .xliff2 messages locale isTarget⟩
  have reads : Markup.read file.contents = .ok root := by
    change Markup.read (render messages locale isTarget) = _
    rw [render_eq]
    exact Markup.read_print (sound_rootElement isTarget hl hm hs)
  have versions : root.attribute? "version" = some version :=
    version_rootElement isTarget locale messages 0
  have accepts : analyze file = .accept (.markup root) :=
    FileText.analyzeMarkup_accept reads rfl (List.forall_mem_singleton.2 versions)
  exact Loader.loadWith_of_accept [] .xliff2 [.xliff1, .xtb, .json] nofun accepts
    (read_rootElement file isTarget hl hm hids 0) rfl

/-- Two messages are loaded in their order, without their notes. -/
theorem load_greetings_xliff2 :
    (Message.greetings.map Message.id).Nodup ∧
      Loader.load ⟨"fr.xlf", FileFormat.render .xliff2 Message.greetings "fr" false⟩ [] =
        (some {
          locale := some "fr"
          translations := Message.listed Message.replayed Message.greetings
          sources := some (Message.listed Message.replayed Message.greetings) }, []) := by
  have ids : (Message.greetings.map Message.id).Nodup := by decide
  have ready : ∀ m ∈ Message.greetings, m.Ready := by decide
  have shows : ∀ m ∈ Message.greetings, ShowsText m := by decide
  exact ⟨ids, load_render_xliff2 "fr.xlf" (by decide) ids ready shows false []⟩

end MessageCatalog.FileFormat.Xliff2
