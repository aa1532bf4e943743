import MessageCatalog.Proofs.Characters
import MessageCatalog.Proofs.FileFormat.Xliff1
import MessageCatalog.Proofs.Replay

/-!
# Extracted messages in XLIFF 1.2

A message of a template without control characters and without expansions is read again from the
file that it is written to, unless its own id or one of its names is empty: an empty attribute is
not written, and it is missing when the file is read. Such an id or name comes from a block that has
the place of one and says nothing there.
-/

namespace MessageCatalog

open Markup (Stops)

/-! ## The strings of an extracted message -/

namespace Markup

/-- The characters that are read from an attribute as they are written. -/
def IsLineChar (c : Char) : Prop := isXmlChar c = true ∧ c ≠ '\t' ∧ c ≠ '\n' ∧ c ≠ '\r'

instance : DecidablePred IsLineChar := fun _ => inferInstanceAs (Decidable (_ ∧ _))

/-- A line of text is one all of whose characters may stand on a line. -/
lemma isLineText_iff_forall {text : String} :
    isLineText text = true ↔ ∀ c ∈ text.toList, IsLineChar c := isLineText_iff

/-- Characters that may stand on a line make plain text. -/
lemma isPlainText_of_forall {text : String} (h : ∀ c ∈ text.toList, IsLineChar c) :
    isPlainText text = true := by
  rw [isPlainText, List.all_eq_true]
  intro c m
  obtain ⟨xml, -, -, noReturn⟩ := h c m
  rw [xml, Bool.true_and]
  exact decide_eq_true noReturn

/-- Digits and the letters of positional names may stand on a line. -/
lemma holdsMadeUp_isLineChar : HoldsMadeUp IsLineChar := by
  constructor
  case letter =>
    have positional : isLineText "PH_" = true := by decide
    exact isLineText_iff_forall.1 positional
  case digit =>
    intro c digit
    rw [Char.isDigit, Bool.and_eq_true, decide_eq_true_eq, decide_eq_true_eq] at digit
    have lower : 48 ≤ c.toNat := digit.1
    have upper : c.toNat ≤ 57 := digit.2
    refine ⟨?_, ?_, ?_, ?_⟩
    · rw [isXmlChar, if_neg (by omega), Bool.and_eq_true, decide_eq_true_eq, decide_eq_true_eq]
      omega
    all_goals
      rintro rfl
      exact absurd lower (by decide)

end Markup

namespace Message

variable {t : Template} {m : Message}

/-- A message that is made of a template has a part around each placeholder. -/
lemma length_of_ofTemplate (h : ofTemplate t = .ok m) :
    m.parts.length = m.placeholderNames.length + 1 := by
  obtain ⟨metadata, -, h⟩ := bind_eq_ok h
  obtain ⟨later, -, h⟩ := bind_eq_ok h
  cases h
  change (metadata.text :: later.map Prod.snd).length = (later.map Prod.fst).length + 1
  rw [List.length_cons, List.length_map, List.length_map]

/-- A digest is never empty, so only an id of its own can be. -/
lemma id_eq_empty_iff (h : ofTemplate t = .ok m) : m.id = "" ↔ m.customId = some "" := by
  obtain ⟨metadata, -, h⟩ := bind_eq_ok h
  obtain ⟨later, -, h⟩ := bind_eq_ok h
  cases h
  change metadata.customId.getD (Digest.messageId _ _) = "" ↔ metadata.customId = some ""
  cases metadata.customId with
  | none =>
    refine iff_of_false ?_ nofun
    rw [Option.getD_none, Digest.messageId, Nat.toString_eq_repr]
    exact Nat.repr_ne_empty
  | some id => exact ⟨congrArg some, Option.some.inj⟩

/-- A message of characters that may stand on a line is one that a file can hold. -/
lemma MadeWithin.hasText (h : m.MadeWithin Markup.IsLineChar) : m.HasText where
  id_text := Markup.isLineText_iff_forall.2 h.id
  parts_text part hp := Markup.isPlainText_of_forall (h.parts part hp)
  names_text name hn := Markup.isLineText_iff_forall.2 (h.placeholderNames name hn)

/-- A plain message with names and an id can be read again. -/
lemma ready_of_plain (text : m.HasText) (length : m.parts.length = m.placeholderNames.length + 1)
    (plain : m.Plain) (id_ne : m.id ≠ "") (names_ne : "" ∉ m.placeholderNames) : m.Ready where
  id_ne := id_ne
  id_text := text.id_text
  length := length
  parts_text := text.parts_text
  names_ne _ hn e := names_ne (e ▸ hn)
  names_text := text.names_text
  closed := (m.run_steps_of_plain plain length).1

/-- A plain message is read with its parts and with its names spelled as they are read. -/
lemma replayed_of_plain (length : m.parts.length = m.placeholderNames.length + 1)
    (plain : m.Plain) :
    m.replayed = .ofParts m.parts (m.placeholderNames.map Replay.normalizeName) :=
  (m.run_steps_of_plain plain length).2

end Message

namespace FileFormat.Xliff1

variable {file : FileText} {m : Message} {c : Contents}

/-! ## Units that are not read -/

/-- A placeholder without a name makes the element of a text unreadable. -/
lemma exists_error_of_read_textElement (text : m.HasText)
    (length : m.parts.length = m.placeholderNames.length + 1) (empty : "" ∈ m.placeholderNames)
    (element : String) (start : Nat) :
    ∃ e, Content.read rules file ((textElement element m).toElement start) = .error e := by
  have missing (index start stop : Nat) :
      ((placeholderTag index "").toTag start stop).attribute? "id" = none := by
    have given : Markup.givenValue [("id", some "")] "id" = none := rfl
    refine (Markup.attribute?_of (by exact (by decide : ["id"].Nodup)) (by decide) ?_ "x" start
      stop).trans given
    rw [given]
    exact nofun
  have names : "" ∈ m.laterPairs.map Prod.fst := by
    have later : m.placeholderNames.length ≤ (m.parts.drop 1).length := by
      rw [List.length_drop, length, Nat.add_sub_cancel]
    rw [Message.laterPairs, List.map_fst_zip later]
    exact empty
  obtain ⟨e, walked⟩ : ∃ e, Content.walk rules file {}
      ((m.mixed placeholderTag).nodes ((textElement element m).first start)) = .error e :=
    Content.exists_error_of_walk_ofParts finds_placeholders missing {} (m.parts.headD "") 0
      (fun pair h => text.names_text _ (Message.names_laterPairs h).1) names
      ((textElement element m).first start)
  refine ⟨e, ?_⟩
  change (do
    let r ← Content.walk rules file {}
      ((m.mixed placeholderTag).nodes ((textElement element m).first start))
    _) = _
  rw [walked]
  rfl

/-- The first child of a unit is a text. -/
lemma stops_unitElements (text : m.HasText)
    (length : m.parts.length = m.placeholderNames.length + 1) (empty : "" ∈ m.placeholderNames)
    (isTarget : Bool) (u : UnitParts) :
    Stops (UnitParts.addChild file) (unitElements isTarget m) u := by
  have stops (element : String) (start : Nat) :
      ∃ e, Content.read rules file ((textElement element m).toElement start) = .error e :=
    exists_error_of_read_textElement text length empty element start
  cases isTarget with
  | true =>
    refine Stops.first (fun start => ?_) _
    obtain ⟨e, read⟩ := stops "target" start
    refine ⟨e, ?_⟩
    change (do return { u with target := some (← Content.read rules file _) }) = _
    rw [read]
    rfl
  | false =>
    refine Stops.first (fun start => ?_) _
    obtain ⟨e, read⟩ := stops "source" start
    refine ⟨e, ?_⟩
    change (do return { u with source := some (← Content.read rules file _) }) = _
    rw [read]
    rfl

/-- A unit is not read when its message has no id or a placeholder without a name. -/
lemma exists_error_of_readUnit (text : m.HasText)
    (length : m.parts.length = m.placeholderNames.length + 1)
    (empty : m.id = "" ∨ "" ∈ m.placeholderNames) (isTarget : Bool) (indent : String)
    (start : Nat) :
    ∃ e, readUnit file c ((unitElement isTarget indent m).toElement start) = .error e := by
  have given : ((unitElement isTarget indent m).toElement start).tag.attribute? "id" =
      Text.unlessEmpty m.id := by
    refine Markup.attribute?_of (by exact distinct_unitKeys) (by decide) ?_ "trans-unit" _ _
    intro value h
    have same : value = m.id := Text.eq_of_mem_unlessEmpty h
    rw [same]
    exact text.id_text
  rw [readUnit, FileText.requiredAttribute, given]
  by_cases noId : m.id = ""
  · rw [noId]
    exact ⟨_, rfl⟩
  · have noName : "" ∈ m.placeholderNames := empty.resolve_left noId
    have children : ∃ e, ((unitElement isTarget indent m).toElement start).childElements.foldlM
        (UnitParts.addChild file) {} = .error e :=
      Stops.inside_block (stops_unitElements text length noName isTarget {}) start
    obtain ⟨e, children⟩ := children
    rw [Text.unlessEmpty_of_ne noId]
    dsimp only [bind, Except.bind]
    split
    -- the id may be that of an earlier unit, which is an error as well
    case isTrue => exact ⟨_, rfl⟩
    case isFalse =>
      rw [children]
      exact ⟨e, rfl⟩

/-- An element around units is not read when what is inside it is not. -/
lemma stops_around {tag : Markup.WrittenTag} (hname : tag.name ≠ "trans-unit")
    {es : String → List Markup.WrittenElement}
    (h : ∀ c indent, Stops (fun c e => readNode file c (.element e.tag e.children)) (es indent) c)
    (c : Contents) (indent : String) :
    Stops (fun c e => readNode file c (.element e.tag e.children)) [.block tag es indent] c := by
  refine Stops.first (fun start => ?_) []
  have name : ((Markup.WrittenElement.block tag es indent).toElement start).tag.name ≠
      "trans-unit" := hname
  rw [readNode_of_around file name]
  exact Stops.inside_block (h _ _) start

/-- A file with such a message is not read. -/
lemma exists_error_of_read_rootElement (text : m.HasText)
    (length : m.parts.length = m.placeholderNames.length + 1)
    (empty : m.id = "" ∨ "" ∈ m.placeholderNames) (isTarget : Bool) (locale : String)
    (start : Nat) :
    ∃ e, read file (some (.markup ((rootElement isTarget locale [m] "").toElement start))) =
      .error e := by
  have units (c : Contents) (indent : String) :
      Stops (fun c e => readNode file c (.element e.tag e.children))
        ([m].map (unitElement isTarget indent)) c :=
    Stops.first (fun start => exists_error_of_readUnit text length empty isTarget indent start) []
  have noFile : "file" ≠ "trans-unit" := by decide
  have noBody : "body" ≠ "trans-unit" := by decide
  have nodes : ∃ e, readNodes file {} ((rootElement isTarget locale [m] "").toElement
      start).children = .error e := by
    rw [readNodes_eq_foldlM]
    exact Stops.inside_block (stops_around noFile (stops_around noBody units) {} _) start
  obtain ⟨e, nodes⟩ := nodes
  refine ⟨e, ?_⟩
  rw [read, FileText.markupOf_some]
  dsimp only [bind, Except.bind]
  rw [nodes]

/-! ## Extracted messages -/

/-- A file is read as one translation, which stands under the id of a message and has its parts and
its names as a file spells them. -/
def ReadsBack (file : FileText) (m : Message) : Prop :=
  ∃ bundle t, read file (analyze file).document = .ok bundle ∧
    bundle.translations.entries = [(m.id, t)] ∧ t.parts = m.parts ∧
    t.placeholderNames = m.placeholderNames.map Replay.normalizeName

/-- A message without an id, or with a placeholder without a name, is not read again. -/
lemma not_readsBack_of_empty (path : String) (text : m.HasText) (notes : HasNotes m)
    (length : m.parts.length = m.placeholderNames.length + 1)
    (empty : m.id = "" ∨ "" ∈ m.placeholderNames) :
    ¬ReadsBack ⟨path, FileFormat.render .xliff1 [m] "en" false⟩ m := by
  rintro ⟨bundle, t, read, -⟩
  obtain ⟨e, fails⟩ := exists_error_of_read_rootElement text length empty false "en" 0
  have accepts := analyze_render path false (by decide : Markup.isLineText "en" = true)
    (List.forall_mem_singleton.2 text) (List.forall_mem_singleton.2 notes)
  rw [accepts, Analysis.accept, fails] at read
  cases read

/-- A plain message that can be read is read again as it was. -/
lemma readsBack_of_ready (path : String) (ready : m.Ready) (notes : HasNotes m) (plain : m.Plain) :
    ReadsBack ⟨path, FileFormat.render .xliff1 [m] "en" false⟩ m := by
  have said : m.replayed = .ofParts m.parts (m.placeholderNames.map Replay.normalizeName) :=
    Message.replayed_of_plain ready.length plain
  have read := read_rootElement ⟨path, FileFormat.render .xliff1 [m] "en" false⟩ false
    (by decide : Markup.isLineText "en" = true) (List.forall_mem_singleton.2 ready)
    (List.pairwise_singleton _ _) 0
  have accepts := analyze_render path false (by decide : Markup.isLineText "en" = true)
    (List.forall_mem_singleton.2 ready.hasText) (List.forall_mem_singleton.2 notes)
  refine ⟨_, m.annotated, (congrArg (Xliff1.read _ ∘ Analysis.document) accepts).trans read, rfl,
    ?_, ?_⟩
  · exact congrArg Translation.parts said
  · exact congrArg Translation.placeholderNames said

/-- A message of a template without control characters and without expansions is written to a file
that is accepted; and it is read again exactly when its own id, if it has one, and all names of its
placeholders are not empty. -/
theorem readsBack_iff (path : String) {t : Template} {m : Message}
    (hcooked : ∀ s ∈ t.cooked, Markup.isLineText s = true) (h : Message.ofTemplate t = .ok m)
    (plain : m.Plain) :
    (analyze ⟨path, FileFormat.render .xliff1 [m] "en" false⟩).accepted = true ∧
      (ReadsBack ⟨path, FileFormat.render .xliff1 [m] "en" false⟩ m ↔
        m.customId ≠ some "" ∧ "" ∉ m.placeholderNames) := by
  have made : m.MadeWithin Markup.IsLineChar :=
    Message.madeWithin_of_ofTemplate Markup.holdsMadeUp_isLineChar
      (fun s hs => Markup.isLineText_iff_forall.1 (hcooked s hs)) h
  have text : m.HasText := made.hasText
  have notes : HasNotes m :=
    ⟨Markup.isPlainText_of_forall made.description, Markup.isPlainText_of_forall made.meaning⟩
  have length := Message.length_of_ofTemplate h
  refine ⟨?_, ?_, ?_⟩
  · rw [analyze_render path false (by decide) (List.forall_mem_singleton.2 text)
      (List.forall_mem_singleton.2 notes)]
    rfl
  · intro readsBack
    by_contra missing
    refine not_readsBack_of_empty path text notes length ?_ readsBack
    rw [Message.id_eq_empty_iff h]
    by_contra none
    exact missing (not_or.1 none)
  · rintro ⟨ownId, names⟩
    have id_ne : m.id ≠ "" := fun e => ownId ((Message.id_eq_empty_iff h).1 e)
    exact readsBack_of_ready path (Message.ready_of_plain text length plain id_ne names) notes plain

/-- A message with a named placeholder. -/
def welcome : Template := .ofCooked ["Hi ", ":user-name:!"]

/-- The message with a named placeholder is read again. -/
theorem readsBack_welcome :
    ∃ m, Message.ofTemplate welcome = .ok m ∧
      ReadsBack ⟨"m.xlf", FileFormat.render .xliff1 [m] "en" false⟩ m := by
  let m := Message.assemble { text := "Hi " } [("user-name", "!")] []
  have message : Message.ofTemplate welcome = .ok m := by decide +kernel
  have plain : m.Plain := by
    change ∀ part ∈ ["Hi ", "!"], _
    decide
  refine ⟨m, message, (readsBack_iff "m.xlf" (by decide) message plain).2.2 ⟨nofun, ?_⟩⟩
  change "" ∉ ["user-name"]
  decide

/-- A message whose block has an empty place for an id. -/
def withoutId : Template := .ofCooked [":@@:text"]

/-- A message with a placeholder whose block is empty. -/
def withoutName : Template := .ofCooked ["Hi ", "::!"]

/-- What keeps messages from being read again: an id and a name that are empty. -/
theorem not_readsBack_withoutId :
    (∃ m, Message.ofTemplate withoutId = .ok m ∧
      (∀ s ∈ withoutId.cooked, Markup.isLineText s = true) ∧ m.Plain ∧
      ¬ReadsBack ⟨"m.xlf", FileFormat.render .xliff1 [m] "en" false⟩ m) ∧
    ∃ m, Message.ofTemplate withoutName = .ok m ∧
      (∀ s ∈ withoutName.cooked, Markup.isLineText s = true) ∧ m.Plain ∧
      ¬ReadsBack ⟨"m.xlf", FileFormat.render .xliff1 [m] "en" false⟩ m := by
  constructor
  · let m := Message.assemble { text := "text", customId := some "" } [] []
    refine ⟨m, by decide +kernel, by decide, ?_, ?_⟩
    · change ∀ part ∈ ["text"], _
      decide
    · have parts : ∀ part ∈ ["text"], Markup.isPlainText part = true := by decide
      have text : m.HasText := ⟨by decide, parts, nofun⟩
      exact not_readsBack_of_empty "m.xlf" text ⟨by decide, by decide⟩ rfl (.inl rfl)
  · let m := Message.assemble { text := "Hi " } [("", "!")] []
    refine ⟨m, by decide +kernel, by decide, ?_, ?_⟩
    · change ∀ part ∈ ["Hi ", "!"], _
      decide
    · have id : Markup.isLineText m.id = true := by decide +kernel
      have parts : ∀ part ∈ ["Hi ", "!"], Markup.isPlainText part = true := by decide
      have names : ∀ name ∈ [""], Markup.isLineText name = true := by decide
      have text : m.HasText := ⟨id, parts, names⟩
      exact not_readsBack_of_empty "m.xlf" text ⟨by decide, by decide⟩ rfl
        (.inr (List.mem_singleton.2 rfl))

end FileFormat.Xliff1

end MessageCatalog
