import MessageCatalog.FileFormat.Render
import MessageCatalog.Loader
import MessageCatalog.Proofs.FileFormat.Content
import MessageCatalog.Proofs.Json.Objects
import MessageCatalog.Proofs.Loader
import MessageCatalog.Proofs.Message
import MessageCatalog.Proofs.OrderedMap

/-!
# JSON files from writing to loading

A file is an object of texts by their ids, and any text can be written in it. So nothing is lost: a
file is loaded as the texts that were written, cut at their placeholders, and a file that was read
can be written again from what was read of it.
-/

namespace MessageCatalog.FileFormat.Json

open MessageCatalog.Json (Value WrittenMember quote writeObject)
open MessageCatalog.Json.Scan (Recovers isSpace_indentStep recovers_quote recovers_writeObject)

/-! ## What is written -/

/-- The texts of messages by their ids. -/
def textsOf (messages : List Message) : OrderedMap String String :=
  OrderedMap.ofList (messages.map fun m => (m.id, m.text))

/-- The object with a locale and texts by their ids. -/
def textObject (locale : String) (texts : List (String × String)) : Value :=
  .object [
    (localeKey, .string locale),
    (translationsKey, .object (texts.map fun p => (p.1, .string p.2)))]

/-- Different keys are kept as they are. -/
lemma ofMembers_of_nodup {members : List (String × Value)} (h : (members.map Prod.fst).Nodup) :
    Value.ofMembers members = .object members := by
  rw [Value.ofMembers, OrderedMap.ofList_of_nodup h]

/-- Written texts are read as the object of them. -/
lemma recovers_texts (depth : Nat) {texts : List (String × String)}
    (hids : (texts.map Prod.fst).Nodup) :
    Recovers (MessageCatalog.Json.Scan.value .wanted (depth + 1))
      (writeObject "  " (texts.map fun p => (p.1, quote p.2)))
      (.object (texts.map fun p => (p.1, .string p.2))) := by
  let written : List WrittenMember := texts.map fun p => ⟨p.1, quote p.2, .string p.2⟩
  have values : ∀ m ∈ written,
      Recovers (MessageCatalog.Json.Scan.value .wanted depth) m.written m.value := by
    intro m hm
    obtain ⟨p, -, rfl⟩ := List.mem_map.1 hm
    exact recovers_quote .wanted depth p.2
  have reads := recovers_writeObject .wanted depth "  " isSpace_indentStep values
  have lines : written.map WrittenMember.line = texts.map fun p => (p.1, quote p.2) :=
    List.map_map
  have members : written.map WrittenMember.member = texts.map fun p => (p.1, .string p.2) :=
    List.map_map
  have keys : ((texts.map fun p => (p.1, Value.string p.2)).map Prod.fst).Nodup := by
    rw [List.map_map]
    exact hids
  rw [lines, members, ofMembers_of_nodup keys] at reads
  exact reads

/-- A written file is read as the object of its texts. -/
theorem read_render (messages : List Message) (locale : String) :
    MessageCatalog.Json.read (render messages locale) =
      .ok (textObject locale (textsOf messages).entries) := by
  let texts := (textsOf messages).entries
  let written : List WrittenMember := [
    ⟨localeKey, quote locale, .string locale⟩,
    ⟨translationsKey, writeObject "  " (texts.map fun p => (p.1, quote p.2)),
      .object (texts.map fun p => (p.1, .string p.2))⟩]
  have values : ∀ m ∈ written,
      Recovers (MessageCatalog.Json.Scan.value .wanted 126) m.written m.value :=
    List.forall_mem_cons.2 ⟨recovers_quote .wanted 126 locale,
      List.forall_mem_singleton.2 (recovers_texts 125 (OrderedMap.nodup_keys_ofList _))⟩
  have reads := recovers_writeObject .wanted 126 "" nofun values
  have keys : ((written.map WrittenMember.member).map Prod.fst).Nodup := by
    exact (by decide : [localeKey, translationsKey].Nodup)
  rw [ofMembers_of_nodup keys] at reads
  exact MessageCatalog.Json.read_of_recovers reads

/-! ## What is read -/

/-- The locale is found under its key. -/
lemma get?_locale (locale : String) (texts : List (String × String)) :
    (textObject locale texts).get? localeKey = some (.string locale) := rfl

/-- The texts are found under their key. -/
lemma get?_translations (locale : String) (texts : List (String × String)) :
    (textObject locale texts).get? translationsKey =
      some (.object (texts.map fun p => (p.1, .string p.2))) := rfl

/-- A file that holds texts by their ids is accepted. -/
lemma analyze_accept {file : FileText} (hpath : Path.extension? file.path = some "json")
    {locale : String} {texts : List (String × String)}
    (h : MessageCatalog.Json.read file.contents = .ok (textObject locale texts)) :
    analyze file = .accept (.json (textObject locale texts)) := by
  have noComplaint : complaint? (textObject locale texts) = none := by
    rw [complaint?, get?_locale, get?_translations]
    rfl
  rw [analyze, if_neg (not_not_intro hpath), h]
  dsimp only
  rw [noComplaint]

/-- Texts are read as their translations. -/
lemma translationsOf_texts (file : FileText) (texts : List (String × String)) :
    translationsOf file (texts.map fun p => (p.1, .string p.2)) =
      .ok (texts.map fun p => (p.1, Translation.parse p.2)) := by
  induction texts with
  | nil => rfl
  | cons p rest ih =>
    rw [List.map_cons, translationsOf]
    dsimp only [Value.string?]
    rw [ih]
    rfl

/-- An object of texts is read as the translations that the texts are. -/
lemma read_textObject (file : FileText) (locale : String) {texts : List (String × String)}
    (hids : (texts.map Prod.fst).Nodup) :
    read file (some (.json (textObject locale texts))) = .ok {
      locale := some locale
      translations := ⟨texts.map fun p => (p.1, Translation.parse p.2)⟩ } := by
  have keys : ((texts.map fun p => (p.1, Translation.parse p.2)).map Prod.fst).Nodup := by
    rw [List.map_map]
    exact hids
  rw [read, Option.some_or]
  dsimp only
  rw [get?_translations, get?_locale]
  dsimp only [Option.bind, Value.members?, Value.string?, Option.getD]
  rw [translationsOf_texts]
  dsimp only [bind, Except.bind]
  rw [OrderedMap.ofList_of_nodup keys]
  rfl

/-- No reader of markup accepts what is written. -/
lemma analyzeMarkup_render {file : FileText} {messages : List Message} {locale : String}
    (h : file.contents = render messages locale) (rootName : String)
    (attributes : List (String × String)) :
    (file.analyzeMarkup rootName attributes).Rejects := by
  have brace : file.contents.toList.head? = some '{' := by
    rw [h, render]
    exact MessageCatalog.Json.head?_writeObject _ _
  obtain ⟨text, contents⟩ := List.head?_eq_some_iff.1 brace
  have fault : Markup.read file.contents = .error ⟨.unknownToken, Text.byteLength []⟩ :=
    Markup.read_of_front contents nofun (by decide) (by decide) (by decide)
  exact FileText.analyzeMarkup_rejectFault fault

/-- Every translation that is read was cut from a text. -/
lemma exists_text_of_translationsOf {file : FileText} {members : List (String × Value)}
    {translations : List (String × Translation)}
    (h : translationsOf file members = .ok translations) :
    ∀ p ∈ translations, ∃ text, p.2 = Translation.parse text := by
  induction members generalizing translations with
  | nil =>
    cases h
    exact nofun
  | cons member rest ih =>
    obtain ⟨id, value⟩ := member
    rw [translationsOf] at h
    split at h
    case h_1 => cases h
    case h_2 text _ =>
      cases more : translationsOf file rest with
      | error e =>
        rw [more] at h
        cases h
      | ok later =>
        rw [more] at h
        cases h
        exact List.forall_mem_cons.2 ⟨⟨text, rfl⟩, ih more⟩

/-- A document without complaint has a locale. -/
lemma exists_locale_of_complaint? {value : Value} (h : complaint? value = none) :
    ∃ locale, value.get? localeKey = some (.string locale) := by
  rw [complaint?] at h
  split at h
  case h_1 => cases h
  case h_2 locale e =>
    split at h
    case isTrue => cases h
    case isFalse isString =>
      cases locale with
      | string locale => exact ⟨locale, e⟩
      | _ => exact absurd rfl isString

/-- A document is handed on only of a file with the extension and without complaint. -/
lemma exists_value_of_document {file : FileText} {document : Document}
    (h : (analyze file).document = some document) :
    Path.extension? file.path = some "json" ∧
      ∃ value, document = .json value ∧ complaint? value = none := by
  rw [analyze] at h
  split at h
  case isTrue => cases h
  case isFalse path =>
    refine ⟨Decidable.of_not_not path, ?_⟩
    split at h
    case h_1 => cases h
    case h_2 value _ =>
      split at h
      case h_1 => cases h
      case h_2 noComplaint =>
        cases h
        exact ⟨value, rfl, noComplaint⟩

/-- What is read of a file: it has a locale, and its translations were cut from texts. -/
lemma eq_ofList_of_read {file : FileText} {bundle : Bundle}
    (h : read file (analyze file).document = .ok bundle) :
    Path.extension? file.path = some "json" ∧
      ∃ locale translations, bundle = {
        locale := some locale
        translations := OrderedMap.ofList translations } ∧
        ∀ p ∈ translations, ∃ text, p.2 = Translation.parse text := by
  rw [read, Option.or_self] at h
  split at h
  case h_1 value handed =>
    obtain ⟨path, value, e, noComplaint⟩ := exists_value_of_document handed
    cases e
    obtain ⟨locale, hasLocale⟩ := exists_locale_of_complaint? noComplaint
    dsimp only at h
    rw [hasLocale] at h
    cases found : translationsOf file
        (((value.get? translationsKey).bind Value.members?).getD []) with
    | error e =>
      rw [found] at h
      cases h
    | ok translations =>
      rw [found] at h
      cases h
      exact ⟨path, locale, translations, rfl, exists_text_of_translationsOf found⟩
  case h_2 => cases h

/-! ## Loading -/

/-- What a file says that holds messages: of two with one id, the first gives the place and the last
the text. -/
def bundleOf (messages : List Message) (locale : String) : Bundle where
  locale := some locale
  translations := ⟨(textsOf messages).entries.map fun p => (p.1, Translation.parse p.2)⟩

variable (file : FileText) (messages : List Message) (locale : String)

/-- A written file is accepted and read. -/
lemma read_written (hpath : Path.extension? file.path = some "json")
    (h : file.contents = render messages locale) :
    ∃ document, analyze file = .accept document ∧
      read file (some document) = .ok (bundleOf messages locale) := by
  have reads := read_render messages locale
  rw [← h] at reads
  have distinct : ((textsOf messages).entries.map Prod.fst).Nodup := OrderedMap.nodup_keys_ofList _
  exact ⟨_, analyze_accept hpath reads, read_textObject file locale distinct⟩

/-- A written file is loaded by the reader of its format. -/
lemma load_written (hpath : Path.extension? file.path = some "json")
    (h : file.contents = render messages locale) (ds : Diagnostics) :
    Loader.load file ds = (some (bundleOf messages locale), ds) := by
  obtain ⟨document, accepts, reads⟩ := read_written file messages locale hpath h
  have notNewer : (Xliff2.analyze file).Rejects := analyzeMarkup_render h _ _
  have notOlder : (Xliff1.analyze file).Rejects := analyzeMarkup_render h _ _
  -- This reader looks at the extension before it looks at the text.
  have notXtb : (Xtb.analyze file).Rejects := by
    rw [Xtb.analyze, hpath]
    rfl
  exact Loader.loadWith_of_accept [.xliff2, .xliff1, .xtb] .json []
    (List.forall_mem_cons.2 ⟨notNewer, List.forall_mem_cons.2 ⟨notOlder,
      List.forall_mem_singleton.2 notXtb⟩⟩) accepts reads rfl

/-- Messages with different ids are all kept. -/
lemma bundleOf_of_nodup (h : (messages.map Message.id).Nodup) :
    bundleOf messages locale = {
      locale := some locale
      translations := Message.listed (fun m => Translation.parse m.text) messages } := by
  have keys : ((messages.map fun m => (m.id, m.text)).map Prod.fst).Nodup := by
    rw [List.map_map]
    exact h
  rw [bundleOf, textsOf, OrderedMap.ofList_of_nodup keys, List.map_map]
  rfl

/-- The messages of translations that were cut from texts hold those translations. -/
lemma listed_ofTranslations {translations : OrderedMap String Translation}
    (h : ∀ p ∈ translations.entries, ∃ text, p.2 = Translation.parse text) :
    Message.listed (fun m => Translation.parse m.text) (Message.ofTranslations translations) =
      translations := by
  have same : ∀ p ∈ translations.entries,
      (p.1, Translation.parse (p.2.toMessage p.1).text) = p := by
    intro p hp
    obtain ⟨text, e⟩ := h p hp
    rw [e, Translation.text_toMessage_parse, ← e]
  rw [Message.listed, Message.ofTranslations, List.map_map]
  exact congrArg OrderedMap.mk ((List.map_congr_left same).trans (List.map_id _))

/-- A file that was read has a locale, and the messages of what was read make the same bundle. -/
lemma bundleOf_read {file : FileText} {bundle : Bundle}
    (h : read file (analyze file).document = .ok bundle) :
    Path.extension? file.path = some "json" ∧
      ∃ locale, bundle.locale = some locale ∧ bundleOf bundle.messages locale = bundle := by
  obtain ⟨path, locale, translations, rfl, texts⟩ := eq_ofList_of_read h
  -- The ids of the messages are the keys of a map, so the first half of the result applies to them.
  have ids : ((Message.ofTranslations (OrderedMap.ofList translations)).map Message.id).Nodup := by
    rw [Message.ofTranslations, List.map_map]
    exact OrderedMap.nodup_keys_ofList translations
  refine ⟨path, locale, rfl, ?_⟩
  rw [Bundle.messages, bundleOf_of_nodup _ _ ids,
    listed_ofTranslations fun p hp => texts p (OrderedMap.mem_of_mem_ofList hp)]

/-- Nothing is lost in this format. A written file is loaded with its locale and, in the same order,
its messages: each has the translation that its text is cut into, which says that text. And what is
read of any file is read again when it is written as messages with its locale. -/
theorem load_render_json :
    (∀ (path locale : String) (messages : List Message) (isTarget : Bool) (ds : Diagnostics),
      Path.extension? path = some "json" → (messages.map Message.id).Nodup →
        Loader.load ⟨path, FileFormat.render .json messages locale isTarget⟩ ds =
          (some {
            locale := some locale
            translations := Message.listed (fun m => Translation.parse m.text) messages }, ds) ∧
        ∀ m ∈ messages, (Translation.parse m.text).text = m.text) ∧
    ∀ (file : FileText) (bundle : Bundle), (analyze file).accepted = true →
      read file (analyze file).document = .ok bundle →
        ∃ locale, bundle.locale = some locale ∧ ∀ (isTarget : Bool) (ds : Diagnostics),
          let again : FileText :=
            ⟨file.path, FileFormat.render .json bundle.messages locale isTarget⟩
          (analyze again).accepted = true ∧
            read again (analyze again).document = .ok bundle ∧
            Loader.load again ds = (some bundle, ds) := by
  constructor
  · intro path locale messages isTarget ds hpath hids
    refine ⟨?_, fun m _ => Translation.text_parse m.text⟩
    have contents : FileFormat.render .json messages locale isTarget = render messages locale := rfl
    rw [contents, ← bundleOf_of_nodup messages locale hids]
    exact load_written ⟨path, render messages locale⟩ messages locale hpath rfl ds
  · intro file bundle _ hread
    obtain ⟨hpath, locale, hlocale, kept⟩ := bundleOf_read hread
    refine ⟨locale, hlocale, fun isTarget ds => ?_⟩
    intro again
    have path : Path.extension? again.path = some "json" := hpath
    have contents : again.contents = render bundle.messages locale := rfl
    obtain ⟨document, accepts, reads⟩ :=
      read_written again bundle.messages locale path contents
    have loads := load_written again bundle.messages locale path contents ds
    rw [kept] at reads loads
    refine ⟨?_, ?_, loads⟩
    · rw [accepts]
      rfl
    · rw [accepts]
      exact reads

/-- A message with an empty id, and characters and braces that no other format takes. -/
def oddMessage : Message where
  text := "\x01 \\ \"\x7b$A\x7b$\x7d\x7d\n"

/-- A file as it may be written by hand. -/
def handWritten : FileText where
  path := "fr.json"
  contents := "\x7b\"locale\":\"fr\",\"translations\":\x7b\"a\":\"Salut \x7b$PH\x7d\"\x7d\x7d"

/-- The odd message is loaded as it was, and so is a file that was written by hand. -/
theorem load_oddMessage_json :
    Loader.load ⟨"fr.json", FileFormat.render .json [oddMessage] "fr" true⟩ [] =
        (some {
          locale := some "fr"
          translations := Message.listed (fun m => Translation.parse m.text) [oddMessage] }, []) ∧
      ∃ bundle locale, read handWritten (analyze handWritten).document = .ok bundle ∧
        Loader.load ⟨"fr.json", FileFormat.render .json bundle.messages locale true⟩ [] =
          (some bundle, []) := by
  constructor
  · exact (load_render_json.1 "fr.json" "fr" [oddMessage] true [] (by decide) (by decide)).1
  · let bundle : Bundle := {
      locale := some "fr"
      translations := ⟨[("a", .ofParts ["Salut ", ""] ["PH"])]⟩ }
    have accepted : (analyze handWritten).accepted = true := rfl
    have reads : read handWritten (analyze handWritten).document = .ok bundle := rfl
    obtain ⟨locale, -, again⟩ := load_render_json.2 handWritten bundle accepted reads
    exact ⟨bundle, locale, reads, (again true []).2.2⟩

end MessageCatalog.FileFormat.Json
