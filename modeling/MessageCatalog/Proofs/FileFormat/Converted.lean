import MessageCatalog.Proofs.Detection
import MessageCatalog.Proofs.FileFormat.Extracted
import MessageCatalog.Proofs.Lossless

/-!
# Texts from JSON to XLIFF 1.2

The translations of a JSON file, which are cut out of its texts, are written as units with a target
and loaded again. What comes back are the same translations under the same ids, but for their names:
reading markup spells them with underscores, and reading JSON keeps them as they are.
-/

namespace MessageCatalog

open IcuExpansion (opensNone)

/-! ## Parts of a text -/

namespace Placeholder

/-- The parts and the names of a text are cut out of it. -/
lemma subset_of_joinChars (first : List Char) (later : List (List Char × List Char)) :
    first ⊆ joinChars first later ∧
      ∀ p ∈ later, p.1 ⊆ joinChars first later ∧ p.2 ⊆ joinChars first later := by
  induction later generalizing first with
  | nil => exact ⟨List.Subset.refl _, nofun⟩
  | cons pair later ih =>
    obtain ⟨name, part⟩ := pair
    obtain ⟨here, behind⟩ := ih part
    have inside :
        name ++ '}' :: joinChars part later ⊆ joinChars first ((name, part) :: later) := by
      rw [joinChars]
      refine List.Subset.trans ?_ (List.subset_append_right _ _)
      exact List.Subset.trans (List.subset_cons_self _ _) (List.subset_cons_self _ _)
    have rest : joinChars part later ⊆ joinChars first ((name, part) :: later) := by
      refine List.Subset.trans ?_ inside
      exact List.Subset.trans (List.subset_cons_self _ _) (List.subset_append_right _ _)
    refine ⟨List.subset_append_left _ _, List.forall_mem_cons.2 ⟨⟨?_, ?_⟩, ?_⟩⟩
    · exact List.Subset.trans (List.subset_append_left _ _) inside
    · exact List.Subset.trans here rest
    · intro p hp
      obtain ⟨name, part⟩ := behind p hp
      exact ⟨List.Subset.trans name rest, List.Subset.trans part rest⟩

/-- Of a text in which no brace opens an expansion, the same is true of its parts. -/
lemma opensNone_of_joinChars {first : List Char} {later : List (List Char × List Char)}
    (h : opensNone (joinChars first later) = true) :
    opensNone first = true ∧ ∀ p ∈ later, opensNone p.2 = true := by
  induction later generalizing first with
  | nil => exact ⟨h, nofun⟩
  | cons pair later ih =>
    obtain ⟨name, part⟩ := pair
    rw [joinChars] at h
    obtain ⟨here, token⟩ := IcuExpansion.opensNone_of_append h
    have inside := (IcuExpansion.opensNone_cons.1 (IcuExpansion.opensNone_cons.1 token).2).2
    have closed := (IcuExpansion.opensNone_of_append inside).2
    obtain ⟨part, behind⟩ := ih (IcuExpansion.opensNone_cons.1 closed).2
    exact ⟨here, List.forall_mem_cons.2 ⟨part, behind⟩⟩

end Placeholder

/-! ## Translations as units -/

namespace Translation

/-- A translation with its names as a markup file spells them. -/
def respelled (t : Translation) : Translation :=
  { t with placeholderNames := t.placeholderNames.map Replay.normalizeName }

/-- An id and a translation whose text has no control characters, no expansions and no placeholder
without a name. -/
structure Convertible (id : String) (t : Translation) : Prop where
  id_ne : id ≠ ""
  id_text : Markup.isLineText id = true
  text : Markup.isLineText t.text = true
  plain : opensNone t.text.toList = true
  names_ne : "" ∉ t.placeholderNames

instance (id : String) (t : Translation) : Decidable (t.Convertible id) :=
  decidable_of_iff
    (id ≠ "" ∧ Markup.isLineText id = true ∧ Markup.isLineText t.text = true ∧
      opensNone t.text.toList = true ∧ "" ∉ t.placeholderNames)
    ⟨fun ⟨ne, line, text, plain, names⟩ => ⟨ne, line, text, plain, names⟩,
      fun h => ⟨h.id_ne, h.id_text, h.text, h.plain, h.names_ne⟩⟩

variable {id source : String}

/-- The strings of the message of a text are cut out of that, but for its id. -/
lemma Convertible.madeWithin (h : (parse source).Convertible id) :
    ((parse source).toMessage id).MadeWithin Markup.IsLineChar := by
  obtain ⟨first, later, e, joined⟩ := parse_eq source
  obtain ⟨here, behind⟩ := Placeholder.subset_of_joinChars first.toList
    (later.map fun p => (p.1.toList, p.2.toList))
  have wellFormed := wellFormed_parse source
  have line : ∀ c ∈ source.toList, Markup.IsLineChar c := by
    have text := h.text
    rw [text_parse] at text
    exact Markup.isLineText_iff_forall.1 text
  rw [joined] at here behind
  have pieces : ∀ p ∈ later, p.1.toList ⊆ source.toList ∧ p.2.toList ⊆ source.toList :=
    fun p hp => behind _ (List.mem_map_of_mem hp)
  constructor
  case id => exact Markup.isLineText_iff_forall.1 h.id_text
  case parts =>
    rw [wellFormed.parts_toMessage, e]
    refine List.forall_mem_cons.2 ⟨fun c m => line c (here m), ?_⟩
    intro part hpart
    obtain ⟨p, hp, rfl⟩ := List.mem_map.1 hpart
    exact fun c m => line c ((pieces p hp).2 m)
  case placeholderNames =>
    rw [wellFormed.placeholderNames_toMessage, e]
    intro name hname
    obtain ⟨p, hp, rfl⟩ := List.mem_map.1 hname
    exact fun c m => line c ((pieces p hp).1 m)
  case meaning => exact nofun
  case description => exact nofun

/-- A message made of a convertible text opens no expansion. -/
lemma Convertible.plain_toMessage (h : (parse source).Convertible id) :
    ((parse source).toMessage id).Plain := by
  obtain ⟨first, later, e, joined⟩ := parse_eq source
  have plain := h.plain
  rw [text_parse, ← joined] at plain
  obtain ⟨here, behind⟩ := Placeholder.opensNone_of_joinChars plain
  change ∀ part ∈ ((parse source).toMessage id).parts, _
  rw [(wellFormed_parse source).parts_toMessage, e]
  refine List.forall_mem_cons.2 ⟨here, ?_⟩
  intro part hpart
  obtain ⟨p, hp, rfl⟩ := List.mem_map.1 hpart
  exact behind _ (List.mem_map_of_mem hp)

/-- A text that is convertible is a message that a markup file can hold. -/
lemma Convertible.ready (h : (parse source).Convertible id) :
    ((parse source).toMessage id).Ready := by
  have wellFormed := wellFormed_parse source
  have names_ne : "" ∉ ((parse source).toMessage id).placeholderNames := by
    rw [wellFormed.placeholderNames_toMessage]
    exact h.names_ne
  exact Message.ready_of_plain h.madeWithin.hasText (wellFormed.whole_toMessage id).length
    h.plain_toMessage h.id_ne names_ne

/-- What a file says that holds the message of a text is the translation that was cut from it. -/
lemma Convertible.annotated_toMessage (h : (parse source).Convertible id) :
    ((parse source).toMessage id).annotated = (parse source).respelled := by
  have wellFormed := wellFormed_parse source
  have replayed := Message.replayed_of_plain (wellFormed.whole_toMessage id).length
    h.plain_toMessage
  rw [Message.annotated, replayed, wellFormed.parts_toMessage,
    wellFormed.placeholderNames_toMessage]
  rfl

/-- Names without hyphens are spelled as they are. -/
lemma respelled_eq_self {t : Translation} (h : ∀ name ∈ t.placeholderNames, '-' ∉ name.toList) :
    t.respelled = t := by
  have spelled : ∀ name ∈ t.placeholderNames, Replay.normalizeName name = name := by
    intro name hname
    have chars : Text.replace '-' '_' name.toList = name.toList := by
      refine (List.map_congr_left fun c hc => if_neg ?_).trans (List.map_id _)
      rintro rfl
      exact h name hname hc
    rw [Replay.normalizeName, chars, String.ofList_toList]
  have names : t.placeholderNames.map Replay.normalizeName = t.placeholderNames :=
    (List.map_congr_left spelled).trans (List.map_id _)
  rw [respelled, names]

end Translation

namespace Loader

variable {file : FileText} {ds ds' : Diagnostics} {bundle : Bundle} {locale : String}

/-- A JSON file is loaded with a locale and with translations that were cut from texts. -/
lemma eq_of_load_json (json : (Reader.json.analyze file).accepted = true)
    (h : load file ds = (some bundle, ds')) :
    ∃ locale translations, bundle = { locale := some locale, translations } ∧
      ∀ entry ∈ translations.entries, ∃ source, entry.2 = Translation.parse source := by
  have one : Reader.json ∈ Reader.all := by decide
  rw [load, loadWith_eq_readWith json one, readWith, readAccepted] at h
  split at h
  case h_1 read ok =>
    cases h
    obtain ⟨-, locale, translations, rfl, cut⟩ := FileFormat.Json.eq_ofList_of_read ok
    refine ⟨locale, OrderedMap.ofList translations, rfl, ?_⟩
    exact fun entry member => cut entry (OrderedMap.mem_of_mem_ofList member)
  case h_2 => cases h

/-- Translations that were cut from texts are loaded from the units that they are written to. -/
lemma load_render_convertible {translations : OrderedMap String Translation}
    (nodup : translations.keys.Nodup)
    (cut : ∀ entry ∈ translations.entries, ∃ source, entry.2 = Translation.parse source)
    (hentries : ∀ id t, (id, t) ∈ translations.entries → t.Convertible id) (locale_ne : locale ≠ "")
    (locale_text : Markup.isLineText locale = true) (path : String) (ds : Diagnostics) :
    load ⟨path, FileFormat.render .xliff1 (Message.ofTranslations translations) locale true⟩ ds =
      (some {
        locale := some locale
        translations := ⟨translations.entries.map fun e => (e.1, e.2.respelled)⟩ }, ds) := by
  let messages := Message.ofTranslations translations
  -- what the reader asks of messages holds since each of them was cut from a text
  have ready : ∀ m ∈ messages, m.Ready := by
    intro m hm
    obtain ⟨⟨id, t⟩, member, rfl⟩ := List.mem_map.1 hm
    obtain ⟨source, rfl⟩ := cut (id, t) member
    exact (hentries id _ member).ready
  have notes : ∀ m ∈ messages, FileFormat.Xliff1.HasNotes m := by
    intro m hm
    obtain ⟨⟨id, t⟩, member, rfl⟩ := List.mem_map.1 hm
    obtain ⟨source, rfl⟩ := cut (id, t) member
    exact ⟨rfl, rfl⟩
  have ids : (messages.map Message.id).Nodup := by
    have keys : messages.map Message.id = translations.keys := List.map_map
    rw [keys]
    exact nodup
  have texts : Message.listed Message.annotated messages =
      ⟨translations.entries.map fun e => (e.1, e.2.respelled)⟩ := by
    rw [Message.listed]
    refine congrArg OrderedMap.mk (List.map_map.trans (List.map_congr_left ?_))
    rintro ⟨id, t⟩ member
    obtain ⟨source, rfl⟩ := cut (id, t) member
    exact congrArg (id, ·) (hentries id _ member).annotated_toMessage
  let target : FileText := ⟨path, FileFormat.render .xliff1 messages locale true⟩
  have accepts : Reader.xliff1.analyze target = .accept (.markup
      ((FileFormat.Xliff1.rootElement true locale messages "").toElement 0)) :=
    FileFormat.Xliff1.analyze_render path true locale_text (fun m hm => (ready m hm).hasText) notes
  have quiet : (Reader.xliff1.analyze target).diagnostics = [] :=
    congrArg Analysis.diagnostics accepts
  have read : Reader.xliff1.read target (Reader.xliff1.analyze target).document = .ok {
      locale := some locale
      translations := ⟨translations.entries.map fun e => (e.1, e.2.respelled)⟩ } := by
    rw [accepts, ← texts, ← Text.unlessEmpty_of_ne locale_ne]
    exact FileFormat.Xliff1.read_rootElement target true locale_text ready ids 0
  have one : Reader.xliff1 ∈ Reader.all := by decide
  rw [load, loadWith_eq_readWith (congrArg Analysis.accepted accepts) one, readWith, readAccepted,
    read, quiet]
  dsimp only
  rw [List.append_nil, List.append_nil]

/-- A file is not loaded in which a placeholder without a name is written. -/
lemma load_render_nameless {m : Message} (text : m.HasText) (notes : FileFormat.Xliff1.HasNotes m)
    (length : m.parts.length = m.placeholderNames.length + 1) (empty : "" ∈ m.placeholderNames)
    (locale_text : Markup.isLineText locale = true) (path : String) (ds : Diagnostics) :
    (load ⟨path, FileFormat.render .xliff1 [m] locale true⟩ ds).1 = none := by
  let target : FileText := ⟨path, FileFormat.render .xliff1 [m] locale true⟩
  have accepts : Reader.xliff1.analyze target = .accept (.markup
      ((FileFormat.Xliff1.rootElement true locale [m] "").toElement 0)) :=
    FileFormat.Xliff1.analyze_render path true locale_text (List.forall_mem_singleton.2 text)
      (List.forall_mem_singleton.2 notes)
  obtain ⟨e, fails⟩ : ∃ e, Reader.xliff1.read target (Reader.xliff1.analyze target).document =
      .error e := by
    rw [accepts]
    exact FileFormat.Xliff1.exists_error_of_read_rootElement text length (.inr empty) true locale 0
  have one : Reader.xliff1 ∈ Reader.all := by decide
  rw [load, loadWith_eq_readWith (congrArg Analysis.accepted accepts) one, readWith, readAccepted,
    fails]

/-- A JSON file is converted to an XLIFF file that is loaded with the same locale and, under the
same ids in the same order, with the same translations, their names spelled with underscores. So it
is loaded as the same bundle when no name has a hyphen. -/
theorem load_converted_json (json : (Reader.json.analyze file).accepted = true)
    (h : load file ds = (some bundle, ds')) (hlocale : bundle.locale = some locale)
    (locale_ne : locale ≠ "") (locale_text : Markup.isLineText locale = true)
    (hentries : ∀ id t, (id, t) ∈ bundle.translations.entries → t.Convertible id)
    (path : String) (ds₂ : Diagnostics) :
    load ⟨path, FileFormat.render .xliff1 bundle.messages locale true⟩ ds₂ =
        (some {
          locale := some locale
          translations := ⟨bundle.translations.entries.map fun e => (e.1, e.2.respelled)⟩ }, ds₂) ∧
      ((∀ id t, (id, t) ∈ bundle.translations.entries →
          ∀ name ∈ t.placeholderNames, '-' ∉ name.toList) →
        load ⟨path, FileFormat.render .xliff1 bundle.messages locale true⟩ ds₂ =
          (some bundle, ds₂)) := by
  have wellFormed := wellFormed_load h
  obtain ⟨locale', translations, rfl, cut⟩ := eq_of_load_json json h
  cases hlocale
  have converted := load_render_convertible wellFormed.translations.nodup cut hentries locale_ne
    locale_text path ds₂
  refine ⟨converted, fun spelled => converted.trans ?_⟩
  have same : (translations.entries.map fun e => (e.1, e.2.respelled)) = translations.entries := by
    refine (List.map_congr_left fun e he => ?_).trans (List.map_id _)
    exact congrArg (e.1, ·) (Translation.respelled_eq_self (spelled e.1 e.2 he))
  rw [same]

/-- A text with a placeholder. -/
def greetingText : FileText :=
  ⟨"fr.json",
    "\x7b\"locale\": \"fr\", \"translations\": \x7b\"hi\": \"Salut \x7b$NAME\x7d !\"\x7d\x7d"⟩

/-- The same text with a placeholder whose name has a hyphen. -/
def hyphenatedText : FileText :=
  ⟨"fr.json",
    "\x7b\"locale\": \"fr\", \"translations\": \x7b\"hi\": \"Salut \x7b$FIRST-NAME\x7d !\"\x7d\x7d"⟩

/-- The same text with a placeholder that has no name. -/
def namelessText : FileText :=
  ⟨"fr.json",
    "\x7b\"locale\": \"fr\", \"translations\": \x7b\"hi\": \"Salut \x7b$\x7d !\"\x7d\x7d"⟩

/-- What is loaded of such a text. -/
def greetingBundle (name : String) : Bundle where
  locale := some "fr"
  translations := ⟨[("hi", .ofParts ["Salut ", " !"] [name])]⟩

/-- The one translation of the bundle has to be convertible. -/
lemma convertible_greetingBundle {name : String}
    (h : (Translation.ofParts ["Salut ", " !"] [name]).Convertible "hi") :
    ∀ id t, (id, t) ∈ (greetingBundle name).translations.entries → t.Convertible id := by
  intro id t member
  cases List.mem_singleton.1 member
  exact h

/-- The text is converted with its placeholder. -/
theorem load_converted_greetingText :
    load greetingText [] = (some (greetingBundle "NAME"), []) ∧
      load ⟨"fr.xlf", FileFormat.render .xliff1 (greetingBundle "NAME").messages "fr" true⟩ [] =
        (some (greetingBundle "NAME"), []) := by
  have json : (Reader.json.analyze greetingText).accepted = true := by decide +kernel
  have loaded : load greetingText [] = (some (greetingBundle "NAME"), []) := by decide +kernel
  have converted := load_converted_json json loaded rfl (by decide) (by decide)
    (convertible_greetingBundle (by decide)) "fr.xlf" []
  refine ⟨loaded, converted.2 ?_⟩
  intro id t member
  cases List.mem_singleton.1 member
  change ∀ name ∈ ["NAME"], _
  decide

/-- A name with a hyphen does not stay what it was, and a placeholder without a name is not read
again. -/
theorem names_converted_hyphenatedText :
    ((Reader.json.analyze hyphenatedText).accepted = true ∧
      load hyphenatedText [] = (some (greetingBundle "FIRST-NAME"), []) ∧
      (∀ id t, (id, t) ∈ (greetingBundle "FIRST-NAME").translations.entries → t.Convertible id) ∧
      load ⟨"fr.xlf", FileFormat.render .xliff1 (greetingBundle "FIRST-NAME").messages "fr" true⟩
        [] = (some (greetingBundle "FIRST_NAME"), []) ∧
      greetingBundle "FIRST_NAME" ≠ greetingBundle "FIRST-NAME") ∧
    ((Reader.json.analyze namelessText).accepted = true ∧
      load namelessText [] = (some (greetingBundle ""), []) ∧
      (load ⟨"fr.xlf", FileFormat.render .xliff1 (greetingBundle "").messages "fr" true⟩ []).1 =
        none) := by
  have locale_text : Markup.isLineText "fr" = true := by decide
  constructor
  · have convertible : ∀ id t, (id, t) ∈ (greetingBundle "FIRST-NAME").translations.entries →
        t.Convertible id := convertible_greetingBundle (by decide)
    have cut : ∀ entry ∈ (greetingBundle "FIRST-NAME").translations.entries,
        ∃ source, entry.2 = Translation.parse source := by
      refine List.forall_mem_singleton.2 ⟨"Salut \x7b$FIRST-NAME\x7d !", ?_⟩
      decide
    have nodup : (greetingBundle "FIRST-NAME").translations.keys.Nodup :=
      List.pairwise_singleton _ _
    have locale_ne : "fr" ≠ "" := by decide
    have converted := load_render_convertible nodup cut convertible locale_ne locale_text
      "fr.xlf" []
    have spelled : ((greetingBundle "FIRST-NAME").translations.entries.map fun e =>
        (e.1, e.2.respelled)) = (greetingBundle "FIRST_NAME").translations.entries := by decide
    refine ⟨by decide +kernel, by decide +kernel, convertible, ?_, by decide⟩
    rw [spelled] at converted
    exact converted
  · refine ⟨by decide +kernel, by decide +kernel, ?_⟩
    let m := (Translation.ofParts ["Salut ", " !"] [""]).toMessage "hi"
    have parts : ∀ part ∈ ["Salut ", " !"], Markup.isPlainText part = true := by decide
    have names : ∀ name ∈ [""], Markup.isLineText name = true := by decide
    have text : m.HasText := ⟨by decide, parts, names⟩
    have empty : "" ∈ m.placeholderNames := List.mem_singleton.2 rfl
    exact load_render_nameless text ⟨by decide, by decide⟩ rfl empty locale_text "fr.xlf" []

end Loader

end MessageCatalog
