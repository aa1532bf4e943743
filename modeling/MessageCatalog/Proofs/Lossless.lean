import Mathlib.Data.List.Forall2
import MessageCatalog.Proofs.FileFormat.Content
import MessageCatalog.Proofs.WellFormed
import MessageCatalog.Proofs.Written

/-!
# Translations become messages without loss

A translation that was loaded can stand wherever a message can. Its raw parts escape a marker at
the front of a part, so as a template it has no blocks, and its parts are the texts that they are.
As a message it keeps its id, parts and names, and says its own text; and a file in whatever format
holds all parts of all translations of a bundle.
-/

namespace MessageCatalog

variable {t : Translation}

/-! ## Translations as templates -/

/-- A raw part opens no block. -/
lemma Block.split_rawPart (part : String) :
    split part (Translation.rawPart part) = .ok (none, part) := by
  have opensNone : (Translation.rawPart part).toList.head? ≠ some marker := by
    rw [Translation.rawPart]
    split
    case isTrue =>
      rw [String.toList_append]
      intro h
      have slash : '\\' = marker := Option.some.inj h
      exact absurd slash (by decide)
    case isFalse noMarker => exact noMarker
  rw [split, if_neg opensNone]

/-- No metadata is read of a text that comes with the raw part made for it. -/
lemma Metadata.parse_rawPart (part : String) :
    parse part (Translation.rawPart part) = .ok { text := part } := by
  rw [parse, Block.split_rawPart]
  rfl

/-- No name is read of a text that comes with the raw part made for it. -/
lemma PlaceholderPart.parse_rawPart (part : String) :
    parse part (Translation.rawPart part) = .ok { text := part } := by
  rw [parse, Block.split_rawPart]
  rfl

namespace Message

/-- Raw parts made for texts are paired with them in order. -/
lemma pairRaw_rawParts (parts : List String) :
    pairRaw parts (parts.map Translation.rawPart) =
      parts.map fun part => (part, Translation.rawPart part) := by
  induction parts with
  | nil => rfl
  | cons part parts ih => rw [List.map_cons, pairRaw, ih, List.map_cons]

/-- Raw parts are read as the texts that they are. -/
lemma exists_laterParts_rawParts (index : Nat) (parts : List String) :
    ∃ later, laterParts index (parts.map fun part => (part, Translation.rawPart part)) =
      .ok later ∧ later.map Prod.snd = parts := by
  induction parts generalizing index with
  | nil => exact ⟨[], rfl, rfl⟩
  | cons part parts ih =>
    obtain ⟨later, read, texts⟩ := ih (index + 1)
    refine ⟨(Placeholder.positionalName index, part) :: later, ?_, ?_⟩
    · rw [List.map_cons, laterParts, PlaceholderPart.parse_rawPart, read]
      rfl
    · rw [List.map_cons, texts]

end Message

namespace Translation

/-- The template that a translation would be written as. -/
def toTemplate (t : Translation) (substitutions : List String) : Template :=
  ⟨t.parts, t.rawParts, substitutions⟩

/-- A message without anything but its parts. -/
structure SaysOnly (parts : List String) (m : Message) : Prop where
  parts : m.parts = parts
  meaning : m.meaning = ""
  description : m.description = ""
  customId : m.customId = none
  legacyIds : m.legacyIds = []

/-- A translation with a part around each placeholder is a template of which a message can be
made. -/
lemma WellFormed.exists_message (h : t.WellFormed) (substitutions : List String) :
    ∃ m, Message.ofTemplate (t.toTemplate substitutions) = .ok m ∧ SaysOnly t.parts m := by
  cases parts : t.parts with
  | nil =>
    have length := h.length
    rw [parts] at length
    cases length
  | cons first rest =>
    have raw : t.rawParts = rawPart first :: rest.map rawPart := by
      rw [h.rawParts, parts, List.map_cons]
    obtain ⟨later, read, texts⟩ := Message.exists_laterParts_rawParts 1 rest
    rw [← Message.pairRaw_rawParts] at read
    refine ⟨Message.assemble { text := first } later substitutions, ?_, ?_⟩
    · have block : Metadata.parse first (rawPart first) = .ok { text := first } :=
        Metadata.parse_rawPart first
      rw [Message.ofTemplate, toTemplate, parts, raw]
      dsimp only [List.headD_cons]
      rw [block, List.drop_one, List.tail_cons, List.drop_one, List.tail_cons, read]
      rfl
    · exact ⟨congrArg (first :: ·) texts, rfl, rfl, rfl, rfl⟩

/-! ## Translations as messages -/

/-- The message made of a translation has its parts. -/
lemma WellFormed.parts_toMessage (h : t.WellFormed) (id : String) :
    (t.toMessage id).parts = t.parts := by
  have some : t.parts.isEmpty = false := by
    rw [List.isEmpty_eq_false_iff, ← List.length_pos_iff, h.length]
    exact Nat.succ_pos _
  rw [toMessage, some, if_neg Bool.false_ne_true]

/-- No name is made up. -/
lemma WellFormed.placeholderNames_toMessage (h : t.WellFormed) (id : String) :
    (t.toMessage id).placeholderNames = t.placeholderNames := by
  change fillNames 1 ((t.toMessage id).parts.length - 1) t.placeholderNames = _
  rw [h.parts_toMessage, h.length, Nat.add_sub_cancel, fillNames_of_length]

/-- The message made of a translation is whole. -/
lemma WellFormed.whole_toMessage (h : t.WellFormed) (id : String) : (t.toMessage id).Whole := by
  refine ⟨?_, rfl⟩
  rw [h.parts_toMessage, h.placeholderNames_toMessage, h.length]

/-- What a translation is as a template and as the message with an id: its parts open no blocks and
are kept, its names are kept, and each name is written with the part behind it. -/
structure Lossless (id : String) (t : Translation) : Prop where
  length : t.parts.length = t.placeholderNames.length + 1
  /-- There is a raw part for each part, and the two are a text without a block. -/
  blocks : List.Forall₂ (fun part raw => Block.split part raw = .ok (none, part)) t.parts t.rawParts
  template : ∀ substitutions, ∃ m,
    Message.ofTemplate (t.toTemplate substitutions) = .ok m ∧ SaysOnly t.parts m
  keepsId : (t.toMessage id).id = id
  keepsParts : (t.toMessage id).parts = t.parts
  keepsNames : (t.toMessage id).placeholderNames = t.placeholderNames
  keepsText : (t.toMessage id).text = t.text
  namesWritten : (t.toMessage id).laterPairs.map Prod.fst = t.placeholderNames
  partsWritten : (t.toMessage id).laterPairs.map Prod.snd = t.parts.drop 1

/-- Nothing is lost of a translation with a part around each placeholder. -/
lemma WellFormed.lossless (h : t.WellFormed) (id : String) : t.Lossless id := by
  have whole := h.whole_toMessage id
  have later : (t.parts.drop 1).length = t.placeholderNames.length := by
    rw [List.length_drop, h.length, Nat.add_sub_cancel]
  refine {
    length := h.length
    blocks := ?_
    template := h.exists_message
    keepsId := rfl
    keepsParts := h.parts_toMessage id
    keepsNames := h.placeholderNames_toMessage id
    keepsText := text_toMessage h.length id
    namesWritten := ?_
    partsWritten := ?_ }
  · rw [h.rawParts, List.forall₂_map_right_iff, List.forall₂_same]
    exact fun part _ => Block.split_rawPart part
  · rw [Message.laterPairs, h.parts_toMessage, h.placeholderNames_toMessage,
      List.map_fst_zip (Nat.le_of_eq later.symm)]
  · rw [Message.laterPairs, h.parts_toMessage, h.placeholderNames_toMessage,
      List.map_snd_zip (Nat.le_of_eq later)]

end Translation

/-! ## Bundles -/

/-- In whatever format, the parts of all translations stand in the file in their order. -/
lemma OrderedMap.Holds.inOrder_render {held : OrderedMap String Translation}
    (h : held.Holds Translation.WellFormed) (format : FileFormat) (locale : String)
    (isTarget : Bool) :
    Text.InOrder (held.entries.flatMap fun entry => entry.2.parts.map format.escaped)
      (format.render (Message.ofTranslations held) locale isTarget).toList := by
  have whole : ∀ m ∈ Message.ofTranslations held, m.Whole := by
    intro m member
    obtain ⟨⟨id, t⟩, hentry, rfl⟩ := List.mem_map.1 member
    exact (h.values _ hentry).whole_toMessage id
  have ids : ((Message.ofTranslations held).map Message.id).Nodup := by
    have keys : (Message.ofTranslations held).map Message.id = held.keys := by
      rw [Message.ofTranslations, List.map_map]
      rfl
    rw [keys]
    exact h.nodup
  have parts : (Message.ofTranslations held).flatMap (fun m => m.parts.map format.escaped) =
      held.entries.flatMap fun entry => entry.2.parts.map format.escaped := by
    rw [Message.ofTranslations, List.flatMap_map]
    refine List.flatMap_congr fun entry hentry => ?_
    exact congrArg (List.map format.escaped) ((h.values entry hentry).parts_toMessage entry.1)
  rw [← parts]
  exact format.inOrder_render whole ids locale isTarget

namespace Loader

/-- Every translation and every source of a bundle that was loaded is well formed and becomes a
message without loss; and when the translations or the sources are written, in whatever format, all
their parts stand in the file in order. -/
theorem loaded_without_loss {file : FileText} {ds ds' : Diagnostics} {bundle : Bundle}
    (h : load file ds = (some bundle, ds')) {held : OrderedMap String Translation}
    (hheld : held = bundle.translations ∨ bundle.sources = some held) :
    (∀ id t, (id, t) ∈ held.entries → t.Lossless id) ∧
      ∀ (format : FileFormat) (locale : String) (isTarget : Bool),
        Text.InOrder (held.entries.flatMap fun entry => entry.2.parts.map format.escaped)
          (format.render (Message.ofTranslations held) locale isTarget).toList := by
  have wellFormed := wellFormed_load h
  have holds : held.Holds Translation.WellFormed := by
    obtain rfl | sources := hheld
    · exact wellFormed.translations
    · exact wellFormed.sources held sources
  refine ⟨fun id t member => ?_, holds.inOrder_render⟩
  exact (holds.values (id, t) member).lossless id

/-- A unit with a source only, which starts with a marker. -/
def untranslated : FileText :=
  ⟨"fr.xlf", "<xliff version=\"1.2\"><trans-unit id=\"a\"><source>:B: <x id=\"USER-NAME\"/>" ++
    "</source></trans-unit></xliff>"⟩

/-- What is loaded of it. -/
def untranslatedText : OrderedMap String Translation :=
  ⟨[("a", .ofParts [":B: ", ""] ["USER_NAME"])]⟩

/-- A unit without a target is loaded from its source, and all of it is written again. -/
theorem loaded_without_loss_untranslated :
    load untranslated [] =
      (some { translations := untranslatedText, sources := some untranslatedText }, []) ∧
      (Translation.ofParts [":B: ", ""] ["USER_NAME"]).Lossless "a" := by
  have loaded : load untranslated [] =
      (some { translations := untranslatedText, sources := some untranslatedText }, []) := by
    decide +kernel
  refine ⟨loaded, ?_⟩
  exact (loaded_without_loss loaded (.inr rfl)).1 "a" _ List.mem_cons_self

end Loader

end MessageCatalog
