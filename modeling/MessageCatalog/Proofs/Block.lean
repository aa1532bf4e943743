import Mathlib.Data.List.Infix
import MessageCatalog.Block
import MessageCatalog.Proofs.Text

/-!
# Reading back what a block says

A block is closed by the first marker that the source does not escape, so a block whose markers are
escaped in the source is read as a whole. Its separators are looked for one after the other: what
stands before a separator must not contain it, what stands behind it may.
-/

namespace MessageCatalog

namespace Block

/-! ## The end of a block -/

/-- The raw text behind what stands for one cooked character. -/
def afterCharacter (raw : List Char) : List Char :=
  if raw.head? = some '\\' then raw.drop 2 else raw.drop 1

/-- Whether the raw text escapes the cooked character at an index. -/
def isEscaped (raw : List Char) : (index : Nat) → Bool
  | 0 => raw.head? = some '\\'
  | index + 1 => isEscaped (afterCharacter raw) index

/-- A cooked text cut at the first marker that its raw text does not escape: what stands before it
and what stands behind it. -/
def cutAtMarker? : (cooked raw : List Char) → Option (List Char × List Char)
  | [], _ => none
  | c :: cooked, raw =>
    if c = marker ∧ isEscaped raw 0 = false then some ([], cooked)
    else (cutAtMarker? cooked (afterCharacter raw)).map fun (block, text) => (c :: block, text)

section Cut

variable {c : Char} {cooked raw : List Char}

/-- A character that the raw text escapes is passed together with the two characters of its
escape. -/
lemma cutAtMarker?_of_escaped (h : raw.head? = some '\\') :
    cutAtMarker? (c :: cooked) raw =
      (cutAtMarker? cooked (raw.drop 2)).map fun (block, text) => (c :: block, text) := by
  have passed : isEscaped raw 0 = true := decide_eq_true h
  have goesOn : ¬ (c = marker ∧ isEscaped raw 0 = false) := by simp [passed]
  rw [cutAtMarker?, if_neg goesOn, afterCharacter, if_pos h]

/-- A character that is neither escaped nor the marker is passed in both texts. -/
lemma cutAtMarker?_of_ne (hc : c ≠ marker) (h : raw.head? ≠ some '\\') :
    cutAtMarker? (c :: cooked) raw =
      (cutAtMarker? cooked (raw.drop 1)).map fun (block, text) => (c :: block, text) := by
  rw [cutAtMarker?, if_neg fun closed => hc closed.1, afterCharacter, if_neg h]

/-- A marker that is not escaped ends the block, and the text begins behind it. -/
lemma cutAtMarker?_marker (h : raw.head? ≠ some '\\') :
    cutAtMarker? (marker :: cooked) raw = some ([], cooked) := by
  have whole : isEscaped raw 0 = false := decide_eq_false h
  rw [cutAtMarker?, if_pos ⟨rfl, whole⟩]

end Cut

/-- A text is cut at a marker. -/
lemma eq_append_of_cutAtMarker? {cooked raw block text : List Char}
    (h : cutAtMarker? cooked raw = some (block, text)) : cooked = block ++ marker :: text := by
  induction cooked generalizing raw block with
  | nil => cases h
  | cons c cooked ih =>
    rw [cutAtMarker?] at h
    split at h
    case isTrue here =>
      cases h
      rw [here.1, List.nil_append]
    case isFalse =>
      obtain ⟨⟨front, behind⟩, later, e⟩ := Option.map_eq_some_iff.1 h
      cases e
      rw [ih later, List.cons_append]

/-- The walk with two indices finds the marker at which the text is cut. -/
lemma markerFrom?_eq (raw : List Char) (index rawIndex : Nat) (cooked : List Char) :
    markerFrom? raw.toArray index rawIndex cooked =
      (cutAtMarker? cooked (raw.drop rawIndex)).map fun cut => index + cut.1.length := by
  induction cooked generalizing index rawIndex with
  | nil => rfl
  | cons c cooked ih =>
    have here : raw.toArray[rawIndex]? = (raw.drop rawIndex).head? := by
      rw [List.getElem?_toArray, List.head?_drop]
    have further (block : List Char) : index + 1 + block.length = index + (c :: block).length := by
      rw [List.length_cons, Nat.add_assoc, Nat.add_comm 1]
    rw [markerFrom?, here]
    by_cases escaped : (raw.drop rawIndex).head? = some '\\'
    case pos =>
      rw [if_pos escaped, cutAtMarker?_of_escaped escaped, ih, List.drop_drop, Option.map_map]
      simp only [Function.comp_def, further]
    case neg =>
      rw [if_neg escaped]
      by_cases closing : c = marker
      case pos =>
        rw [if_pos closing, closing, cutAtMarker?_marker escaped]
        rfl
      case neg =>
        rw [if_neg closing, cutAtMarker?_of_ne closing escaped, ih, List.drop_drop, Option.map_map]
        simp only [Function.comp_def, further]

/-- The walk by two indices stops where cutting character by character does. -/
lemma endIndex_eq (cooked raw : String) :
    endIndex cooked raw =
      match cutAtMarker? (cooked.toList.drop 1) (raw.toList.drop 1) with
      | some (block, _) => .ok (block.length + 1)
      | none => .error ⟨raw⟩ := by
  rw [endIndex, markerFrom?_eq]
  cases cutAtMarker? (cooked.toList.drop 1) (raw.toList.drop 1) with
  | none => rfl
  | some cut => exact congrArg Except.ok (Nat.add_comm 1 cut.1.length)

/-- A part with a block is cut around the marker that closes it. -/
lemma split_eq (cooked raw : String) :
    split cooked raw =
      if raw.toList.head? = some marker then
        match cutAtMarker? (cooked.toList.drop 1) (raw.toList.drop 1) with
        | some (block, text) => .ok (some (String.ofList block), String.ofList text)
        | none => .error ⟨raw⟩
      else .ok (none, cooked) := by
  rw [split, endIndex_eq]
  split
  case isTrue =>
    cases cut : cutAtMarker? (cooked.toList.drop 1) (raw.toList.drop 1) with
    | none => rfl
    | some pair =>
      obtain ⟨block, text⟩ := pair
      have behind := eq_append_of_cutAtMarker? cut
      have rest : cooked.toList.drop (block.length + 1 + 1) = text := by
        rw [Nat.add_comm _ 1, ← List.drop_drop, behind]
        simp
      have front : (cooked.toList.drop 1).take (block.length + 1 - 1) = block := by
        rw [behind, Nat.add_sub_cancel, List.take_left]
      change Except.ok (some (String.ofList ((cooked.toList.drop 1).take (block.length + 1 - 1))),
        String.ofList (cooked.toList.drop (block.length + 1 + 1))) = _
      rw [rest, front]
  case isFalse => rfl

/-- A text has no end of a block exactly when each of its markers is escaped. -/
lemma cutAtMarker?_eq_none_iff {cooked raw : List Char} :
    cutAtMarker? cooked raw = none ↔
      ∀ index, cooked[index]? = some marker → isEscaped raw index = true := by
  induction cooked generalizing raw with
  | nil => simp [cutAtMarker?]
  | cons c cooked ih =>
    rw [cutAtMarker?]
    split
    case isTrue closed =>
      refine iff_of_false nofun fun all => ?_
      have escaped := all 0 (congrArg some closed.1)
      rw [closed.2] at escaped
      cases escaped
    case isFalse goesOn =>
      rw [Option.map_eq_none_iff, ih]
      constructor
      · intro all index
        cases index with
        | zero =>
          intro here
          exact eq_true_of_ne_false fun plain => goesOn ⟨Option.some.inj here, plain⟩
        | succ index => exact all index
      · exact fun all index => all (index + 1)

/-- What it takes for a part to have a block that is not closed: its raw text begins with a marker,
and escapes every marker that comes later. -/
def Unclosed (cooked raw : String) : Prop :=
  raw.toList.head? = some marker ∧
    ∀ index, 0 < index → cooked.toList[index]? = some marker → isEscaped raw.toList index = true

/-- Behind an opening marker the raw text is walked as what is left of it. -/
lemma isEscaped_drop_one {raw : List Char} (h : raw.head? = some marker) (index : Nat) :
    isEscaped (raw.drop 1) index = isEscaped raw (index + 1) := by
  have plain : raw.head? ≠ some '\\' := by
    rw [h]
    decide
  rw [isEscaped, afterCharacter, if_neg plain]

/-- A block is unclosed when the texts behind the opening marker cannot be cut. -/
lemma unclosed_iff {cooked raw : String} (hraw : raw.toList.head? = some marker) :
    Unclosed cooked raw ↔ cutAtMarker? (cooked.toList.drop 1) (raw.toList.drop 1) = none := by
  rw [cutAtMarker?_eq_none_iff, Unclosed, and_iff_right hraw]
  constructor
  · intro all index here
    rw [List.getElem?_drop, Nat.add_comm] at here
    rw [isEscaped_drop_one hraw]
    exact all (index + 1) index.succ_pos here
  · intro all index positive here
    obtain ⟨index, rfl⟩ := Nat.exists_eq_add_of_lt positive
    rw [Nat.zero_add] at here ⊢
    rw [← isEscaped_drop_one hraw]
    refine all index ?_
    rw [List.getElem?_drop, Nat.add_comm]
    exact here

/-- Only a block that is not closed is an error, which names the raw text. -/
theorem split_eq_error_iff {cooked raw : String} {e : UnterminatedBlock} :
    split cooked raw = .error e ↔ Unclosed cooked raw ∧ e = ⟨raw⟩ := by
  rw [split_eq]
  split
  case isFalse noMarker => exact iff_of_false nofun fun h => noMarker h.1.1
  case isTrue hraw =>
    rw [unclosed_iff hraw]
    cases cutAtMarker? (cooked.toList.drop 1) (raw.toList.drop 1) with
    | some pair => exact iff_of_false nofun fun h => nomatch h.1
    | none => exact ⟨fun h => ⟨rfl, (Except.error.inj h).symm⟩, fun h => congrArg _ h.2.symm⟩

/-! ## Blocks in source -/

/-- The ways to write a block in source: a character that is neither a marker nor a backslash as
itself, any character as a backslash and one more character. -/
inductive Spelled : (raw block : List Char) → Prop
  | nil : Spelled [] []
  | plain {c : Char} {raw block : List Char} :
    c ≠ marker →
    c ≠ '\\' →
    Spelled raw block →
    Spelled (c :: raw) (c :: block)
  | escaped {raw block : List Char} (c written : Char) :
    Spelled raw block →
    Spelled ('\\' :: written :: raw) (c :: block)

/-- A character as it can always be written in a block. -/
def spell (c : Char) : List Char :=
  if c = marker ∨ c = '\\' then ['\\', c] else [c]

/-- Every block can be written. -/
lemma spelled_flatMap_spell (block : List Char) : Spelled (block.flatMap spell) block := by
  induction block with
  | nil => exact .nil
  | cons c block ih =>
    rw [List.flatMap_cons, spell]
    split
    case isTrue => exact .escaped c c ih
    case isFalse plain =>
      rw [not_or] at plain
      exact .plain plain.1 plain.2 ih

/-- A part with a block at its front. -/
def enclose (block text : List Char) : String :=
  String.ofList (marker :: (block ++ marker :: text))

/-- A block ends where its source does. -/
lemma cutAtMarker?_of_spelled {raw block : List Char} (h : Spelled raw block)
    (text rest : List Char) :
    cutAtMarker? (block ++ marker :: text) (raw ++ marker :: rest) = some (block, text) := by
  induction h with
  | nil => rfl
  | @plain c raw block hmarker hescape _ ih =>
    have whole : (c :: (raw ++ marker :: rest)).head? ≠ some '\\' :=
      fun h => hescape (Option.some.inj h)
    rw [List.cons_append, List.cons_append, cutAtMarker?_of_ne hmarker whole, List.drop_one,
      List.tail_cons, ih]
    rfl
  | escaped c written _ ih =>
    rw [List.cons_append, List.cons_append, List.cons_append, cutAtMarker?_of_escaped rfl,
      List.drop_succ_cons, List.drop_one, List.tail_cons, ih]
    rfl

/-- A block that is spelled in the raw text is split off, whatever stands behind it there. -/
lemma split_enclose {raw block : List Char} (h : Spelled raw block) (text rest : List Char) :
    split (enclose block text) (enclose raw rest) =
      .ok (some (String.ofList block), String.ofList text) := by
  rw [split_eq, enclose, enclose, String.toList_ofList, String.toList_ofList, List.head?_cons,
    if_pos rfl, List.drop_one, List.drop_one, List.tail_cons, List.tail_cons,
    cutAtMarker?_of_spelled h]

/-- An id behind its separator, if there is one. -/
def printId (id : Option String) : List Char :=
  match id with
  | some id => idSeparator ++ id.toList
  | none => []

/-- A text that may stand before an id: the separator neither occurs in it nor begins at its end. -/
structure BeforeId (text : List Char) (id : Option String) : Prop where
  noSeparator : ¬ idSeparator <:+: text
  end_ne : id.isSome → text.getLast? ≠ some '@'

/-- Cutting off the id undoes writing it, and without an id there is nothing to cut off. -/
lemma cutId_printId {text : List Char} {id : Option String} (h : BeforeId text id) :
    cutId (text ++ printId id) = (text, id.map String.toList) := by
  cases id with
  | none =>
    rw [printId, List.append_nil, cutId, Text.cutAt?_eq_none_iff.2 h.noSeparator]
    rfl
  | some id =>
    have apart : ¬ idSeparator <:+: text ++ idSeparator.dropLast := by
      intro occurs
      rcases List.infix_concat_iff.1 occurs with atEnd | inside
      · obtain ⟨front, e⟩ := atEnd
        have last : text = front ++ ['@'] := by
          rw [idSeparator, List.append_cons] at e
          exact (List.append_cancel_right e).symm
        exact h.end_ne rfl (by rw [last, List.getLast?_concat])
      · exact h.noSeparator inside
    rw [printId, cutId, Text.cutAt?_append apart]
    rfl

end Block

namespace Metadata

/-- The part of a block before the id: `meaning|description`, or just the description. -/
def head (m : Metadata) : List Char :=
  let description := (m.description.getD "").toList
  match m.meaning with
  | some meaning => meaning.toList ++ Block.meaningSeparator :: description
  | none => description

/-- The block that says what a metadata value holds. -/
def block (m : Metadata) : List Char :=
  m.head ++ Block.printId m.customId ++
    m.legacyIds.flatMap fun id => Block.legacySeparator :: id.toList

/-- What a block can say: its fields do not hold the separators that are looked for behind them, and
an empty description is none. -/
structure Writable (m : Metadata) : Prop where
  meaning : ∀ s ∈ m.meaning, Block.legacySeparator ∉ s.toList ∧ Block.meaningSeparator ∉ s.toList
  description : ∀ s ∈ m.description, s ≠ "" ∧ Block.legacySeparator ∉ s.toList ∧
    (m.meaning = none → Block.meaningSeparator ∉ s.toList)
  customId : ∀ s ∈ m.customId, Block.legacySeparator ∉ s.toList
  legacyIds : ∀ s ∈ m.legacyIds, Block.legacySeparator ∉ s.toList
  beforeId : Block.BeforeId m.head m.customId

variable {m : Metadata}

/-- No separator of legacy ids stands in front of them. -/
lemma Writable.legacySeparator_not_mem (h : m.Writable) :
    Block.legacySeparator ∉ m.head ++ Block.printId m.customId := by
  have description : Block.legacySeparator ∉ (m.description.getD "").toList := by
    cases e : m.description with
    | none => simp
    | some s => exact (h.description s e).2.1
  rw [List.mem_append, not_or]
  constructor
  · rw [head]
    cases e : m.meaning with
    | none => exact description
    | some s =>
      rw [List.mem_append, List.mem_cons, not_or, not_or]
      exact ⟨(h.meaning s e).1, by decide, description⟩
  · cases e : m.customId with
    | none => exact List.not_mem_nil
    | some s =>
      rw [Block.printId, List.mem_append, not_or]
      exact ⟨by decide, h.customId s e⟩

/-- The pieces of a written block are its head with the id and, behind it, the legacy ids. -/
lemma Writable.pieces_block (h : m.Writable) :
    Text.pieces Block.legacySeparator m.block =
      (m.head ++ Block.printId m.customId) :: m.legacyIds.map String.toList := by
  have later : ∀ p ∈ m.legacyIds.map String.toList, Block.legacySeparator ∉ p := by
    intro p hp
    obtain ⟨s, hs, rfl⟩ := List.mem_map.1 hp
    exact h.legacyIds s hs
  rw [← Text.pieces_append_flatMap h.legacySeparator_not_mem later, List.flatMap_map]
  rfl

/-- Cutting off the meaning undoes writing it in front of the description. -/
lemma Writable.cutMeaning_head (h : m.Writable) :
    Block.cutMeaning m.head = (m.meaning.map String.toList, (m.description.getD "").toList) := by
  rw [Block.cutMeaning, head]
  cases e : m.meaning with
  | some s =>
    have apart : ¬ [Block.meaningSeparator] <:+: s.toList ++ [Block.meaningSeparator].dropLast := by
      rw [List.singleton_infix_iff, List.dropLast_singleton, List.append_nil]
      exact (h.meaning s e).2
    have cut := Text.cutAt?_append apart (m.description.getD "").toList
    rw [List.singleton_append] at cut
    dsimp only
    rw [cut]
    rfl
  | none =>
    have whole : Block.meaningSeparator ∉ (m.description.getD "").toList := by
      cases e' : m.description with
      | none => simp
      | some s => exact (h.description s e').2.2 e
    dsimp only
    rw [Text.cutAt?_eq_none (List.mem_singleton_self _) whole]
    rfl

/-- A block says what it was written for. -/
lemma Writable.ofBlock_block (h : m.Writable) : ofBlock m.text m.block = m := by
  have description : (if (m.description.getD "").toList.isEmpty then none
      else some (String.ofList (m.description.getD "").toList)) = m.description := by
    cases e : m.description with
    | none => rfl
    | some s =>
      have full : s.toList.isEmpty = false := by
        simpa using (h.description s e).1
      rw [Option.getD_some, full, String.ofList_toList]
      rfl
  have given (o : Option String) : (o.map String.toList).map String.ofList = o := by
    cases o <;> simp
  have listed (ids : List String) : (ids.map String.toList).map String.ofList = ids := by
    simp
  rw [ofBlock, h.pieces_block, List.headD_cons, Block.cutId_printId h.beforeId]
  dsimp only
  rw [h.cutMeaning_head]
  dsimp only
  rw [description, given, given, List.drop_one, List.tail_cons, listed]

end Metadata

namespace Block

/-- A block is read back as what it was written for, however its source escapes it: the block of a
whole message with its meaning, description and ids, and the block of a placeholder with its name
and id. -/
theorem parse_written_block :
    (∀ (m : Metadata) (raw rest : List Char), m.Writable → Spelled raw m.block →
      Metadata.parse (enclose m.block m.text.toList) (enclose raw rest) = .ok m) ∧
    ∀ (name text : String) (id : Option String) (raw rest : List Char),
      BeforeId name.toList id → Spelled raw (name.toList ++ printId id) →
        PlaceholderPart.parse (enclose (name.toList ++ printId id) text.toList)
          (enclose raw rest) = .ok { text, name := some name, messageId := id } := by
  constructor
  · intro m raw rest writable spelled
    have value := writable.ofBlock_block
    rw [← String.toList_ofList (l := m.block)] at value
    rw [Metadata.parse, split_enclose spelled, String.ofList_toList]
    exact congrArg Except.ok value
  · intro name text id raw rest before spelled
    have value : PlaceholderPart.ofBlock text (name.toList ++ printId id) =
        { text, name := some name, messageId := id } := by
      rw [PlaceholderPart.ofBlock, cutId_printId before]
      dsimp only
      rw [String.ofList_toList]
      cases id <;> simp
    rw [← String.toList_ofList (l := name.toList ++ printId id)] at value
    rw [PlaceholderPart.parse, split_enclose spelled, String.ofList_toList]
    exact congrArg Except.ok value

/-- Fields with separators, markers and backslashes wherever these may stand. -/
def oddMetadata : Metadata where
  text := "::"
  meaning := some "a@"
  description := some "b|:c"
  customId := some "@@x:"
  legacyIds := ["", "1|2\\"]

/-- Metadata with markers and separators in odd places, and a placeholder with an escaped name. -/
theorem parse_oddMetadata :
    (enclose oddMetadata.block "::".toList = ":a@|b|:c@@@@x:␟␟1|2\\:::" ∧
      Metadata.parse (enclose oddMetadata.block "::".toList)
        (enclose (oddMetadata.block.flatMap spell) []) = .ok oddMetadata) ∧
    PlaceholderPart.parse (enclose ("a@b".toList ++ printId (some "@:c")) "d".toList)
      (enclose "a\\@b@@@\\:c".toList []) =
        .ok { text := "d", name := some "a@b", messageId := some "@:c" } := by
  have writable : oddMetadata.Writable :=
    ⟨by decide, by decide, by decide, by decide, ⟨by decide, by decide⟩⟩
  have before : BeforeId "a@b".toList (some "@:c") := ⟨by decide, by decide⟩
  have spelled : Spelled "a\\@b@@@\\:c".toList ("a@b".toList ++ printId (some "@:c")) :=
    .plain (by decide) (by decide) <| .escaped '@' '@' <| .plain (by decide) (by decide) <|
      .plain (by decide) (by decide) <| .plain (by decide) (by decide) <|
        .plain (by decide) (by decide) <| .escaped ':' ':' <| .plain (by decide) (by decide) .nil
  exact ⟨⟨by decide, parse_written_block.1 _ _ [] writable (spelled_flatMap_spell _)⟩,
    parse_written_block.2 _ _ _ _ [] before spelled⟩

end Block

end MessageCatalog
