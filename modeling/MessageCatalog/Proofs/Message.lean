import MessageCatalog.Message
import MessageCatalog.Proofs.Text

/-!
# The text form of a translation

A text is cut at its placeholders, and put together again it is the same text: the cuts take away
nothing but the braces and dollars that the text form adds. So a translation that was read from a
text and the message made of it both say that text.
-/

namespace MessageCatalog

namespace Placeholder

/-- A first part and, in turn, a placeholder and a part, as characters. -/
def joinChars (first : List Char) : List (List Char × List Char) → List Char
  | [] => first
  | (name, part) :: later => first ++ '{' :: '$' :: (name ++ '}' :: joinChars part later)

/-- Text in front of the first part is in front of all. -/
lemma joinChars_append (front first : List Char) (later : List (List Char × List Char)) :
    joinChars (front ++ first) later = front ++ joinChars first later := by
  cases later with
  | nil => rfl
  | cons pair later => exact List.append_assoc _ _ _

/-- A placeholder stands where the text is cut for it. -/
lemma eq_of_next? {text before name rest : List Char}
    (h : next? text = some (before, name, rest)) :
    text = before ++ '{' :: '$' :: (name ++ '}' :: rest) := by
  rw [next?] at h
  split at h
  case h_1 => cases h
  case h_2 front body opened =>
    split at h
    case h_1 => cases h
    case h_2 inside behind closed =>
      cases h
      rw [Text.eq_append_of_cutAt? opened, Text.eq_append_of_cutAt? closed]
      rfl

/-- Cutting a text at its placeholders loses nothing, however many are cut off. -/
theorem joinChars_segments (count : Nat) (text : List Char) :
    joinChars (segments count text).1 (segments count text).2 = text := by
  -- What stands behind a placeholder is cut again, so the claim is about every text.
  induction count generalizing text with
  | zero => rfl
  | succ count ih =>
    rw [segments]
    split
    case h_1 => rfl
    case h_2 before name rest found =>
      rw [eq_of_next? found, joinChars, ih rest]

/-- The text of parts and names is made of their characters in the same order. -/
lemma toList_interleave (first : String) (later : List (String × String)) :
    (interleave (first :: later.map Prod.snd) (later.map Prod.fst)).toList =
      joinChars first.toList (later.map fun p => (p.1.toList, p.2.toList)) := by
  have pairs : (later.map Prod.fst).zip (later.map Prod.snd) = later := by
    rw [List.zip_map', List.map_id'']
    exact fun _ => rfl
  rw [interleave, List.drop_one, List.tail_cons, pairs, List.headD_cons]
  clear pairs
  -- The fold adds to the text before, so the induction is over every first part.
  induction later generalizing first with
  | nil => rfl
  | cons pair rest ih =>
    obtain ⟨name, part⟩ := pair
    have before : (first ++ token name ++ part).toList =
        (first.toList ++ '{' :: '$' :: (name.toList ++ ['}'])) ++ part.toList := by
      simp [token]
    rw [List.foldl_cons, ih, before, joinChars_append, List.map_cons, joinChars]
    simp only [List.append_assoc, List.cons_append, List.nil_append]

end Placeholder

namespace Translation

/-- A text is cut into a first part and, in turn, a name and a part. -/
lemma parse_eq (text : String) : ∃ (first : String) (later : List (String × String)),
    parse text = ofParts (first :: later.map Prod.snd) (later.map Prod.fst) ∧
      Placeholder.joinChars first.toList (later.map fun p => (p.1.toList, p.2.toList)) =
        text.toList := by
  obtain ⟨first, later, cuts⟩ : ∃ first later,
      Placeholder.segments text.length text.toList = (first, later) := ⟨_, _, rfl⟩
  refine ⟨String.ofList first, later.map fun p => (String.ofList p.1, String.ofList p.2), ?_, ?_⟩
  · rw [parse, cuts, List.map_map, List.map_map]
    rfl
  · have joined := Placeholder.joinChars_segments text.length text.toList
    rw [cuts] at joined
    rw [List.map_map, String.toList_ofList]
    simpa only [Function.comp_def, String.toList_ofList, List.map_id'] using joined

/-- A translation says the text that it was cut from. -/
theorem text_parse (text : String) : (parse text).text = text := by
  obtain ⟨first, later, e, joined⟩ := parse_eq text
  rw [e, Translation.text, ← String.toList_inj, ← joined]
  exact Placeholder.toList_interleave first later

/-- Names for all placeholders are kept. -/
lemma fillNames_of_length (index : Nat) (names : List String) :
    fillNames index names.length names = names := by
  induction names generalizing index with
  | nil => rfl
  | cons name names ih => rw [List.length_cons, fillNames, ih]

/-- The message of a translation in which every placeholder has a name says the same text. -/
lemma text_toMessage {t : Translation} (h : t.parts.length = t.placeholderNames.length + 1)
    (id : String) : (t.toMessage id).text = t.text := by
  have parts : t.parts.isEmpty = false := by
    rw [List.isEmpty_eq_false_iff, ← List.length_pos_iff, h]
    exact Nat.succ_pos _
  have names : fillNames 1 (t.parts.length - 1) t.placeholderNames = t.placeholderNames := by
    rw [h, Nat.add_sub_cancel, fillNames_of_length]
  rw [toMessage, parts, if_neg Bool.false_ne_true, names, Translation.text]

/-- The message of a text says that text. -/
theorem text_toMessage_parse (id text : String) : ((parse text).toMessage id).text = text := by
  obtain ⟨first, later, e, -⟩ := parse_eq text
  have length : (parse text).parts.length = (parse text).placeholderNames.length + 1 := by
    rw [e]
    simp [ofParts]
  rw [text_toMessage length, text_parse]

end Translation

/-- With a part around each placeholder, parts and names are a first part and, in turn, a name and a
part. -/
lemma Placeholder.exists_later {parts names : List String} (h : parts.length = names.length + 1) :
    ∃ (first : String) (later : List (String × String)),
      parts = first :: later.map Prod.snd ∧ names = later.map Prod.fst ∧
        names.zip (parts.drop 1) = later := by
  cases parts with
  | nil => cases h
  | cons first rest =>
    have length : rest.length = names.length := Nat.succ.inj h
    refine ⟨first, names.zip rest, ?_, ?_, rfl⟩
    · rw [List.map_snd_zip (Nat.le_of_eq length)]
    · rw [List.map_fst_zip (Nat.le_of_eq length.symm)]

end MessageCatalog
