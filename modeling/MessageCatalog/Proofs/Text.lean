import Mathlib.Tactic.Lemma
import MessageCatalog.Text

/-!
# Laws of cutting text

Byte lengths add up over concatenation, a text that starts with a lead can be cut behind it, and a
separator that does not occur cuts nothing. The readers consume a printed front of the text and
leave the rest, so every law is stated for a front and an arbitrary rest.
-/

namespace MessageCatalog.Text

/-- A text that is not empty. -/
def unlessEmpty (text : String) : Option String :=
  if text.isEmpty then none else some text

/-- A text that is not empty is kept. -/
lemma unlessEmpty_of_ne {text : String} (h : text ≠ "") : unlessEmpty text = some text :=
  if_neg fun e => h (String.isEmpty_iff.1 e)

/-- A text that is kept is the text itself. -/
lemma eq_of_mem_unlessEmpty {text value : String} (h : value ∈ unlessEmpty text) :
    value = text := by
  rw [unlessEmpty] at h
  split at h
  · cases h
  · cases h
    rfl

/-- No characters take no bytes. -/
@[simp]
lemma byteLength_nil : byteLength [] = 0 := rfl

/-- The bytes of a text are those of its first character and of the rest. -/
@[simp]
lemma byteLength_cons (c : Char) (text : List Char) :
    byteLength (c :: text) = c.utf8Size + byteLength text := rfl

/-- The bytes of texts are added up. -/
@[simp]
lemma byteLength_append (front rest : List Char) :
    byteLength (front ++ rest) = byteLength front + byteLength rest := by
  induction front with
  | nil => exact (Nat.zero_add _).symm
  | cons c front ih =>
    rw [List.cons_append, byteLength_cons, byteLength_cons, ih, Nat.add_assoc]

/-- Every character has a byte. -/
lemma length_le_byteLength (text : List Char) : text.length ≤ byteLength text := by
  induction text with
  | nil => exact Nat.le_refl 0
  | cons c text ih =>
    rw [List.length_cons, byteLength_cons, Nat.add_comm]
    exact Nat.add_le_add c.utf8Size_pos ih

/-- What stands in front is dropped. -/
@[simp]
lemma dropLead?_append (lead rest : List Char) : dropLead? lead (lead ++ rest) = some rest := by
  induction lead with
  | nil => rfl
  | cons c lead ih => simp [dropLead?, ih]

/-- A lead in two parts is dropped part by part. -/
lemma dropLead?_append_lead (lead more text : List Char) :
    dropLead? (lead ++ more) text = (dropLead? lead text).bind (dropLead? more) := by
  induction lead generalizing text with
  | nil => cases more <;> rfl
  | cons l lead ih =>
    cases text with
    | nil => rfl
    | cons c text =>
      rw [List.cons_append, dropLead?, dropLead?]
      split
      · exact ih text
      · rfl

/-- A lead that can be dropped is a front of the text. -/
lemma eq_append_of_dropLead? {lead text rest : List Char} (h : dropLead? lead text = some rest) :
    text = lead ++ rest := by
  induction lead generalizing text with
  | nil => cases h; rfl
  | cons l lead ih =>
    cases text with
    | nil => cases h
    | cons c text =>
      simp only [dropLead?] at h
      split at h
      · rename_i e
        rw [e, ih h, List.cons_append]
      · cases h

/-- A text starts with what stands in front. -/
@[simp]
lemma startsWith_append (lead rest : List Char) : startsWith lead (lead ++ rest) = true := by
  simp [startsWith]

/-- A text starts with a lead only if their first characters are the same. -/
lemma startsWith_of_ne {first c : Char} (h : first ≠ c) (lead text : List Char) :
    startsWith (first :: lead) (c :: text) = false := by
  rw [startsWith, dropLead?, if_neg h]
  rfl

/-- A lead with which a text starts is a front of it. -/
lemma eq_append_of_startsWith {lead text : List Char} (h : startsWith lead text = true) :
    ∃ rest, text = lead ++ rest := by
  obtain ⟨rest, e⟩ := Option.isSome_iff_exists.1 h
  exact ⟨rest, eq_append_of_dropLead? e⟩

/-- A text does not start with a lead of which it lacks a character. -/
lemma dropLead?_eq_none {lead text : List Char} {c : Char} (hl : c ∈ lead) (ht : c ∉ text) :
    dropLead? lead text = none := by
  cases h : dropLead? lead text with
  | none => rfl
  | some rest =>
    have e := eq_append_of_dropLead? h
    exact absurd (e ▸ List.mem_append_left rest hl) ht

/-- A cut takes nothing but the separator away. -/
lemma eq_append_of_cutAt? {separator text before after : List Char}
    (h : cutAt? separator text = some (before, after)) : text = before ++ (separator ++ after) := by
  induction text generalizing before with
  | nil =>
    rw [cutAt?, Option.map_eq_some_iff] at h
    obtain ⟨rest, dropped, e⟩ := h
    cases e
    rw [List.nil_append, ← eq_append_of_dropLead? dropped]
  | cons c text ih =>
    rw [cutAt?] at h
    split at h
    case h_1 rest dropped =>
      cases h
      rw [List.nil_append, ← eq_append_of_dropLead? dropped]
    case h_2 =>
      rw [Option.map_eq_some_iff] at h
      obtain ⟨⟨front, rest⟩, cut, e⟩ := h
      cases e
      rw [ih cut, List.cons_append]

/-- A separator with a character that a text lacks does not cut it. -/
lemma cutAt?_eq_none {separator text : List Char} {c : Char} (hs : c ∈ separator)
    (ht : c ∉ text) : cutAt? separator text = none := by
  induction text with
  | nil => simp [cutAt?, dropLead?_eq_none hs ht]
  | cons d text ih =>
    have ht' : c ∉ text := fun h => ht (List.mem_cons_of_mem d h)
    simp [cutAt?, dropLead?_eq_none hs ht, ih ht']

/-- A lead can be dropped exactly when it is a front of the text. -/
lemma dropLead?_eq_none_iff {lead text : List Char} :
    dropLead? lead text = none ↔ ¬ lead <+: text := by
  constructor
  · rintro h ⟨rest, rfl⟩
    rw [dropLead?_append] at h
    cases h
  · intro h
    cases dropped : dropLead? lead text with
    | none => rfl
    | some rest => exact absurd ⟨rest, (eq_append_of_dropLead? dropped).symm⟩ h

/-- A text is cut exactly when the separator occurs in it. -/
lemma cutAt?_eq_none_iff {separator text : List Char} :
    cutAt? separator text = none ↔ ¬ separator <:+: text := by
  induction text with
  | nil => rw [cutAt?, Option.map_eq_none_iff, dropLead?_eq_none_iff, List.prefix_nil,
      List.infix_nil]
  | cons c text ih =>
    rw [cutAt?, List.infix_cons_iff, not_or, ← ih, ← dropLead?_eq_none_iff]
    split
    case h_1 rest dropped => simp [dropped]
    case h_2 dropped => simp [dropped]

/-- A text is cut in front of a separator that neither occurs before it nor begins there. -/
lemma cutAt?_append {separator before : List Char}
    (h : ¬ separator <:+: before ++ separator.dropLast) (after : List Char) :
    cutAt? separator (before ++ (separator ++ after)) = some (before, after) := by
  induction before with
  | nil =>
    cases separator with
    | nil => exact absurd List.infix_rfl h
    | cons c separator =>
      have dropped := dropLead?_append (c :: separator) after
      rw [List.cons_append] at dropped
      rw [List.nil_append, List.cons_append, cutAt?, dropped]
  | cons c before ih =>
    have later : ¬ separator <:+: before ++ separator.dropLast := fun occurs =>
      h (List.infix_cons occurs)
    have dropped : dropLead? separator (c :: (before ++ (separator ++ after))) = none := by
      rw [dropLead?_eq_none_iff]
      -- A front as long as the separator lies before the last character of the real one.
      intro front
      have inside : c :: (before ++ separator.dropLast) <+:
          c :: (before ++ (separator ++ after)) := by
        rw [List.prefix_cons_inj, List.prefix_append_right_inj]
        exact (List.dropLast_prefix separator).trans (List.prefix_append separator after)
      have short : separator.length ≤ (c :: (before ++ separator.dropLast)).length := by
        rw [List.length_cons, List.length_append, List.length_dropLast]
        omega
      exact h (List.prefix_of_prefix_length_le front inside short).isInfix
    rw [List.cons_append, cutAt?, dropped, ih later]
    rfl

/-- A cut is at the first occurrence: the separator neither occurs before it nor begins there. -/
lemma not_infix_of_cutAt? {separator text before after : List Char} (hs : separator ≠ [])
    (h : cutAt? separator text = some (before, after)) :
    ¬ separator <:+: before ++ separator.dropLast := by
  induction text generalizing before with
  | nil =>
    rw [cutAt?, Option.map_eq_some_iff] at h
    obtain ⟨rest, dropped, -⟩ := h
    exact absurd (List.append_eq_nil_iff.1 (eq_append_of_dropLead? dropped).symm).1 hs
  | cons c text ih =>
    rw [cutAt?] at h
    split at h
    case h_1 rest dropped =>
      cases h
      intro occurs
      have longer := occurs.length_le
      have positive := List.length_pos_iff.2 hs
      rw [List.nil_append, List.length_dropLast] at longer
      omega
    case h_2 noLead =>
      rw [Option.map_eq_some_iff] at h
      obtain ⟨⟨front, rest⟩, cut, e⟩ := h
      cases e
      rw [List.cons_append, List.infix_cons_iff, not_or]
      refine ⟨?_, ih cut⟩
      -- A separator at the front would be one of the whole text.
      intro lead
      rw [dropLead?_eq_none_iff, eq_append_of_cutAt? cut] at noLead
      refine noLead (lead.trans ?_)
      rw [List.prefix_cons_inj, List.prefix_append_right_inj]
      exact (List.dropLast_prefix separator).trans (List.prefix_append separator after)

/-- A text is one piece when the separating character does not occur in it. -/
lemma pieces_of_not_mem {separator : Char} {text : List Char} (h : separator ∉ text) :
    pieces separator text = [text] := by
  induction text with
  | nil => rfl
  | cons c text ih =>
    rw [List.mem_cons, not_or] at h
    rw [pieces, if_neg (Ne.symm h.1), ih h.2]

/-- There is always a piece, which may be empty. -/
lemma pieces_ne_nil (separator : Char) (text : List Char) : pieces separator text ≠ [] := by
  cases text with
  | nil => exact List.cons_ne_nil _ _
  | cons c text =>
    rw [pieces]
    split
    case isTrue => exact List.cons_ne_nil _ _
    case isFalse => split <;> exact List.cons_ne_nil _ _

/-- A text is cut at a separating character whatever stands around it. -/
lemma pieces_append_cons (separator : Char) (text rest : List Char) :
    pieces separator (text ++ separator :: rest) =
      pieces separator text ++ pieces separator rest := by
  induction text with
  | nil =>
    rw [List.nil_append, pieces.eq_2, if_pos rfl]
    rfl
  | cons c text ih =>
    rw [List.cons_append, pieces, pieces, ih]
    split
    case isTrue => rfl
    case isFalse =>
      cases cut : pieces separator text with
      | nil => exact absurd cut (pieces_ne_nil separator text)
      | cons piece more => rfl

/-- The first piece ends at the first separating character. -/
lemma pieces_append {separator : Char} {piece : List Char} (h : separator ∉ piece)
    (text : List Char) :
    pieces separator (piece ++ separator :: text) = piece :: pieces separator text := by
  rw [pieces_append_cons, pieces_of_not_mem h, List.singleton_append]

/-- What stands in front of the first separating character belongs to the first piece. -/
lemma pieces_append_of_pieces {separator : Char} {front text piece : List Char}
    {later : List (List Char)} (h : separator ∉ front)
    (cut : pieces separator text = piece :: later) :
    pieces separator (front ++ text) = (front ++ piece) :: later := by
  induction front with
  | nil => exact cut
  | cons c front ih =>
    rw [List.mem_cons, not_or] at h
    rw [List.cons_append, pieces, if_neg (Ne.symm h.1), ih h.2]
    rfl

/-- Pieces that stand behind a separating character each are found again. -/
lemma pieces_append_flatMap {separator : Char} {piece : List Char} {later : List (List Char)}
    (h : separator ∉ piece) (hlater : ∀ p ∈ later, separator ∉ p) :
    pieces separator (piece ++ later.flatMap (separator :: ·)) = piece :: later := by
  induction later generalizing piece with
  | nil => rw [List.flatMap_nil, List.append_nil, pieces_of_not_mem h]
  | cons next later ih =>
    rw [List.flatMap_cons, List.cons_append, pieces_append h, ih (hlater next List.mem_cons_self)]
    exact fun p hp => hlater p (List.mem_cons_of_mem next hp)

/-- A text does not contain a needle of which it lacks a character. -/
lemma contains_eq_false {needle text : List Char} {c : Char} (hn : c ∈ needle) (ht : c ∉ text) :
    contains needle text = false := by
  simp [contains, cutAt?_eq_none hn ht]

/-! ## Classes of characters -/

/-- A class is left where the text ends or its next character is outside. -/
def Leaves (p : Char → Bool) (text : List Char) : Prop :=
  ∀ c ∈ text.head?, p c = false

namespace Leaves

variable {p : Char → Bool} {front rest : List Char}

/-- The end of a text leaves any class. -/
lemma nil : Leaves p [] := nofun

/-- A character outside of a class leaves it. -/
lemma cons {c : Char} (h : p c = false) : Leaves p (c :: rest) := by
  intro d e
  cases e
  exact h

/-- A run of a class ends where the class is left. -/
lemma takeWhile_append (hl : Leaves p rest) (hf : ∀ c ∈ front, p c = true) :
    (front ++ rest).takeWhile p = front := by
  rw [List.takeWhile_append_of_pos hf]
  cases rest with
  | nil => exact List.append_nil front
  | cons c rest =>
    rw [List.takeWhile_cons_of_neg (Bool.eq_false_iff.1 (hl c rfl)), List.append_nil]

/-- Characters of a class are dropped up to where it is left. -/
lemma dropWhile_append (hl : Leaves p rest) (hf : ∀ c ∈ front, p c = true) :
    (front ++ rest).dropWhile p = rest := by
  rw [List.dropWhile_append_of_pos hf]
  cases rest with
  | nil => rfl
  | cons c rest => exact List.dropWhile_cons_of_neg (Bool.eq_false_iff.1 (hl c rfl))

end Leaves

end MessageCatalog.Text
