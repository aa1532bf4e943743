import Mathlib.Data.List.Infix
import MessageCatalog.Proofs.Message

/-!
# Texts and their placeholders

Cutting a text at its placeholders and putting parts and names together are inverse to each other.
A text loses nothing when it is cut; and parts and names are found again in their text when no part
opens a placeholder and no name closes one. So the text form, of which the id of a message is
computed, determines the parts and the names.
-/

namespace MessageCatalog

namespace Placeholder

/-- What opens a placeholder in a text. -/
def opening : List Char := ['{', '$']

/-- Parts and names that can be found again in the text that they make up. -/
structure Separable (parts names : List String) : Prop where
  length : parts.length = names.length + 1
  parts : ∀ part ∈ parts, ¬ opening <:+: part.toList
  names : ∀ name ∈ names, '}' ∉ name.toList

/-! ## Cutting a text -/

/-- A name ends at the first closing brace. -/
lemma closing_not_mem_of_next? {text before name rest : List Char}
    (h : next? text = some (before, name, rest)) : '}' ∉ name := by
  rw [next?] at h
  split at h
  case h_1 => cases h
  case h_2 front body opened =>
    split at h
    case h_1 => cases h
    case h_2 inside behind closed =>
      cases h
      have first := Text.not_infix_of_cutAt? (List.cons_ne_nil _ _) closed
      rw [List.dropLast_singleton, List.append_nil, List.singleton_infix_iff] at first
      exact first

/-- No name that is found has a closing brace in it. -/
lemma closing_not_mem_of_segments (count : Nat) (text : List Char) :
    ∀ p ∈ (segments count text).2, '}' ∉ p.1 := by
  induction count generalizing text with
  | zero => exact List.forall_mem_nil _
  | succ count ih =>
    rw [segments]
    split
    case h_1 => exact List.forall_mem_nil _
    case h_2 before name rest found =>
      exact List.forall_mem_cons.2 ⟨closing_not_mem_of_next? found, ih rest⟩

/-! ## Cutting parts and names -/

/-- A part that opens no placeholder does not do so together with the brace behind it. -/
lemma not_infix_concat {part : List Char} (h : ¬ opening <:+: part) :
    ¬ opening <:+: part ++ opening.dropLast := by
  intro occurs
  rcases List.infix_concat_iff.1 occurs with atEnd | inside
  case inl =>
    have last := atEnd.getLast (List.cons_ne_nil _ _)
    rw [List.getLast_concat] at last
    exact absurd last (by decide)
  case inr => exact h inside

/-- The next placeholder is found behind a part that opens none. -/
lemma next?_append {part name : List Char} (hpart : ¬ opening <:+: part) (hname : '}' ∉ name)
    (rest : List Char) :
    next? (part ++ '{' :: '$' :: (name ++ '}' :: rest)) = some (part, name, rest) := by
  have opened := Text.cutAt?_append (not_infix_concat hpart) (name ++ '}' :: rest)
  have apart : ¬ ['}'] <:+: name ++ ['}'].dropLast := by
    rw [List.dropLast_singleton, List.append_nil, List.singleton_infix_iff]
    exact hname
  have closed := Text.cutAt?_append apart rest
  rw [opening, List.cons_append, List.cons_append, List.nil_append] at opened
  rw [List.singleton_append] at closed
  rw [next?, opened]
  dsimp only
  rw [closed]

/-- Parts and names are found again, when as many placeholders may be cut off as there are. -/
lemma segments_joinChars {first : List Char} {later : List (List Char × List Char)}
    (hfirst : ¬ opening <:+: first) (hlater : ∀ p ∈ later, '}' ∉ p.1 ∧ ¬ opening <:+: p.2)
    {count : Nat} (enough : later.length ≤ count) :
    segments count (joinChars first later) = (first, later) := by
  -- The text behind a name begins with the next part, which is a first part in its turn.
  induction later generalizing first count with
  | nil =>
    cases count with
    | zero => rfl
    | succ count =>
      have none : next? first = none := by
        rw [next?, ← opening, Text.cutAt?_eq_none_iff.2 hfirst]
      rw [joinChars, segments, none]
  | cons pair later ih =>
    obtain ⟨name, part⟩ := pair
    obtain ⟨⟨hname, hpart⟩, hrest⟩ := List.forall_mem_cons.1 hlater
    cases count with
    | zero => cases enough
    | succ count =>
      have found := next?_append hfirst hname (joinChars part later)
      rw [joinChars, segments, found]
      dsimp only
      rw [ih hpart hrest (Nat.le_of_succ_le_succ enough)]

/-- Every placeholder takes characters of the text. -/
lemma length_le_length_joinChars (first : List Char) (later : List (List Char × List Char)) :
    later.length ≤ (joinChars first later).length := by
  induction later generalizing first with
  | nil => exact Nat.zero_le _
  | cons pair later ih =>
    have behind := ih pair.2
    simp only [joinChars, List.length_cons, List.length_append]
    omega

end Placeholder

namespace Translation

open Placeholder (Separable interleave)

/-- There is one part more than there are names, none of which holds a closing brace. -/
lemma names_parse (text : String) :
    (parse text).parts.length = (parse text).placeholderNames.length + 1 ∧
      ∀ name ∈ (parse text).placeholderNames, '}' ∉ name.toList := by
  constructor
  · simp [parse, ofParts]
  · intro name member
    obtain ⟨pair, found, rfl⟩ := List.mem_map.1 member
    rw [String.toList_ofList]
    exact Placeholder.closing_not_mem_of_segments text.length text.toList pair found

/-- Parts and names are cut out of their text again. -/
lemma parse_interleave {parts names : List String} (h : Separable parts names) :
    parse (interleave parts names) = ofParts parts names := by
  obtain ⟨first, later, rfl, rfl, -⟩ := Placeholder.exists_later h.length
  obtain ⟨hfirst, hparts⟩ := List.forall_mem_cons.1 h.parts
  have text := Placeholder.toList_interleave first later
  have cuts : Placeholder.segments
      (interleave (first :: later.map Prod.snd) (later.map Prod.fst)).length
      (interleave (first :: later.map Prod.snd) (later.map Prod.fst)).toList =
        (first.toList, later.map fun p => (p.1.toList, p.2.toList)) := by
    rw [← String.length_toList, text]
    refine Placeholder.segments_joinChars hfirst ?_
      (Placeholder.length_le_length_joinChars _ _)
    intro p member
    obtain ⟨pair, inside, rfl⟩ := List.mem_map.1 member
    exact ⟨h.names _ (List.mem_map_of_mem inside), hparts _ (List.mem_map_of_mem inside)⟩
  rw [parse, cuts]
  simp only [List.map_map, Function.comp_def, String.ofList_toList]

/-- Cutting a text and putting parts and names together are inverse: a text is that of its parts
and names, which are one more and hold no closing brace; parts and names that are separable are
those of their text; and so two of them with the same text are the same. -/
theorem parse_text_inverse :
    (∀ text : String, (parse text).parts.length = (parse text).placeholderNames.length + 1 ∧
      (∀ name ∈ (parse text).placeholderNames, '}' ∉ name.toList) ∧ (parse text).text = text) ∧
    (∀ parts names, Separable parts names →
      parse (interleave parts names) = ofParts parts names) ∧
    ∀ parts names parts' names', Separable parts names → Separable parts' names' →
      interleave parts names = interleave parts' names' → parts = parts' ∧ names = names' := by
  refine ⟨?_, fun parts names h => parse_interleave h, ?_⟩
  · intro text
    obtain ⟨length, names⟩ := names_parse text
    exact ⟨length, names, text_parse text⟩
  · intro parts names parts' names' h h' same
    have read : ofParts parts names = ofParts parts' names' := by
      rw [← parse_interleave h, same, parse_interleave h']
    exact ⟨congrArg Translation.parts read, congrArg placeholderNames read⟩

/-- Parts and names with braces and dollars wherever these may stand. -/
def bracedParts : List String := ["\x7b", "\x7d \x7b", "$\x7d"]

def bracedNames : List String := ["\x7b$A", "\n"]

/-- Names and parts with braces, in which no opening stands where it would end a part. -/
theorem parse_text_inverse_braced :
    Separable bracedParts bracedNames ∧
      interleave bracedParts bracedNames = "\x7b\x7b$\x7b$A\x7d\x7d \x7b\x7b$\n\x7d$\x7d" ∧
        parse (interleave bracedParts bracedNames) = ofParts bracedParts bracedNames := by
  have separable : Separable bracedParts bracedNames := ⟨by decide, by decide, by decide⟩
  exact ⟨separable, by decide, parse_text_inverse.2.1 bracedParts bracedNames separable⟩

end Translation

end MessageCatalog
