import Mathlib.Data.List.TakeWhile
import MessageCatalog.Proofs.Message
import MessageCatalog.Replay

/-!
# Messages without expansions

A brace opens an expansion when the text behind it begins with an argument name, a comma, a kind and
a comma. When no brace of a message does so, no placeholder stays in the text: what is replayed of
the message are its own parts, and its names as a file spells them.
-/

namespace MessageCatalog

namespace IcuExpansion

open Text (Leaves isBlank dropBlanks)

/-! ## The start of an expansion -/

/-- A text of blanks. -/
def Blanks (text : List Char) : Prop := ∀ c ∈ text, isBlank c = true

/-- What stands behind the brace at the start of an expansion: an argument name, a comma, a kind and
a comma, with blanks anywhere between them, and whatever comes next. -/
inductive Start : List Char → Prop
  | intro {before name behind ahead after : List Char} {kind : String} (rest : List Char) :
    Blanks before →
    name ≠ [] →
    (∀ c ∈ name, isNameChar c = true) →
    Blanks behind →
    Blanks ahead →
    kind ∈ kinds →
    Blanks after →
    Start (before ++ (name ++ (behind ++ ',' ::
      (ahead ++ (kind.toList ++ (after ++ ',' :: rest))))))

/-- The blanks that are taken are blank. -/
lemma blanks_takeWhile (text : List Char) : Blanks (text.takeWhile isBlank) :=
  fun _ member => List.mem_takeWhile_imp member

/-- Nothing is lost of a text when its blanks are dropped. -/
lemma takeWhile_append_dropBlanks (text : List Char) :
    text.takeWhile isBlank ++ dropBlanks text = text := List.takeWhile_append_dropWhile

/-- Blanks are dropped up to the first character that is none. -/
lemma dropBlanks_append {blanks rest : List Char} (h : Blanks blanks) (hr : Leaves isBlank rest) :
    dropBlanks (blanks ++ rest) = rest := hr.dropWhile_append h

/-- A comma is found behind blanks. -/
lemma afterComma?_eq_some_iff {text rest : List Char} :
    afterComma? text = some rest ↔ ∃ blanks, Blanks blanks ∧ text = blanks ++ ',' :: rest := by
  rw [afterComma?]
  constructor
  · intro h
    split at h
    case h_1 behind e =>
      cases h
      refine ⟨text.takeWhile isBlank, blanks_takeWhile text, ?_⟩
      rw [← e, takeWhile_append_dropBlanks]
    case h_2 => cases h
  · rintro ⟨blanks, hb, rfl⟩
    rw [dropBlanks_append hb (.cons (by decide))]
    rfl

/-- A kind is found at the front, when blanks and a comma follow it. -/
lemma opensWithKind_iff {text : List Char} {kind : String} :
    opensWithKind text kind = true ↔
      ∃ after rest, Blanks after ∧ text = kind.toList ++ (after ++ ',' :: rest) := by
  rw [opensWithKind]
  constructor
  · intro h
    split at h
    case h_1 behind e =>
      obtain ⟨rest, comma⟩ := Option.isSome_iff_exists.1 h
      obtain ⟨after, blanks, rfl⟩ := afterComma?_eq_some_iff.1 comma
      exact ⟨after, rest, blanks, Text.eq_append_of_dropLead? e⟩
    case h_2 => cases h
  · rintro ⟨after, rest, blanks, rfl⟩
    rw [Text.dropLead?_append]
    apply Option.isSome_iff_exists.2
    exact ⟨rest, afterComma?_eq_some_iff.2 ⟨after, blanks, rfl⟩⟩

/-- A blank is no character of a name. -/
lemma isNameChar_of_blank {c : Char} (h : isBlank c = true) : isNameChar c = false := by
  rw [isNameChar, h]
  rfl

/-- A name ends where blanks or the comma behind it begin. -/
lemma leaves_name {blanks : List Char} (h : Blanks blanks) (rest : List Char) :
    Leaves isNameChar (blanks ++ ',' :: rest) := by
  cases blanks with
  | nil => exact .cons (by decide)
  | cons c blanks => exact .cons (isNameChar_of_blank (h c List.mem_cons_self))

/-- A name begins where the blanks before it end. -/
lemma leaves_blanks_of_name {name : List Char} (nonempty : name ≠ [])
    (h : ∀ c ∈ name, isNameChar c = true) (rest : List Char) : Leaves isBlank (name ++ rest) := by
  cases name with
  | nil => exact absurd rfl nonempty
  | cons c name =>
    refine .cons (Bool.eq_false_iff.2 fun blank => ?_)
    have outside := h c List.mem_cons_self
    rw [isNameChar_of_blank blank] at outside
    cases outside

/-- No kind begins with a blank. -/
lemma leaves_blanks_of_kind {kind : String} (h : kind ∈ kinds) (rest : List Char) :
    Leaves isBlank (kind.toList ++ rest) := by
  simp only [kinds, List.mem_cons, List.not_mem_nil, or_false] at h
  rcases h with rfl | rfl | rfl
  all_goals exact .cons (by decide)

/-- A brace opens an expansion exactly when the text behind it is the start of one. -/
theorem opens_iff {text : List Char} : opens text = true ↔ Start text := by
  rw [opens]
  constructor
  · intro h
    split at h
    case isTrue => cases h
    case isFalse named =>
      split at h
      case h_2 => cases h
      case h_1 rest comma =>
        obtain ⟨kind, member, opened⟩ := List.any_eq_true.1 h
        obtain ⟨behind, hbehind, e⟩ := afterComma?_eq_some_iff.1 comma
        obtain ⟨after, last, hafter, e'⟩ := opensWithKind_iff.1 opened
        -- the text is put together again from the pieces that the test has gone through
        rw [← takeWhile_append_dropBlanks text,
          ← List.takeWhile_append_dropWhile (p := isNameChar) (l := dropBlanks text), e,
          ← takeWhile_append_dropBlanks rest, e']
        refine .intro last (blanks_takeWhile text) ?_ (fun _ => List.mem_takeWhile_imp) hbehind
          (blanks_takeWhile rest) member hafter
        exact fun empty => named (List.isEmpty_iff.2 empty)
  · rintro ⟨last, hbefore, nonempty, hname, hbehind, hahead, member, hafter⟩
    have name := leaves_name hbehind
    rw [dropBlanks_append hbefore (leaves_blanks_of_name nonempty hname _),
      (name _).takeWhile_append hname, (name _).dropWhile_append hname,
      if_neg fun empty => nonempty (List.isEmpty_iff.1 empty),
      afterComma?_eq_some_iff.2 ⟨_, hbehind, rfl⟩]
    dsimp only
    rw [dropBlanks_append hahead (leaves_blanks_of_kind member _)]
    exact List.any_eq_true.2 ⟨_, member, opensWithKind_iff.2 ⟨_, last, hafter, rfl⟩⟩

/-- What is the start of an expansion is so whatever follows. -/
lemma Start.append {text : List Char} (h : Start text) (later : List Char) :
    Start (text ++ later) := by
  cases h with
  | intro rest hbefore nonempty hname hbehind hahead member hafter =>
    simp only [List.append_assoc, List.cons_append]
    exact .intro (rest ++ later) hbefore nonempty hname hbehind hahead member hafter

/-- What opens an expansion does so whatever follows. -/
theorem opens_append {text : List Char} (h : opens text = true) (rest : List Char) :
    opens (text ++ rest) = true := opens_iff.2 ((opens_iff.1 h).append rest)

/-! ## Texts that open none -/

/-- Whether no brace of a text opens an expansion. -/
def opensNone : List Char → Bool
  | [] => true
  | c :: text => !(c = '{' && opens text) && opensNone text

/-- A text opens nothing when its first character does not and the rest does not. -/
lemma opensNone_cons {c : Char} {text : List Char} :
    opensNone (c :: text) = true ↔ (c = '{' → opens text = false) ∧ opensNone text = true := by
  rw [opensNone, Bool.and_eq_true, Bool.not_eq_true', Bool.and_eq_false_imp, decide_eq_true_iff]

/-- A brace that opens no expansion is not counted. -/
lemma depthAfter_of_opensNone {text : List Char} (h : opensNone text = true) :
    depthAfter 0 text = 0 := by
  induction text with
  | nil => rfl
  | cons c text ih =>
    obtain ⟨noOpening, later⟩ := opensNone_cons.1 h
    rw [depthAfter]
    split
    case isTrue brace =>
      rw [noOpening brace]
      exact ih later
    case isFalse =>
      split
      case isTrue => exact ih later
      case isFalse => exact ih later

/-- Of a text in which no brace opens an expansion, the same is true of its front and its end. -/
lemma opensNone_of_append {front rest : List Char} (h : opensNone (front ++ rest) = true) :
    opensNone front = true ∧ opensNone rest = true := by
  induction front with
  | nil => exact ⟨rfl, h⟩
  | cons c front ih =>
    rw [List.cons_append] at h
    obtain ⟨noOpening, later⟩ := opensNone_cons.1 h
    obtain ⟨before, behind⟩ := ih later
    refine ⟨opensNone_cons.2 ⟨fun brace => ?_, before⟩, behind⟩
    refine Bool.eq_false_iff.2 fun opening => ?_
    have still := opens_append opening rest
    rw [noOpening brace] at still
    cases still

end IcuExpansion

open IcuExpansion (opensNone depthAfter_of_opensNone)

namespace Replay

/-- Steps are taken in order. -/
lemma run_append (r : Replay) (steps later : List Step) :
    r.run (steps ++ later) = (r.run steps).run later := List.foldl_append

/-- The steps of texts with placeholders between them. -/
def stepsOf (first : String) (later : List (String × String)) : List Step :=
  .text first :: later.flatMap fun (name, part) => [.placeholder name, .text part]

/-- Text that opens nothing is added to the part at hand. -/
lemma step_text_of_opensNone {r : Replay} (hr : r.depth = 0) {content : String}
    (h : opensNone content.toList = true) :
    r.step (.text content) = { r with current := r.current ++ content } := by
  obtain ⟨parts, names, current, depth⟩ := r
  cases hr
  rw [step, depthAfter_of_opensNone h]

/-- Outside expansions a placeholder ends the part before it. -/
lemma step_text_placeholder {r : Replay} (hr : r.depth = 0) {first : String}
    (h : opensNone first.toList = true) (name : String) :
    (r.step (.text first)).step (.placeholder name) = {
      parts := r.parts ++ [r.current ++ first]
      placeholderNames := r.placeholderNames ++ [normalizeName name] } := by
  rw [step_text_of_opensNone hr h]
  obtain ⟨parts, names, current, depth⟩ := r
  cases hr
  rfl

/-- Without expansions each placeholder ends a part. -/
lemma run_stepsOf {r : Replay} (hr : r.depth = 0) {first : String}
    {later : List (String × String)}
    (h : ∀ part ∈ first :: later.map Prod.snd, opensNone part.toList = true) :
    (r.run (stepsOf first later)).depth = 0 ∧
      (r.run (stepsOf first later)).finish =
        .ofParts (r.parts ++ (r.current ++ first) :: later.map Prod.snd)
          (r.placeholderNames ++ later.map fun p => normalizeName p.1) := by
  -- The part that is being read goes on at the front of the text that comes next.
  induction later generalizing r first with
  | nil =>
    have text : r.run (stepsOf first []) = { r with current := r.current ++ first } :=
      step_text_of_opensNone hr (h first List.mem_cons_self)
    rw [text]
    refine ⟨hr, ?_⟩
    rw [finish, List.map_nil, List.map_nil, List.append_nil]
  | cons pair rest ih =>
    obtain ⟨name, part⟩ := pair
    let next : Replay := {
      parts := r.parts ++ [r.current ++ first]
      placeholderNames := r.placeholderNames ++ [normalizeName name] }
    have steps : r.run (stepsOf first ((name, part) :: rest)) = next.run (stepsOf part rest) :=
      congrArg (run · (stepsOf part rest))
        (step_text_placeholder hr (h first List.mem_cons_self) name)
    have later : ∀ p ∈ part :: rest.map Prod.snd, opensNone p.toList = true :=
      fun p m => h p (List.mem_cons_of_mem first m)
    obtain ⟨depth, finished⟩ := ih (rfl : next.depth = 0) later
    rw [steps]
    refine ⟨depth, finished.trans ?_⟩
    rw [String.empty_append, List.append_assoc, List.append_assoc]
    rfl

end Replay

namespace Message

/-- No brace of a message opens an expansion. -/
def Plain (m : Message) : Prop := ∀ part ∈ m.parts, opensNone part.toList = true

/-- What is replayed of a message without expansions are its own parts and names. -/
theorem run_steps_of_plain {m : Message} (h : m.Plain)
    (length : m.parts.length = m.placeholderNames.length + 1) :
    (({} : Replay).run m.steps).inExpansion = false ∧
      (({} : Replay).run m.steps).finish =
        .ofParts m.parts (m.placeholderNames.map Replay.normalizeName) := by
  obtain ⟨first, later, parts, names, pairs⟩ := Placeholder.exists_later length
  have steps : m.steps = Replay.stepsOf first later := by
    rw [steps, pairs, parts]
    rfl
  have plain : ∀ part ∈ first :: later.map Prod.snd, opensNone part.toList = true := by
    rw [← parts]
    exact h
  obtain ⟨depth, finished⟩ := Replay.run_stepsOf (r := {}) rfl plain
  rw [steps, Replay.inExpansion, depth, finished, parts, names, String.empty_append, List.map_map]
  exact ⟨rfl, rfl⟩

end Message

end MessageCatalog
