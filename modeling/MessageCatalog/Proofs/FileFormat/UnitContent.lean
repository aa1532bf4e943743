import Mathlib.Data.List.Induction
import MessageCatalog.FileFormat.Xliff1
import MessageCatalog.Proofs.FileFormat.Units

/-!
# The content of a unit

What is wrong with content is located where it stands. A unit of XLIFF 1.2 is read as its last
target or else its last source, with the last notes that say something; all of its targets and
sources must be ones that can be read.
-/

namespace MessageCatalog

open Markup (Element Occurrence)

/-! ## Where content is wrong -/

namespace Content

variable {rules : ContentRules} {file : FileText}

/-- All that can be wrong with the attribute of a placeholder is that it is missing. -/
lemma eq_of_placeholderAttribute {tag : Markup.Tag} {name : String} {e : ReadError}
    (h : placeholderAttribute file tag name = .error e) :
    e = .atElement file tag (.incompletePlaceholder name) := by
  rw [placeholderAttribute] at h
  split at h
  case h_1 => cases h
  case h_2 => exact (Except.error.inj h).symm

mutual

/-- What is wrong with a node is located at an element in it. -/
lemma located_of_walkNode (node : Markup.Node) {around : List Markup.Tag} {r : Replay}
    {e : ReadError} (h : walkNode rules file r node = .error e) :
    ∃ o ∈ node.occurrences around, ∃ problem, e = .atElement file o.tag problem := by
  cases node with
  | text | comment | instruction => cases h
  | element tag children =>
    rw [walkNode] at h
    rw [Markup.Node.occurrences]
    have inside {r : Replay} (h : walk rules file r children = .error e) :
        ∃ o ∈ (⟨around, ⟨tag, children⟩⟩ : Occurrence) ::
            Markup.occurrencesIn (tag :: around) children,
          ∃ problem, e = .atElement file o.tag problem := by
      obtain ⟨o, there, problem⟩ := located_of_walk children h
      exact ⟨o, List.mem_cons_of_mem _ there, problem⟩
    split at h
    case h_1 =>
      obtain missing | ⟨name, -, h⟩ := eq_error_or_of_bind h
      · exact ⟨_, List.mem_cons_self, _, eq_of_placeholderAttribute missing⟩
      · cases h
    -- an element for two placeholders can lack either of its attributes
    case h_2 =>
      obtain missing | ⟨first, -, h⟩ := eq_error_or_of_bind h
      · exact ⟨_, List.mem_cons_self, _, eq_of_placeholderAttribute missing⟩
      obtain missing | ⟨last, -, h⟩ := eq_error_or_of_bind h
      · exact ⟨_, List.mem_cons_self, _, eq_of_placeholderAttribute missing⟩
      obtain fails | ⟨r, -, h⟩ := eq_error_or_of_bind h
      · exact inside fails
      · cases h
    case h_3 => exact inside h
    case h_4 =>
      cases h
      exact ⟨_, List.mem_cons_self, _, rfl⟩

/-- What is wrong with nodes is located at an element in them. -/
lemma located_of_walk (nodes : List Markup.Node) {around : List Markup.Tag} {r : Replay}
    {e : ReadError} (h : walk rules file r nodes = .error e) :
    ∃ o ∈ Markup.occurrencesIn around nodes, ∃ problem, e = .atElement file o.tag problem := by
  cases nodes with
  | nil => cases h
  | cons node rest =>
    rw [walk] at h
    rw [Markup.occurrencesIn]
    obtain first | ⟨r, -, later⟩ := eq_error_or_of_bind h
    · obtain ⟨o, there, problem⟩ := located_of_walkNode node first
      exact ⟨o, List.mem_append_left _ there, problem⟩
    · obtain ⟨o, there, problem⟩ := located_of_walk rest later
      exact ⟨o, List.mem_append_right _ there, problem⟩

end

/-- What is wrong with the content of an element is located at the element or below it. -/
lemma located_of_read {element : Element} {e : ReadError} (h : read rules file element = .error e) :
    ∃ tag problem, element.HasTag tag ∧ e = .atElement file tag problem := by
  rw [read] at h
  obtain walked | ⟨r, -, h⟩ := eq_error_or_of_bind h
  · obtain ⟨o, there, problem, same⟩ := located_of_walk element.children walked
    exact ⟨o.tag, problem, .inr ⟨o, there, rfl⟩, same⟩
  · split at h
    case isTrue =>
      cases h
      exact ⟨element.tag, _, .inl rfl, rfl⟩
    case isFalse => cases h

/-- Content says nothing about itself. -/
lemma notes_of_read {element : Element} {t : Translation} (h : read rules file element = .ok t) :
    t.description = none ∧ t.meaning = none := by
  rw [read] at h
  obtain ⟨r, -, h⟩ := bind_eq_ok h
  split at h
  case isTrue => cases h
  case isFalse =>
    cases h
    exact ⟨rfl, rfl⟩

end Content

namespace FileFormat

namespace Xliff1

/-! ## Units of XLIFF 1.2 -/

/-- Whether an element of a unit holds content. -/
def isText (child : Element) : Bool := child.name = "target" ∨ child.name = "source"

/-- The elements of a unit that hold content, in order. -/
def texts (u : Element) : List Element := u.childElements.filter isText

/-- Whether an element is a note of a kind that says something. -/
def isNote (kind : String) (child : Element) : Bool :=
  child.name = "note" ∧ child.attribute? "from" = some kind ∧ child.textContent ≠ ""

/-- What the last note of a kind says. -/
def lastNote (kind : String) (children : List Element) : Option String :=
  (children.filter (isNote kind)).getLast?.map (·.textContent)

/-- The last of the elements with this name. -/
def lastNamed (name : String) (children : List Element) : Option Element :=
  (children.filter (·.name = name)).getLast?

/-- The element that a unit is read from: the last target, or else the last source. -/
def chosen (u : Element) : Option Element :=
  (lastNamed "target" u.childElements).or (lastNamed "source" u.childElements)

variable (file : FileText)

/-- A unit that has content, all of which can be read. -/
structure IsReadable (u : Element) : Prop where
  texts_ne : texts u ≠ []
  reads : ∀ child ∈ texts u, ∃ t, Content.read rules file child = .ok t

/-- What is wrong with the content of a unit. -/
inductive Fault (u : Element) : ReadError → Prop
  | unreadable {before after : List Element} {child : Element} {e : ReadError}
    (there : texts u = before ++ child :: after)
    (earlier : ∀ b ∈ before, ∃ t, Content.read rules file b = .ok t)
    (fails : Content.read rules file child = .error e) : Fault u e
  | missing (none : texts u = []) : Fault u (.atElement file u.tag .missingTarget)

/-- The translation of a unit: the content of its last target, or else of its last source, with the
last notes that say something. -/
def IsValue (u : Element) (t : Translation) : Prop :=
  ∃ child content, chosen u = some child ∧ Content.read rules file child = .ok content ∧
    t = { content with
      description := lastNote "description" u.childElements
      meaning := lastNote "meaning" u.childElements }

/-- Read the content of a unit: its translation, and its source. -/
def unitContent (u : Element) : Except ReadError (Translation × Option Translation) := do
  let parts ← u.childElements.foldlM (UnitParts.addChild file) {}
  match parts.translation? with
  | none => .error (.atElement file u.tag .missingTarget)
  | some translation => return (translation, parts.source)

variable {file}

/-! ### The parts of a unit -/

/-- A child of a unit is read for its name, and other children are passed over. -/
lemma addChild_eq (parts : UnitParts) (child : Element) :
    parts.addChild file child =
      if child.name = "target" then
        (Content.read rules file child).map fun t => { parts with target := some t }
      else if child.name = "source" then
        (Content.read rules file child).map fun t => { parts with source := some t }
      else if child.name = "note" then .ok (parts.addNote child)
      else .ok parts := by
  rw [UnitParts.addChild]
  split
  case h_1 target =>
    rw [if_pos target]
    cases Content.read rules file child <;> rfl
  case h_2 source =>
    rw [source, if_neg (by decide), if_pos rfl]
    cases Content.read rules file child <;> rfl
  case h_3 note => rw [note, if_neg (by decide), if_neg (by decide), if_pos rfl]
  case h_4 noTarget noSource noNote => rw [if_neg noTarget, if_neg noSource, if_neg noNote]

/-- A note counts when it says something about a kind. -/
lemma addNote_eq (parts : UnitParts) {child : Element} (h : child.name = "note") :
    parts.addNote child = { parts with
      description := if isNote "description" child then some child.textContent
        else parts.description
      meaning := if isNote "meaning" child then some child.textContent else parts.meaning } := by
  have counts (kind : String) : isNote kind child = true ↔
      child.attribute? "from" = some kind ∧ child.textContent ≠ "" := by
    simp [isNote, h]
  rw [UnitParts.addNote]
  split
  case isTrue empty =>
    have nothing (kind : String) : ¬isNote kind child = true := fun said =>
      ((counts kind).1 said).2 (String.isEmpty_iff.1 empty)
    rw [if_neg (nothing _), if_neg (nothing _)]
  case isFalse given =>
    have given : child.textContent ≠ "" := fun empty => given (String.isEmpty_iff.2 empty)
    have other {kind : String} (e : child.attribute? "from" ≠ some kind) :
        ¬isNote kind child = true := fun said => e ((counts kind).1 said).1
    split
    case h_1 e =>
      rw [if_pos ((counts _).2 ⟨e, given⟩), if_neg (other (by rw [e]; decide))]
    case h_2 e =>
      rw [if_neg (other (by rw [e]; decide)), if_pos ((counts _).2 ⟨e, given⟩)]
    case h_3 noDescription noMeaning =>
      rw [if_neg (other noDescription), if_neg (other noMeaning)]

/-- The texts of a unit are its target and its source. -/
lemma isText_iff {child : Element} :
    isText child = true ↔ child.name = "target" ∨ child.name = "source" := decide_eq_true_iff

/-- Only content that cannot be read stands in the way. -/
lemma addChild_eq_error_iff {parts : UnitParts} {child : Element} {e : ReadError} :
    parts.addChild file child = .error e ↔
      isText child = true ∧ Content.read rules file child = .error e := by
  rw [addChild_eq, isText_iff]
  by_cases target : child.name = "target"
  · rw [if_pos target, and_iff_right (.inl target), map_eq_error_iff]
  by_cases source : child.name = "source"
  · rw [if_neg target, if_pos source, and_iff_right (.inr source), map_eq_error_iff]
  rw [if_neg target, if_neg source]
  refine iff_of_false ?_ fun h => h.1.elim target source
  split <;> exact nofun

/-- A child is taken unless it is a text that cannot be read. -/
lemma exists_addChild_iff {parts : UnitParts} {child : Element} :
    (∃ parts', parts.addChild file child = .ok parts') ↔
      (isText child = true → ∃ t, Content.read rules file child = .ok t) := by
  constructor
  · rintro ⟨parts', h⟩ text
    cases read : Content.read rules file child with
    | ok t => exact ⟨t, rfl⟩
    | error e => exact nomatch h.symm.trans (addChild_eq_error_iff.2 ⟨text, read⟩)
  · intro h
    cases added : parts.addChild file child with
    | ok parts' => exact ⟨parts', rfl⟩
    | error e =>
      obtain ⟨text, fails⟩ := addChild_eq_error_iff.1 added
      obtain ⟨t, read⟩ := h text
      exact nomatch read.symm.trans fails

/-- The last item that passes is the one at the end, if that does. -/
lemma getLast?_filter_concat {α : Type} (p : α → Bool) (items : List α) (a : α) :
    ((items ++ [a]).filter p).getLast? = if p a then some a else (items.filter p).getLast? := by
  rw [List.filter_append]
  by_cases h : p a = true
  · rw [if_pos h, List.filter_cons_of_pos h, List.filter_nil, List.getLast?_concat]
  · rw [if_neg h, List.filter_cons_of_neg h, List.filter_nil, List.append_nil]

/-- The last child with a name is the one at the end, if it has that name. -/
lemma lastNamed_concat (name : String) (children : List Element) (child : Element) :
    lastNamed name (children ++ [child]) =
      if child.name = name then some child else lastNamed name children := by
  rw [lastNamed, getLast?_filter_concat, lastNamed]
  by_cases same : child.name = name
  · rw [if_pos same, if_pos (decide_eq_true same)]
  · rw [if_neg same, if_neg (by simpa using same)]

/-- The last note of a kind is the one at the end, if it is of that kind. -/
lemma lastNote_concat (kind : String) (children : List Element) (child : Element) :
    lastNote kind (children ++ [child]) =
      if isNote kind child then some child.textContent else lastNote kind children := by
  rw [lastNote, getLast?_filter_concat, lastNote]
  split <;> rfl

/-- What has been gathered of the elements of a unit. -/
structure Gathers (file : FileText) (children : List Element) (parts : UnitParts) : Prop where
  target : (lastNamed "target" children).map (Content.read rules file) = parts.target.map .ok
  source : (lastNamed "source" children).map (Content.read rules file) = parts.source.map .ok
  description : parts.description = lastNote "description" children
  meaning : parts.meaning = lastNote "meaning" children

/-- What was gathered is the last of each kind among the children. -/
lemma gathers_of_foldlM {children : List Element} {parts : UnitParts}
    (h : children.foldlM (UnitParts.addChild file) {} = .ok parts) :
    Gathers file children parts := by
  induction children using List.reverseRecOn generalizing parts with
  | nil =>
    cases h
    exact ⟨rfl, rfl, rfl, rfl⟩
  | append_singleton children child ih =>
    obtain ⟨before, front, last⟩ := foldlM_concat_eq_ok_iff.1 h
    have gathered := ih front
    have noNote (name : child.name ≠ "note") (kind : String) : ¬isNote kind child = true :=
      fun counts => name (of_decide_eq_true counts).1
    rw [addChild_eq] at last
    -- A child is the last of its name, and changes nothing about the others.
    by_cases target : child.name = "target"
    · rw [if_pos target] at last
      obtain ⟨t, read, rfl⟩ := map_eq_ok_iff.1 last
      have name : child.name ≠ "note" := by rw [target]; decide
      constructor <;> simp [lastNamed_concat, lastNote_concat, target, read, noNote name,
        gathered.source, gathered.description, gathered.meaning]
    rw [if_neg target] at last
    by_cases source : child.name = "source"
    · rw [if_pos source] at last
      obtain ⟨t, read, rfl⟩ := map_eq_ok_iff.1 last
      have name : child.name ≠ "note" := by rw [source]; decide
      constructor <;> simp [lastNamed_concat, lastNote_concat, source, read, noNote name,
        gathered.target, gathered.description, gathered.meaning]
    rw [if_neg source] at last
    by_cases note : child.name = "note"
    · rw [if_pos note, addNote_eq _ note] at last
      cases last
      constructor <;> simp [lastNamed_concat, lastNote_concat, note,
        gathered.target, gathered.source, gathered.description, gathered.meaning]
    · rw [if_neg note] at last
      cases last
      constructor <;> simp [lastNamed_concat, lastNote_concat, target, source, noNote note,
        gathered.target, gathered.source, gathered.description, gathered.meaning]

/-- Children are gathered when all texts among them can be read. -/
lemma exists_gathered_iff {children : List Element} {start : UnitParts} :
    (∃ parts, children.foldlM (UnitParts.addChild file) start = .ok parts) ↔
      ∀ child ∈ children, isText child = true → ∃ t, Content.read rules file child = .ok t := by
  induction children generalizing start with
  | nil => exact iff_of_true ⟨start, rfl⟩ nofun
  | cons child children ih =>
    have first_iff : (∃ next, start.addChild file child = .ok next) ↔
        (isText child = true → ∃ t, Content.read rules file child = .ok t) := exists_addChild_iff
    rw [List.forall_mem_cons, ← first_iff]
    constructor
    · rintro ⟨parts, h⟩
      rw [List.foldlM_cons] at h
      obtain ⟨next, first, later⟩ := bind_eq_ok h
      exact ⟨⟨next, first⟩, ih.1 ⟨parts, later⟩⟩
    · rintro ⟨⟨next, first⟩, readable⟩
      obtain ⟨parts, later⟩ := ih.2 readable
      refine ⟨parts, ?_⟩
      rw [List.foldlM_cons, first]
      exact later

/-- No child has a name when there is no last one that has it. -/
lemma lastNamed_eq_none_iff {name : String} {children : List Element} :
    lastNamed name children = none ↔ ∀ child ∈ children, child.name ≠ name := by
  rw [lastNamed, List.getLast?_eq_none_iff, List.filter_eq_nil_iff]
  exact forall₂_congr fun child _ => by rw [decide_eq_true_iff]

/-- A unit without content has no translation. -/
lemma Gathers.translation?_eq_none_iff {u : Element} {parts : UnitParts}
    (h : Gathers file u.childElements parts) : parts.translation? = none ↔ texts u = [] := by
  have target := congrArg Option.isNone h.target
  have source := congrArg Option.isNone h.source
  rw [Option.isNone_map, Option.isNone_map, Bool.eq_iff_iff, Option.isNone_iff_eq_none,
    Option.isNone_iff_eq_none, lastNamed_eq_none_iff] at target source
  rw [UnitParts.translation?, Option.map_eq_none_iff, Option.or_eq_none_iff, ← target, ← source,
    texts, List.filter_eq_nil_iff, ← forall₂_and]
  exact forall₂_congr fun child _ => by rw [isText_iff, not_or]

/-- The translation of a unit is that of its target, or else of its source, with its notes. -/
lemma Gathers.isValue {u : Element} {parts : UnitParts} (h : Gathers file u.childElements parts)
    {t : Translation} (ht : parts.translation? = some t) : IsValue file u t := by
  obtain ⟨content, taken, rfl⟩ := Option.map_eq_some_iff.1 ht
  obtain ⟨child, isChosen, read⟩ :
      ∃ child, chosen u = some child ∧ Content.read rules file child = .ok content := by
    rw [chosen]
    obtain target | ⟨noTarget, source⟩ := Option.or_eq_some_iff.1 taken
    · have last := h.target
      rw [target] at last
      obtain ⟨child, last, read⟩ := Option.map_eq_some_iff.1 last
      exact ⟨child, by rw [last, Option.some_or], read⟩
    · have noLast := h.target
      rw [noTarget] at noLast
      have last := h.source
      rw [source] at last
      obtain ⟨child, last, read⟩ := Option.map_eq_some_iff.1 last
      exact ⟨child, by rw [Option.map_eq_none_iff.1 noLast, Option.none_or, last], read⟩
  obtain ⟨noDescription, noMeaning⟩ := Content.notes_of_read read
  refine ⟨child, content, isChosen, read, ?_⟩
  rw [noDescription, noMeaning, Option.or_none, Option.or_none, h.description, h.meaning]

/-! ### The content of a unit -/

/-- Once the children are gathered, a unit has a translation or neither of the two texts. -/
lemma unitContent_of_gathered {u : Element} {parts : UnitParts}
    (h : u.childElements.foldlM (UnitParts.addChild file) {} = .ok parts) :
    unitContent file u =
      match parts.translation? with
      | none => .error (.atElement file u.tag .missingTarget)
      | some translation => .ok (translation, parts.source) := by
  rw [unitContent, h]
  rfl

/-- A unit is read when all its texts can be read and there is one. -/
lemma exists_unitContent_iff (u : Element) :
    (∃ value, unitContent file u = .ok value) ↔ IsReadable file u := by
  constructor
  · rintro ⟨value, h⟩
    obtain ⟨parts, gathered, h⟩ := bind_eq_ok h
    constructor
    case texts_ne =>
      intro none
      rw [(gathers_of_foldlM gathered).translation?_eq_none_iff.2 none] at h
      cases h
    case reads =>
      intro child there
      obtain ⟨there, text⟩ := List.mem_filter.1 there
      exact exists_gathered_iff.1 ⟨parts, gathered⟩ child there text
  · intro readable
    obtain ⟨parts, gathered⟩ := exists_gathered_iff.2 fun child there text =>
      readable.reads child (List.mem_filter.2 ⟨there, text⟩)
    rw [unitContent_of_gathered gathered]
    cases ht : parts.translation? with
    | none =>
      exact absurd ((gathers_of_foldlM gathered).translation?_eq_none_iff.1 ht) readable.texts_ne
    | some t => exact ⟨_, rfl⟩

/-- A unit fails with what is wrong with the first text that cannot be read, or for want of a
text. -/
lemma unitContent_eq_error_iff (u : Element) (e : ReadError) :
    unitContent file u = .error e ↔ Fault file u e := by
  constructor
  · intro h
    obtain fails | ⟨parts, gathered, h⟩ := eq_error_or_of_bind h
    · obtain ⟨before, child, after, parts, children, reached, stops⟩ :=
        foldlM_eq_error_iff.1 fails
      obtain ⟨text, fails⟩ := addChild_eq_error_iff.1 stops
      -- the texts before the child that stops the reader were read
      have there : texts u = before.filter isText ++ child :: after.filter isText := by
        rw [texts, children, List.filter_append, List.filter_cons_of_pos text]
      refine .unreadable there (fun b hb => ?_) fails
      obtain ⟨hb, text⟩ := List.mem_filter.1 hb
      exact exists_gathered_iff.1 ⟨parts, reached⟩ b hb text
    · cases ht : parts.translation? with
      | none =>
        rw [ht] at h
        cases h
        exact .missing ((gathers_of_foldlM gathered).translation?_eq_none_iff.1 ht)
      | some t =>
        rw [ht] at h
        cases h
  · intro fault
    cases fault with
    | @unreadable before after child _ there earlier fails =>
      obtain ⟨front, rest, children, hfront, hrest⟩ := List.filter_eq_append_iff.1 there
      -- the children between two texts are passed over
      obtain ⟨between, behind, rfl, others, text, -⟩ := List.filter_eq_cons_iff.1 hrest
      obtain ⟨parts, reached⟩ : ∃ parts,
          (front ++ between).foldlM (UnitParts.addChild file) {} = .ok parts := by
        refine exists_gathered_iff.2 fun b hb text => ?_
        cases List.mem_append.1 hb with
        | inl hb => exact earlier b (hfront ▸ List.mem_filter.2 ⟨hb, text⟩)
        | inr hb => exact absurd text (others b hb)
      have stops : u.childElements.foldlM (UnitParts.addChild file) {} = .error e :=
        foldlM_eq_error_iff.2 ⟨front ++ between, child, behind, parts,
          by rw [children, List.append_assoc], reached, addChild_eq_error_iff.2 ⟨text, fails⟩⟩
      rw [unitContent, stops]
      rfl
    | missing none =>
      obtain ⟨parts, gathered⟩ : ∃ parts,
          u.childElements.foldlM (UnitParts.addChild file) {} = .ok parts := by
        refine exists_gathered_iff.2 fun child there text => ?_
        exact absurd text (List.filter_eq_nil_iff.1 none child there)
      rw [unitContent_of_gathered gathered,
        (gathers_of_foldlM gathered).translation?_eq_none_iff.2 none]

/-- What is read of a unit is its value. -/
lemma isValue_of_unitContent (u : Element) (value : Translation × Option Translation)
    (h : unitContent file u = .ok value) : IsValue file u value.1 := by
  obtain ⟨parts, gathered, h⟩ := bind_eq_ok h
  cases ht : parts.translation? with
  | none =>
    rw [ht] at h
    cases h
  | some t =>
    rw [ht] at h
    cases h
    exact (gathers_of_foldlM gathered).isValue ht

/-- The source of a unit is what is read of the last source among its children. -/
lemma source_of_unitContent {u : Element} {value : Translation × Option Translation}
    (h : unitContent file u = .ok value) :
    (lastNamed "source" u.childElements).map (Content.read rules file) = value.2.map .ok := by
  obtain ⟨parts, gathered, h⟩ := bind_eq_ok h
  cases ht : parts.translation? with
  | none =>
    rw [ht] at h
    cases h
  | some t =>
    rw [ht] at h
    cases h
    exact (gathers_of_foldlM gathered).source

/-- What is wrong with the content of a unit is located there. -/
lemma located_of_fault (u : Element) (e : ReadError) (h : Fault file u e) :
    ∃ tag problem, u.HasTag tag ∧ e = .atElement file tag problem := by
  cases h with
  | @unreadable before after child _ there earlier fails =>
    obtain ⟨tag, problem, inside, located⟩ := Content.located_of_read fails
    have member : child ∈ texts u := by
      rw [there]
      exact List.mem_append_right _ List.mem_cons_self
    exact ⟨tag, problem, .of_child (List.mem_filter.1 member).1 inside, located⟩
  | missing => exact ⟨u.tag, _, .inl rfl, rfl⟩

end Xliff1

end FileFormat

end MessageCatalog
