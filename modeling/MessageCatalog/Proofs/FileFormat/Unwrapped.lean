import MessageCatalog.Proofs.Cuts
import MessageCatalog.Proofs.FileFormat.Steps

/-!
# Content without the markup that is looked through

An inline element is read as if its content stood outside it, and a comment as if it were not there.
Taking either away leaves the same steps, but the texts that it kept apart become one. Only the
start of an expansion is read differently then, which is not found while markup stands in it.
-/

namespace MessageCatalog.Content

open Markup (Node Tag)
open Replay (Coarser StartsWhole insides endsInside outcome)

variable {rules : ContentRules} {file : FileText}

/-! ## Taking markup away -/

/-- Nodes with a text before them, which is put together with a text at their front. -/
def textBefore (value : String) : List Node → List Node
  | .text next :: rest => .text (value ++ next) :: rest
  | rest => .text value :: rest

/-- Nodes with the texts that follow each other made one. -/
def joinTexts : List Node → List Node
  | [] => []
  | node :: rest =>
    match node with
    | .text value => textBefore value (joinTexts rest)
    | other => other :: joinTexts rest

/-- Content before and after an inline element in it is replaced by its children, or a comment is
deleted. -/
inductive Unwraps (rules : ContentRules) : (before after : List Node) → Prop
  | inline (front : List Node) (tag : Tag) (children rest : List Node) :
    tag.name ∈ rules.inlineElements →
    tag.name ≠ rules.placeholder.element →
    (∀ c ∈ rules.container, c.element ≠ tag.name) →
    Unwraps rules (front ++ .element tag children :: rest) (joinTexts (front ++ (children ++ rest)))
  | comment (front : List Node) (value : String) (rest : List Node) :
    Unwraps rules (front ++ .comment value :: rest) (joinTexts (front ++ rest))
  | within (front : List Node) (tag : Tag) {children children' : List Node} (rest : List Node) :
    Unwraps rules children children' →
    Unwraps rules (front ++ .element tag children :: rest) (front ++ .element tag children' :: rest)

/-- An inline element is one that is listed and stands for no placeholder. -/
lemma roleOf_inline {name : String} (listed : name ∈ rules.inlineElements)
    (noPlaceholder : name ≠ rules.placeholder.element)
    (noContainer : ∀ c ∈ rules.container, c.element ≠ name) : rules.roleOf name = .inline := by
  have none : rules.container.filter (fun c => decide (c.element = name)) = none :=
    Option.filter_eq_none_iff.2 fun c member => by
      rw [decide_eq_true_eq]
      exact noContainer c member
  rw [ContentRules.roleOf, if_neg noPlaceholder, none]
  exact if_pos listed

/-! ## Steps without it -/

/-- Steps and the same ones with texts put together, or one error in both. -/
inductive Follows : (cut joined : Except ReadError (List Step)) → Prop
  | steps {cut joined : List Step} : Coarser cut joined → Follows (.ok cut) (.ok joined)
  | error (e : ReadError) : Follows (.error e) (.error e)

namespace Follows

variable {cut joined cut' joined' : Except ReadError (List Step)}

/-- Steps follow themselves. -/
lemma refl : ∀ all : Except ReadError (List Step), Follows all all
  | .ok all => .steps (.refl all)
  | .error e => .error e

/-- Steps that follow others do so when both are put together. -/
lemma append (h : Follows cut joined) (h' : Follows cut' joined') :
    Follows (do return (← cut) ++ (← cut')) (do return (← joined) ++ (← joined')) := by
  cases h with
  | error e => exact .error e
  | steps first =>
    cases h' with
    | error e => exact .error e
    | steps later => exact .steps (first.append later)

end Follows

/-- A text may be joined to the text behind it. -/
lemma follows_textBefore (value : String) {cut : Except ReadError (List Step)} {nodes : List Node}
    (h : Follows cut (steps rules file nodes)) :
    Follows (cut.map (.text value :: ·)) (steps rules file (textBefore value nodes)) := by
  fun_cases textBefore value nodes
  case case1 next rest =>
    rw [steps_text] at h ⊢
    generalize steps rules file rest = later at h ⊢
    cases later with
    | error e =>
      cases h
      exact .error e
    | ok inner =>
      cases h with
      | steps h => exact .steps (h.join_text value)
  case case2 =>
    rw [steps_text]
    generalize steps rules file nodes = joined at h ⊢
    cases h with
    | error e => exact .error e
    | steps h => exact .steps (.cons _ h)

/-- Making texts one puts their steps together. -/
lemma follows_joinTexts (nodes : List Node) :
    Follows (steps rules file nodes) (steps rules file (joinTexts nodes)) := by
  induction nodes with
  | nil => exact .refl _
  | cons node rest ih =>
    cases node with
    | text value =>
      rw [steps_text]
      exact follows_textBefore value ih
    | element | comment | instruction =>
      simp only [joinTexts, steps_cons]
      exact .append (.refl _) ih

/-- What an element says follows what its children say. -/
lemma follows_nodeSteps (tag : Tag) {children children' : List Node}
    (h : Follows (steps rules file children) (steps rules file children')) :
    Follows (nodeSteps rules file (.element tag children))
      (nodeSteps rules file (.element tag children')) := by
  rw [nodeSteps, nodeSteps]
  cases rules.roleOf tag.name with
  | placeholder | foreign => exact .refl _
  | inline => exact h
  | container startAttribute endAttribute =>
    dsimp only
    cases placeholderAttribute file tag startAttribute with
    | error e => exact .error e
    | ok first =>
      cases placeholderAttribute file tag endAttribute with
      | error e => exact .error e
      | ok last =>
        generalize steps rules file children = cut, steps rules file children' = joined at h ⊢
        cases h with
        | error e => exact .error e
        | steps inner => exact .steps (.cons _ (inner.append (.refl _)))

/-- Taking markup away that is looked through leaves the steps, and puts texts together. -/
theorem Unwraps.follows {before after : List Node} (h : Unwraps rules before after)
    (file : FileText) : Follows (steps rules file before) (steps rules file after) := by
  induction h with
  | inline front tag children rest listed noPlaceholder noContainer =>
    have role := roleOf_inline listed noPlaceholder noContainer
    have same : steps rules file (front ++ .element tag children :: rest) =
        steps rules file (front ++ (children ++ rest)) := by
      rw [steps_append, steps_append front, steps_cons, nodeSteps_inline role,
        steps_append children]
    rw [same]
    exact follows_joinTexts _
  | comment front value rest =>
    have same : steps rules file (front ++ .comment value :: rest) =
        steps rules file (front ++ rest) := by
      rw [steps_append, steps_append front, steps_comment]
    rw [same]
    exact follows_joinTexts _
  | within front tag rest _ ih =>
    rw [steps_append, steps_append front, steps_cons, steps_cons]
    exact .append (.refl _) (.append (follows_nodeSteps tag ih) (.refl _))

/-! ## Reading without it -/

/-- What is read of content is what its steps are. -/
lemma toOption_read (tag : Tag) (nodes : List Node) :
    (read rules file ⟨tag, nodes⟩).toOption = (steps rules file nodes).toOption.bind outcome := by
  rw [read_eq]
  cases steps rules file nodes with
  | error e => rfl
  | ok all =>
    exact apply_ite Except.toOption _ _ _

/-- Whether two rows of nodes have the same placeholders inside expansions and end both inside one
or both outside, or whether both end inside one. Nodes that cannot be read are like any others. -/
def AlikeInside (rules : ContentRules) (file : FileText) (before after : List Node) : Prop :=
  ∀ all all', steps rules file before = .ok all → steps rules file after = .ok all' →
    (endsInside all = true ∧ endsInside all' = true) ∨ insides 0 all = insides 0 all'

/-- Whether no markup stands in the start of an expansion: each brace that opens one with all the
text behind it, up to the next placeholder, does so with the text of its own node. -/
def StartsInOneNode (rules : ContentRules) (file : FileText) (nodes : List Node) : Prop :=
  ∀ all, steps rules file nodes = .ok all → StartsWhole all

/-- Taking away an inline element or a comment changes nothing exactly when the same placeholders
stand inside expansions. When no markup stands in the start of an expansion, it never changes
anything. -/
theorem read_unwrapped_iff {before after : List Node} (h : Unwraps rules before after)
    (file : FileText) (tag : Tag) :
    ((read rules file ⟨tag, before⟩).toOption = (read rules file ⟨tag, after⟩).toOption ↔
      AlikeInside rules file before after) ∧
    (StartsInOneNode rules file before →
      (read rules file ⟨tag, before⟩).toOption = (read rules file ⟨tag, after⟩).toOption) := by
  rw [toOption_read, toOption_read, AlikeInside, StartsInOneNode]
  have follows := h.follows file
  generalize steps rules file before = cut, steps rules file after = joined at follows ⊢
  cases follows with
  | error e =>
    -- Which element cannot be read does not depend on texts.
    exact ⟨iff_of_true rfl nofun, fun _ => rfl⟩
  | @steps all all' coarser =>
    have same := Replay.outcome_eq_iff coarser
    constructor
    · refine same.trans ⟨?_, fun alike => alike all all' rfl rfl⟩
      rintro alike _ _ ⟨⟩ ⟨⟩
      exact alike
    · intro whole
      exact same.2 (.inr (Replay.insides_eq_of_startsWhole coarser (whole all rfl) 0))

/-- An inline element inside an expansion can be taken away. -/
theorem read_unwrapped_iff_innerElement :
    let rules : ContentRules := ⟨["g"], ⟨"x", "id"⟩, none⟩
    let name : Node := .element ⟨"x", [⟨none, "id", "NAME"⟩], 0, 0⟩ []
    let before : List Node := [.text "\x7bn, select, a \x7bDear ",
      .element ⟨"g", [], 0, 0⟩ [.text "dear ", name, .text "\x7d"], .text "\x7d", name]
    let after : List Node := [.text "\x7bn, select, a \x7bDear dear ", name, .text "\x7d\x7d", name]
    Unwraps rules before after ∧
      (read rules ⟨"", ""⟩ ⟨⟨"t", [], 0, 0⟩, before⟩).toOption =
        (read rules ⟨"", ""⟩ ⟨⟨"t", [], 0, 0⟩, after⟩).toOption := by
  intro rules name before after
  have unwraps : Unwraps rules before after :=
    .inline [.text "\x7bn, select, a \x7bDear "] ⟨"g", [], 0, 0⟩ [.text "dear ", name, .text "\x7d"]
      [.text "\x7d", name] (by decide) (by decide) nofun
  refine ⟨unwraps, (read_unwrapped_iff unwraps ⟨"", ""⟩ ⟨"t", [], 0, 0⟩).2 ?_⟩
  rintro _ ⟨⟩
  decide

/-- An inline element or a comment in the start of an expansion hides it: the placeholder in the
expansion becomes one of the message. -/
theorem not_read_unwrapped_start :
    let rules : ContentRules := ⟨["g"], ⟨"x", "id"⟩, none⟩
    let name : Node := .element ⟨"x", [⟨none, "id", "PH"⟩], 0, 0⟩ []
    let inline : List Node := [.text "\x7b",
      .element ⟨"g", [], 0, 0⟩ [.text "n, select, other \x7b", name, .text "\x7d\x7d"]]
    let comment : List Node := [.text "\x7b", .comment " one of ",
      .text "n, select, other \x7b", name, .text "\x7d\x7d"]
    let after : List Node := [.text "\x7bn, select, other \x7b", name, .text "\x7d\x7d"]
    let split : Translation := .ofParts ["\x7bn, select, other \x7b", "\x7d\x7d"] ["PH"]
    let whole : Translation := .ofParts ["\x7bn, select, other \x7b\x7bPH\x7d\x7d\x7d"] []
    let reads (nodes : List Node) := read rules ⟨"", ""⟩ ⟨⟨"t", [], 0, 0⟩, nodes⟩
    Unwraps rules inline after ∧ Unwraps rules comment after ∧
      reads inline = .ok split ∧ reads comment = .ok split ∧ reads after = .ok whole ∧
      split ≠ whole := by
  intro rules name inline comment after split whole reads
  have unwrapsInline : Unwraps rules inline after :=
    .inline [.text "\x7b"] ⟨"g", [], 0, 0⟩ [.text "n, select, other \x7b", name, .text "\x7d\x7d"] []
      (by decide) (by decide) nofun
  have unwrapsComment : Unwraps rules comment after :=
    .comment [.text "\x7b"] " one of " [.text "n, select, other \x7b", name, .text "\x7d\x7d"]
  exact ⟨unwrapsInline, unwrapsComment, rfl, rfl, rfl, by decide⟩

end MessageCatalog.Content
