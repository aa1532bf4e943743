import MessageCatalog.Proofs.FileFormat.Steps

/-!
# Content is flattened and replayed

Reading content comes apart into three things that know nothing of each other: which elements are
visited, of which the first that has no place there or lacks an attribute is the error; the steps
that the content says; and the replay of these steps, which must not end inside an expansion.
-/

namespace MessageCatalog

/-- What an element is by its name. A name that is listed in several places is that of a placeholder
first, then of a container, and then of an inline element. -/
inductive ContentRules.Assigns (rules : ContentRules) (name : String) : ElementRole → Prop
  | placeholder :
    name = rules.placeholder.element →
    Assigns rules name (.placeholder rules.placeholder.nameAttribute)
  | container (c : ContainerElement) :
    name ≠ rules.placeholder.element →
    c ∈ rules.container →
    name = c.element →
    Assigns rules name (.container c.startAttribute c.endAttribute)
  | inline :
    name ≠ rules.placeholder.element →
    (∀ c ∈ rules.container, name ≠ c.element) →
    name ∈ rules.inlineElements →
    Assigns rules name .inline
  | foreign :
    name ≠ rules.placeholder.element →
    (∀ c ∈ rules.container, name ≠ c.element) →
    name ∉ rules.inlineElements →
    Assigns rules name .foreign

/-- The role of an element is the one that the rules assign first. -/
lemma ContentRules.assigns_roleOf (rules : ContentRules) (name : String) :
    rules.Assigns name (rules.roleOf name) := by
  rw [roleOf]
  split
  case isTrue same => exact .placeholder same
  case isFalse other =>
    split
    case h_1 c found =>
      obtain ⟨listed, same⟩ := Option.filter_eq_some_iff.1 found
      exact .container c other listed (of_decide_eq_true same).symm
    case h_2 none =>
      have noContainer : ∀ c ∈ rules.container, name ≠ c.element := by
        intro c listed same
        exact Option.filter_eq_none_iff.1 none c listed (decide_eq_true same.symm)
      split
      case isTrue inline => exact .inline other noContainer inline
      case isFalse foreign => exact .foreign other noContainer foreign

/-- The rules assign one role to each name. -/
lemma ContentRules.Assigns.unique {rules : ContentRules} {name : String} {role role' : ElementRole}
    (h : rules.Assigns name role) (h' : rules.Assigns name role') : role = role' := by
  cases h with
  | placeholder same =>
    cases h' with
    | placeholder => rfl
    | container _ other | inline other | foreign other => exact absurd same other
  | container c other listed same =>
    cases h' with
    | placeholder same => exact absurd same other
    | container c' _ listed' =>
      cases listed.symm.trans listed'
      rfl
    | inline _ noContainer | foreign _ noContainer => exact absurd same (noContainer c listed)
  | inline other noContainer inline =>
    cases h' with
    | placeholder same => exact absurd same other
    | container c _ listed same => exact absurd same (noContainer c listed)
    | inline => rfl
    | foreign _ _ foreign => exact absurd inline foreign
  | foreign other noContainer foreign =>
    cases h' with
    | placeholder same => exact absurd same other
    | container c _ listed same => exact absurd same (noContainer c listed)
    | inline _ _ inline => exact absurd inline foreign
    | foreign => rfl

namespace Content

variable {rules : ContentRules} {file : FileText}

/-! ## Elements -/

mutual

/-- The elements that are visited at a node. -/
def visitedAt (rules : ContentRules) : Markup.Node → List Markup.Tag
  | .element tag children =>
    tag ::
      match rules.roleOf tag.name with
      | .container _ _ | .inline => visited rules children
      | .placeholder _ | .foreign => []
  | _ => []

/-- The elements that are visited in content, in document order: those inside a placeholder are
not. -/
def visited (rules : ContentRules) : List Markup.Node → List Markup.Tag
  | [] => []
  | node :: rest => visitedAt rules node ++ visited rules rest

end

/-- The first of the attributes that an element lacks. -/
def missing? (tag : Markup.Tag) (attributes : List String) : Option ElementProblem :=
  (attributes.find? fun name => (tag.attribute? name).isNone).map .incompletePlaceholder

/-- What is wrong with an element in content. -/
def problem? (rules : ContentRules) (tag : Markup.Tag) : Option ElementProblem :=
  match rules.roleOf tag.name with
  | .placeholder name => missing? tag [name]
  | .container first last => missing? tag [first, last]
  | .inline => none
  | .foreign => some .unexpected

/-- The error of an element in content. -/
def errorAt? (rules : ContentRules) (file : FileText) (tag : Markup.Tag) : Option ReadError :=
  (problem? rules tag).map (.atElement file tag)

/-- The error of the first visited element that has one. -/
def firstError? (rules : ContentRules) (file : FileText) (nodes : List Markup.Node) :
    Option ReadError :=
  (visited rules nodes).findSome? (errorAt? rules file)

/-! ## Steps -/

/-- The placeholder that an attribute names. -/
def placeholderOf (tag : Markup.Tag) (attr : String) : List Step :=
  (tag.attribute? attr).toList.map .placeholder

mutual

/-- The steps that a node says. -/
def flattenAt (rules : ContentRules) : Markup.Node → List Step
  | .text value => [.text value]
  | .element tag children =>
    match rules.roleOf tag.name with
    | .placeholder name => placeholderOf tag name
    | .container first last =>
      placeholderOf tag first ++ (flatten rules children ++ placeholderOf tag last)
    | .inline => flatten rules children
    | .foreign => []
  | _ => []

/-- The steps that content says in document order. -/
def flatten (rules : ContentRules) : List Markup.Node → List Step
  | [] => []
  | node :: rest => flattenAt rules node ++ flatten rules rest

end

/-! ## Both together -/

/-- Steps, unless there is an error. -/
def stepsUnless (error : Option ReadError) (steps : List Step) : Except ReadError (List Step) :=
  match error with
  | some e => .error e
  | none => .ok steps

/-- Steps are put together as long as neither side has an error, and the first error counts. -/
lemma stepsUnless_append (error error' : Option ReadError) (first later : List Step) :
    (do return (← stepsUnless error first) ++ (← stepsUnless error' later)) =
      stepsUnless (error.or error') (first ++ later) := by
  cases error with
  | some e => rfl
  | none => cases error' <;> rfl

mutual

/-- A node says its steps, unless an element in it has an error. -/
lemma nodeSteps_eq (node : Markup.Node) :
    nodeSteps rules file node =
      stepsUnless ((visitedAt rules node).findSome? (errorAt? rules file))
        (flattenAt rules node) := by
  cases node with
  | text | comment | instruction => rfl
  | element tag children =>
    rw [nodeSteps, visitedAt, flattenAt, List.findSome?_cons, errorAt?, problem?]
    cases rules.roleOf tag.name with
    | foreign => rfl
    | inline => exact steps_eq children
    | placeholder name =>
      simp only [placeholderAttribute, placeholderOf, missing?, List.find?_cons, List.find?_nil]
      cases tag.attribute? name <;> rfl
    | container first last =>
      simp only [placeholderAttribute, placeholderOf, missing?, List.find?_cons, List.find?_nil,
        steps_eq children, firstError?]
      -- The start is asked for before the end, and both before the content.
      cases tag.attribute? first with
      | none => rfl
      | some start =>
        cases tag.attribute? last with
        | none => rfl
        | some stop => cases (visited rules children).findSome? (errorAt? rules file) <;> rfl

/-- Content says its steps, unless an element in it has an error. -/
lemma steps_eq (nodes : List Markup.Node) :
    steps rules file nodes = stepsUnless (firstError? rules file nodes) (flatten rules nodes) := by
  cases nodes with
  | nil => rfl
  | cons node rest =>
    rw [steps_cons, nodeSteps_eq node, steps_eq rest, stepsUnless_append, firstError?, firstError?,
      visited, List.findSome?_append, flatten]

end

/-- Content is read by flattening it and replaying the steps, where each name has the role that the
rules assign to it. When a visited element has no place in a message or lacks an attribute, the
first such element in document order is the error, whatever else there is; otherwise content that
ends inside an expansion is an error at the element around it, and any other content is what the
replay has collected. -/
theorem read_flattened (rules : ContentRules) (file : FileText) (tag : Markup.Tag)
    (nodes : List Markup.Node) :
    (∀ name role, rules.roleOf name = role ↔ rules.Assigns name role) ∧
      (read rules file ⟨tag, nodes⟩ =
        match firstError? rules file nodes with
        | some e => .error e
        | none =>
          let r := ({} : Replay).run (flatten rules nodes)
          if r.inExpansion then .error (.atElement file tag .openExpansion) else .ok r.finish) ∧
      (ReadError.atElement file tag .openExpansion).message =
        "Unterminated ICU expression found in message." := by
  refine ⟨fun name role => ?_, ?_, rfl⟩
  · have assigned := rules.assigns_roleOf name
    constructor
    · rintro rfl
      exact assigned
    · exact assigned.unique
  · rw [read_eq, steps_eq]
    cases firstError? rules file nodes <;> rfl

end Content

end MessageCatalog
