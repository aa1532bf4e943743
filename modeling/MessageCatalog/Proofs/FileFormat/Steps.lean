import MessageCatalog.FileFormat.Content
import MessageCatalog.Proofs.Replay

/-!
# Content as a row of steps

What the content of a message says is a row of texts and placeholders in document order, unless an
element in it cannot be read. Walking the content replays that row: which steps there are, and
whether there is an error, never depends on the replay.
-/

namespace MessageCatalog.Content

variable {rules : ContentRules} {file : FileText}

mutual

/-- The steps that a node says. -/
def nodeSteps (rules : ContentRules) (file : FileText) : Markup.Node → Except ReadError (List Step)
  | .text value => .ok [.text value]
  | .element tag children =>
    match rules.roleOf tag.name with
    | .placeholder attr => do
      let name ← placeholderAttribute file tag attr
      return [.placeholder name]
    | .container startAttribute endAttribute => do
      let first ← placeholderAttribute file tag startAttribute
      let last ← placeholderAttribute file tag endAttribute
      let inner ← steps rules file children
      return .placeholder first :: (inner ++ [.placeholder last])
    | .inline => steps rules file children
    | .foreign => .error (.atElement file tag .unexpected)
  | _ => .ok []

/-- The steps that nodes say in order. -/
def steps (rules : ContentRules) (file : FileText) :
    List Markup.Node → Except ReadError (List Step)
  | [] => .ok []
  | node :: rest => do
    let first ← nodeSteps rules file node
    let later ← steps rules file rest
    return first ++ later

end

/-! ## Laws of steps -/

/-- The steps of nodes are those of the first and then those of the others. -/
lemma steps_cons (node : Markup.Node) (rest : List Markup.Node) :
    steps rules file (node :: rest) =
      (do return (← nodeSteps rules file node) ++ (← steps rules file rest)) := by
  rw [steps]

/-- The steps of two rows of nodes are put together. -/
lemma steps_append (front rest : List Markup.Node) :
    steps rules file (front ++ rest) =
      (do return (← steps rules file front) ++ (← steps rules file rest)) := by
  induction front with
  | nil =>
    rw [List.nil_append, steps]
    cases steps rules file rest <;> rfl
  | cons node front ih =>
    rw [List.cons_append, steps_cons, steps_cons, ih]
    cases nodeSteps rules file node with
    | error e => rfl
    | ok first =>
      cases steps rules file front with
      | error e => rfl
      | ok inner =>
        cases steps rules file rest with
        | error e => rfl
        | ok later => exact congrArg Except.ok (List.append_assoc ..).symm

/-- An inline element says what its children say. -/
lemma nodeSteps_inline {tag : Markup.Tag} (role : rules.roleOf tag.name = .inline)
    (children : List Markup.Node) :
    nodeSteps rules file (.element tag children) = steps rules file children := by
  rw [nodeSteps, role]

/-- A text is a step. -/
lemma steps_text (value : String) (rest : List Markup.Node) :
    steps rules file (.text value :: rest) = (steps rules file rest).map (.text value :: ·) := by
  rw [steps_cons]
  cases steps rules file rest <;> rfl

/-- A comment is no step. -/
lemma steps_comment (value : String) (rest : List Markup.Node) :
    steps rules file (.comment value :: rest) = steps rules file rest := by
  rw [steps_cons]
  cases steps rules file rest <;> rfl

/-! ## Replaying them -/

mutual

/-- Walking a node replays its steps. -/
lemma walkNode_eq (r : Replay) (node : Markup.Node) :
    walkNode rules file r node = (nodeSteps rules file node).map r.run := by
  cases node with
  | text | comment | instruction => rfl
  | element tag children =>
    rw [walkNode, nodeSteps]
    cases rules.roleOf tag.name with
    | placeholder attr =>
      dsimp only
      cases placeholderAttribute file tag attr <;> rfl
    | container startAttribute endAttribute =>
      dsimp only
      cases placeholderAttribute file tag startAttribute with
      | error e => rfl
      | ok first =>
        cases placeholderAttribute file tag endAttribute with
        | error e => rfl
        | ok last =>
          have inside := walk_eq (r.step (.placeholder first)) children
          refine (congrArg (· >>= fun r => .ok (r.step (.placeholder last))) inside).trans ?_
          cases steps rules file children with
          | error e => rfl
          | ok inner =>
            have whole := (r.step (.placeholder first)).run_append inner [.placeholder last]
            exact congrArg Except.ok whole.symm
    | inline => exact walk_eq r children
    | foreign => rfl

/-- Walking nodes replays their steps. -/
lemma walk_eq (r : Replay) (nodes : List Markup.Node) :
    walk rules file r nodes = (steps rules file nodes).map r.run := by
  cases nodes with
  | nil => rfl
  | cons node rest =>
    rw [walk, steps, walkNode_eq r node]
    cases nodeSteps rules file node with
    | error e => rfl
    | ok first =>
      refine (walk_eq (r.run first) rest).trans ?_
      cases steps rules file rest with
      | error e => rfl
      | ok later => exact congrArg Except.ok (r.run_append first later).symm

end

/-- Content is read as what its steps replay to. -/
theorem read_eq (tag : Markup.Tag) (nodes : List Markup.Node) :
    read rules file ⟨tag, nodes⟩ = do
      let r := ({} : Replay).run (← steps rules file nodes)
      if r.inExpansion then .error (.atElement file tag .openExpansion)
      else return r.finish := by
  rw [read, walk_eq]
  cases steps rules file nodes <;> rfl

end MessageCatalog.Content
