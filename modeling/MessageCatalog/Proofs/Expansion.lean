import MessageCatalog.Proofs.Cuts
import MessageCatalog.Proofs.KeptText

/-!
# Well-formed expansions

An expansion is a pair of braces around texts, placeholders and further pairs of braces, with the
start of an expansion behind its first brace. Its content is cut into steps only at its
placeholders. Replaying these steps leads outside again, and all that they say is added to the part
that is being read: the first brace is counted for what stands behind it, and from there on every
brace is, until the one that closes the first.
-/

namespace MessageCatalog

namespace IcuExpansion

/-- A text without braces. -/
def Braceless (content : String) : Prop := '{' ∉ content.toList ∧ '}' ∉ content.toList

instance decidableBraceless (content : String) : Decidable (Braceless content) :=
  inferInstanceAs (Decidable (_ ∧ _))

/-- What may stand inside an expansion. -/
inductive Item where
  | text (content : String) (braceless : Braceless content)
  | placeholder (name : String)
  | braces (items : List Item)

mutual

/-- The pieces of an item. -/
def Item.steps : Item → List Step
  | .text content _ => [.text content]
  | .placeholder name => [.placeholder name]
  | .braces items => .text "\x7b" :: (stepsIn items ++ [.text "\x7d"])

/-- The pieces of items in order. -/
def stepsIn : List Item → List Step
  | [] => []
  | item :: rest => item.steps ++ stepsIn rest

end

/-! ## Counting braces -/

/-- Text without braces leaves the depth as it is. -/
lemma depthAfter_braceless {content : String} (h : Braceless content) (depth : Nat)
    (rest : List Char) : depthAfter depth (content.toList ++ rest) = depthAfter depth rest := by
  obtain ⟨opening, closing⟩ := h
  generalize content.toList = text at opening closing ⊢
  induction text with
  | nil => rfl
  | cons c text ih =>
    rw [List.mem_cons, not_or] at opening closing
    rw [List.cons_append, depthAfter, if_neg (Ne.symm opening.1), if_neg (Ne.symm closing.1)]
    exact ih opening.2 closing.2

/-- Inside an expansion every opening brace counts, and outside the one that opens an expansion. -/
lemma depthAfter_opening {depth : Nat} {rest : List Char} (h : 0 < depth ∨ Start rest) :
    depthAfter depth ('{' :: rest) = depthAfter (depth + 1) rest := by
  have counts : (decide (depth > 0) || opens rest) = true := by
    rw [Bool.or_eq_true, decide_eq_true_eq, opens_iff]
    exact h
  rw [depthAfter, if_pos rfl, counts]
  rfl

/-- A closing brace leads out of the innermost expansion. -/
lemma depthAfter_closing (depth : Nat) (rest : List Char) :
    depthAfter (depth + 1) ('}' :: rest) = depthAfter depth rest := by
  rw [depthAfter, if_neg (by decide), if_pos rfl, Nat.add_sub_cancel]

end IcuExpansion

namespace Replay

open IcuExpansion

/-! ## Texts made one -/

/-- Steps with a text before them, which is put together with a text at their front. -/
def textBefore (content : String) : List Step → List Step
  | .text next :: rest => .text (content ++ next) :: rest
  | rest => .text content :: rest

/-- Steps with the texts that follow each other made one. -/
def joinTexts : List Step → List Step
  | [] => []
  | .text content :: rest => textBefore content (joinTexts rest)
  | .placeholder name :: rest => .placeholder name :: joinTexts rest

/-- Joined steps begin with all the text that stands at the front, or with no text. -/
lemma joinTexts_front (steps : List Step) :
    (∃ content rest, joinTexts steps = .text content :: rest ∧ content.toList = textAhead steps) ∨
      (textAhead steps = [] ∧
        ∀ content, textBefore content (joinTexts steps) = .text content :: joinTexts steps) := by
  induction steps with
  | nil => exact .inr ⟨rfl, fun _ => rfl⟩
  | cons step later ih =>
    cases step with
    | placeholder name => exact .inr ⟨rfl, fun _ => rfl⟩
    | text content =>
      left
      rw [joinTexts, textAhead]
      rcases ih with ⟨next, rest, e, ahead⟩ | ⟨none, alone⟩
      · refine ⟨content ++ next, rest, by rw [e, textBefore], ?_⟩
        rw [String.toList_append, ahead]
      · refine ⟨content, joinTexts later, alone content, ?_⟩
        rw [none, List.append_nil]

/-- The texts further on only add to the text at the front. -/
lemma textAhead_append (steps later : List Step) :
    ∃ more, textAhead (steps ++ later) = textAhead steps ++ more := by
  induction steps with
  | nil => exact ⟨textAhead later, rfl⟩
  | cons step steps ih =>
    cases step with
    | placeholder name => exact ⟨[], rfl⟩
    | text content =>
      obtain ⟨more, e⟩ := ih
      refine ⟨more, ?_⟩
      rw [List.cons_append, textAhead, textAhead, e, List.append_assoc]

/-- A text at the front can be replayed on its own, when the open braces are counted with regard to
the text behind it. -/
lemma run_joinTexts_text {r : Replay} {content : String} {later : List Step} {depth : Nat}
    (h : depthAfter r.depth (content.toList ++ textAhead later) =
      depthAfter depth (textAhead later)) :
    r.run (joinTexts (.text content :: later)) =
      ({ r with current := r.current ++ content, depth } : Replay).run (joinTexts later) := by
  rw [joinTexts]
  rcases joinTexts_front later with ⟨next, rest, e, ahead⟩ | ⟨none, alone⟩
  · rw [e, textBefore, run, run, List.foldl_cons, List.foldl_cons, step, step,
      String.toList_append, ahead, h, String.append_assoc]
  · rw [none, List.append_nil] at h
    rw [alone, run, run, List.foldl_cons, step, h]
    rfl

/-! ## Inside an expansion -/

/-- What steps inside an expansion say. -/
def textWithin (steps : List Step) : String := String.join (steps.map (Step.shown true))

/-- What is shown of steps in an expansion is put together step by step. -/
lemma textWithin_append (steps later : List Step) :
    textWithin (steps ++ later) = textWithin steps ++ textWithin later := by
  rw [textWithin, List.map_append, String.join_append]
  rfl

/-- One step in an expansion shows what it stands for. -/
lemma textWithin_singleton (step : Step) : textWithin [step] = step.shown true := by
  rw [textWithin, List.map_singleton, String.join_cons, String.join_nil, String.append_empty]

/-- What steps inside an expansion say is added to the part that is being read. -/
def within (r : Replay) (steps : List Step) : Replay :=
  { r with current := r.current ++ textWithin steps }

/-- A replay goes on inside an expansion from where it was. -/
lemma within_append (r : Replay) (steps later : List Step) :
    r.within (steps ++ later) = (r.within steps).within later := by
  rw [within, textWithin_append, ← String.append_assoc]
  rfl

/-- Text in an expansion is added to the part at hand. -/
lemma within_text (r : Replay) (content : String) :
    r.within [.text content] = { r with current := r.current ++ content } := by
  rw [within, textWithin_singleton]
  rfl

/-- A placeholder inside an expansion is text. -/
lemma step_placeholder_inside {r : Replay} (inside : 0 < r.depth) (name : String) :
    r.step (.placeholder name) = r.within [.placeholder name] := by
  have opened : r.inExpansion = true := decide_eq_true inside
  rw [step, opened, if_pos rfl, within, textWithin_singleton, Step.shown, if_pos rfl]
  simp only [String.append_assoc]

/-- A pair of braces is left as it was entered, when its first brace counts and its content is left
as it was entered. -/
lemma run_braces {items : List Item}
    (content : ∀ {r : Replay}, 0 < r.depth → ∀ later,
      r.run (joinTexts (stepsIn items ++ later)) =
        (r.within (stepsIn items)).run (joinTexts later))
    {r : Replay} {later : List Step}
    (opened : 0 < r.depth ∨ Start (textAhead (stepsIn items ++ .text "\x7d" :: later))) :
    r.run (joinTexts ((Item.braces items).steps ++ later)) =
      (r.within (Item.braces items).steps).run (joinTexts later) := by
  let inner : Replay := { r with current := r.current ++ "\x7b", depth := r.depth + 1 }
  have first : r.run (joinTexts (.text "\x7b" :: (stepsIn items ++ .text "\x7d" :: later))) =
      inner.run (joinTexts (stepsIn items ++ .text "\x7d" :: later)) :=
    run_joinTexts_text (depthAfter_opening opened)
  have last : (inner.within (stepsIn items)).run (joinTexts (.text "\x7d" :: later)) =
      (r.within (Item.braces items).steps).run (joinTexts later) := by
    rw [run_joinTexts_text (depthAfter_closing r.depth _), Item.steps, ← List.singleton_append,
      within_append, within_append, within_text, within_text]
    rfl
  have pieces : (Item.braces items).steps ++ later =
      .text "\x7b" :: (stepsIn items ++ .text "\x7d" :: later) := by
    rw [Item.steps, List.cons_append, List.append_assoc, List.singleton_append]
  rw [pieces, first, content (Nat.succ_pos r.depth), last]

mutual

/-- An item inside an expansion is replayed as what it says. -/
lemma run_steps_of_inside (item : Item) {r : Replay} (inside : 0 < r.depth) (later : List Step) :
    r.run (joinTexts (item.steps ++ later)) = (r.within item.steps).run (joinTexts later) := by
  cases item with
  | text content braceless =>
    rw [Item.steps, List.singleton_append, within_text]
    exact run_joinTexts_text (depthAfter_braceless braceless r.depth _)
  | placeholder name =>
    rw [Item.steps, List.singleton_append, joinTexts, ← step_placeholder_inside inside]
    rfl
  | braces items =>
    exact run_braces (fun inside later => run_stepsIn_of_inside items inside later) (.inl inside)

/-- Items inside an expansion are replayed as what they say. -/
lemma run_stepsIn_of_inside (items : List Item) {r : Replay} (inside : 0 < r.depth)
    (later : List Step) :
    r.run (joinTexts (stepsIn items ++ later)) =
      (r.within (stepsIn items)).run (joinTexts later) := by
  cases items with
  | nil =>
    have same : r.within [] = r := by
      rw [within, textWithin, List.map_nil, String.join_nil, String.append_empty]
    rw [stepsIn, same]
    rfl
  | cons item rest =>
    rw [stepsIn, List.append_assoc, run_steps_of_inside item inside, within_append]
    exact run_stepsIn_of_inside rest (r := r.within item.steps) inside later

end

/-! ## A whole expansion -/

/-- From outside, an expansion is replayed as what it says, whatever text follows it. -/
lemma run_expansion {items : List Item}
    (starts : Start (textAhead (stepsIn items ++ [.text "\x7d"]))) (r : Replay)
    (later : List Step) :
    r.run (joinTexts ((Item.braces items).steps ++ later)) =
      (r.within (Item.braces items).steps).run (joinTexts later) := by
  apply run_braces (run_stepsIn_of_inside items)
  right
  obtain ⟨more, e⟩ := textAhead_append (stepsIn items ++ [.text "\x7d"]) later
  rw [List.append_assoc, List.singleton_append] at e
  rw [e]
  exact starts.append more

/-- A well-formed expansion stays in one part. It is a pair of braces around items, and up to its
first placeholder the text behind its first brace is the start of an expansion. From any state
outside expansions its steps lead outside again, store no part and no name, and add to the part that
is being read what they say, with each placeholder as `{NAME}`. A placeholder right behind it ends
that part. -/
theorem expansion_in_one_part {r : Replay} (outside : r.inExpansion = false) {items : List Item}
    (starts : Start (textAhead (stepsIn items ++ [.text "\x7d"]))) :
    let steps := joinTexts (Item.braces items).steps
    let text := "\x7b" ++ textWithin (stepsIn items) ++ "\x7d"
    (r.run steps).inExpansion = false ∧
      r.run steps = { r with current := r.current ++ text } ∧
      ∀ name, (r.run steps).step (.placeholder name) = {
        parts := r.parts ++ [r.current ++ text]
        placeholderNames := r.placeholderNames ++ [normalizeName name] } := by
  intro steps text
  have said : textWithin (Item.braces items).steps = text := by
    rw [Item.steps, ← List.singleton_append, textWithin_append, textWithin_append,
      textWithin_singleton, textWithin_singleton, ← String.append_assoc]
    rfl
  have whole : r.run steps = { r with current := r.current ++ text } := by
    have ran := run_expansion starts r []
    rw [List.append_nil] at ran
    rw [ran, within, said]
    rfl
  rw [whole]
  refine ⟨outside, rfl, fun name => ?_⟩
  have depth : r.depth = 0 := by simpa [inExpansion] using outside
  rw [step, if_neg (by simpa [inExpansion] using depth), depth]

/-- Cases in an expansion, with braces inside a case and in the name of a placeholder. -/
theorem expansion_in_one_part_cases :
    let items : List Item := [.text "n, plural, =1 " (by decide),
      .braces [.text "one " (by decide), .placeholder "A-\x7d", .braces [.text "x" (by decide)]],
      .text " other " (by decide), .braces [.placeholder "B", .placeholder "\x7b"]]
    let r : Replay := { parts := ["a"], placeholderNames := ["X"], current := " \x7b" }
    r.inExpansion = false ∧ Start (textAhead (stepsIn items ++ [.text "\x7d"])) ∧
      r.run (joinTexts (Item.braces items).steps) = { r with
        current := " \x7b\x7bn, plural, =1 \x7bone \x7bA_\x7d\x7d\x7bx\x7d\x7d other " ++
          "\x7b\x7bB\x7d\x7b\x7b\x7d\x7d\x7d" } := by
  intro items r
  have outside : r.inExpansion = false := rfl
  have starts : Start (textAhead (stepsIn items ++ [.text "\x7d"])) := opens_iff.1 (by decide)
  refine ⟨outside, starts, (expansion_in_one_part outside starts).2.1.trans ?_⟩
  decide

end Replay

end MessageCatalog
