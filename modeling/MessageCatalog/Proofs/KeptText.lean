import MessageCatalog.Proofs.Replay
import MessageCatalog.Proofs.WellFormed

/-!
# What a replay keeps

Replaying content loses none of it. The text of the translation is what the steps say one after the
other, where a placeholder inside an expansion is written as `{NAME}` and any other as `{$NAME}`;
the names are those of the placeholders outside expansions. A brace counts only in front of the
start of an expansion, so that loose braces hide no placeholder.
-/

namespace MessageCatalog

namespace IcuExpansion

/-- No brace of a text opens an expansion when none has the start of one behind it. -/
lemma opensNone_iff {text : List Char} :
    opensNone text = true ↔ ∀ front rest, text = front ++ '{' :: rest → ¬Start rest := by
  induction text with
  | nil =>
    refine iff_of_true rfl fun front rest e => ?_
    cases front <;> cases e
  | cons c text ih =>
    rw [opensNone_cons, ih]
    constructor
    · rintro ⟨here, later⟩ front rest e start
      cases front with
      | nil =>
        cases e
        have opened := opens_iff.2 start
        rw [here rfl] at opened
        cases opened
      | cons d front =>
        cases e
        exact later front rest rfl start
    · intro h
      constructor
      · rintro rfl
        exact Bool.eq_false_iff.2 fun opened => h [] text rfl (opens_iff.1 opened)
      · rintro front rest rfl
        exact h (c :: front) rest rfl

end IcuExpansion

/-! ## Texts that grow at their end -/

namespace Placeholder

variable {parts names : List String}

/-- A name and a part at the end stand at the end of the text. -/
lemma interleave_concat (h : parts.length = names.length + 1) (name part : String) :
    interleave (parts ++ [part]) (names ++ [name]) =
      interleave parts names ++ (token name ++ part) := by
  obtain ⟨first, later, rfl, rfl, -⟩ := exists_later h
  have grown := Message.interleave_eq first (later ++ [(name, part)])
  rw [List.map_append, List.map_append, List.map_append, String.join_append] at grown
  rw [Message.interleave_eq, String.append_assoc]
  simpa using grown

/-- Text at the end of the last part stands at the end of the text. -/
lemma interleave_append_text (h : parts.length = names.length) (part content : String) :
    interleave (parts ++ [part ++ content]) names =
      interleave (parts ++ [part]) names ++ content := by
  rcases List.eq_nil_or_concat names with rfl | ⟨names, name, rfl⟩
  · rw [List.length_nil, List.length_eq_zero_iff] at h
    subst h
    rfl
  · rw [List.length_concat] at h
    rw [List.concat_eq_append, interleave_concat h, interleave_concat h, String.append_assoc,
      String.append_assoc]

end Placeholder

/-! ## What a step says -/

namespace Step

/-- The name that a placeholder is collected under. -/
def name? : Step → Option String
  | .text _ => none
  | .placeholder name => some (Replay.normalizeName name)

/-- What a step says, given whether it is taken inside an expansion. -/
def shown (inside : Bool) : Step → String
  | .text content => content
  | .placeholder name =>
    if inside then "\x7b" ++ Replay.normalizeName name ++ "\x7d"
    else Placeholder.token (Replay.normalizeName name)

/-- Whether no brace of a step opens an expansion. -/
def opensNone : Step → Bool
  | .text content => IcuExpansion.opensNone content.toList
  | .placeholder _ => true

end Step

namespace Replay

/-- Steps, each with whether an expansion is open when it is taken. -/
def placed (r : Replay) : List Step → List (Bool × Step)
  | [] => []
  | step :: rest => (r.inExpansion, step) :: (r.step step).placed rest

/-- The names of the placeholders that are taken outside expansions. -/
def namesOutside (r : Replay) (steps : List Step) : List String :=
  (r.placed steps).filterMap fun (inside, step) => if inside then none else step.name?

/-- What steps say one after the other. -/
def shown (r : Replay) (steps : List Step) : String :=
  String.join ((r.placed steps).map fun (inside, step) => step.shown inside)

/-- No text has a brace with the start of an expansion behind it. -/
def NeverOpens (steps : List Step) : Prop :=
  ∀ content, .text content ∈ steps →
    ∀ front rest, content.toList = front ++ '{' :: rest → ¬IcuExpansion.Start rest

/-- Nothing opens an expansion when no step on its own does. -/
lemma neverOpens_iff {steps : List Step} :
    NeverOpens steps ↔ ∀ step ∈ steps, step.opensNone = true := by
  constructor
  · intro h step member
    cases step with
    | text content => exact IcuExpansion.opensNone_iff.2 (h content member)
    | placeholder name => rfl
  · intro h content member
    exact IcuExpansion.opensNone_iff.1 (h (.text content) member)

instance decidableNeverOpens (steps : List Step) : Decidable (NeverOpens steps) :=
  decidable_of_iff' _ neverOpens_iff

/-! ## Names -/

/-- A step outside an expansion gives its name, and one inside gives none. -/
lemma placeholderNames_step (r : Replay) (s : Step) :
    (r.step s).placeholderNames =
      r.placeholderNames ++ (if r.inExpansion then none else s.name?).toList := by
  cases s with
  | text content => cases r.inExpansion <;> exact (List.append_nil _).symm
  | placeholder name =>
    rw [step]
    cases r.inExpansion with
    | true => exact (List.append_nil _).symm
    | false => rfl

/-- The names of steps outside expansions are those of the first step and of the others. -/
lemma namesOutside_cons (r : Replay) (s : Step) (steps : List Step) :
    r.namesOutside (s :: steps) =
      (if r.inExpansion then none else s.name?).toList ++ (r.step s).namesOutside steps := by
  rw [namesOutside, placed, List.filterMap_cons]
  dsimp only
  cases (if r.inExpansion then none else s.name?) <;> rfl

/-- The names that are collected are those of the placeholders outside expansions. -/
lemma placeholderNames_run (r : Replay) (steps : List Step) :
    (r.run steps).placeholderNames = r.placeholderNames ++ r.namesOutside steps := by
  induction steps generalizing r with
  | nil => exact (List.append_nil _).symm
  | cons s steps ih =>
    show ((r.step s).run steps).placeholderNames = _
    rw [ih, placeholderNames_step, namesOutside_cons, List.append_assoc]

/-! ## Text -/

/-- A step adds what it says to the end of the text. -/
lemma text_step {r : Replay} (h : r.Balanced) (s : Step) :
    (r.step s).finish.text = r.finish.text ++ s.shown r.inExpansion := by
  cases s with
  | text content => exact Placeholder.interleave_append_text h r.current content
  | placeholder name =>
    rw [step, Step.shown]
    cases r.inExpansion with
    | true =>
      rw [if_pos rfl, if_pos rfl, String.append_assoc, String.append_assoc]
      exact Placeholder.interleave_append_text h r.current _
    | false =>
      rw [if_neg Bool.false_ne_true, if_neg Bool.false_ne_true]
      have length : (r.parts ++ [r.current]).length = r.placeholderNames.length + 1 := by
        rw [List.length_append, h]
        rfl
      have ended := Placeholder.interleave_concat length (normalizeName name) ""
      rw [String.append_empty] at ended
      exact ended

/-- What steps show is what the first of them shows and what the others show after it. -/
lemma shown_cons (r : Replay) (s : Step) (steps : List Step) :
    r.shown (s :: steps) = s.shown r.inExpansion ++ (r.step s).shown steps := by
  rw [shown, placed, List.map_cons, String.join_cons]
  rfl

/-- The text is what the steps say one after the other. -/
lemma text_run {r : Replay} (h : r.Balanced) (steps : List Step) :
    (r.run steps).finish.text = r.finish.text ++ r.shown steps := by
  induction steps generalizing r with
  | nil => exact String.append_empty.symm
  | cons s steps ih =>
    show ((r.step s).run steps).finish.text = _
    rw [ih (h.step s), text_step h, shown_cons, String.append_assoc]

/-- A replay keeps as many parts as its names ask for. -/
lemma Balanced.run {r : Replay} (h : r.Balanced) (steps : List Step) : (r.run steps).Balanced := by
  induction steps generalizing r with
  | nil => exact h
  | cons s steps ih => exact ih (h.step s)

/-! ## Loose braces -/

/-- A step that opens no expansion is followed by none. -/
lemma inExpansion_step {r : Replay} (hr : r.inExpansion = false) {s : Step}
    (h : s.opensNone = true) : (r.step s).inExpansion = false := by
  have depth : r.depth = 0 := by simpa [inExpansion] using hr
  cases s with
  | text content =>
    rw [step_text_of_opensNone depth h]
    exact hr
  | placeholder name =>
    rw [step, hr]
    exact hr

/-- Steps that open nothing all stand outside an expansion. -/
lemma placed_of_opensNone {r : Replay} (hr : r.inExpansion = false) {steps : List Step}
    (h : ∀ step ∈ steps, step.opensNone = true) : r.placed steps = steps.map (false, ·) := by
  induction steps generalizing r with
  | nil => rfl
  | cons s steps ih =>
    obtain ⟨first, later⟩ := List.forall_mem_cons.1 h
    rw [placed, hr, ih (inExpansion_step hr first) later, List.map_cons]

/-- Steps that open nothing lead into no expansion. -/
lemma inExpansion_run_of_opensNone {r : Replay} (hr : r.inExpansion = false) {steps : List Step}
    (h : ∀ step ∈ steps, step.opensNone = true) : (r.run steps).inExpansion = false := by
  induction steps generalizing r with
  | nil => exact hr
  | cons s steps ih =>
    obtain ⟨first, later⟩ := List.forall_mem_cons.1 h
    exact ih (inExpansion_step hr first) later

/-- A replay from the beginning loses no text: there is one part more than there are names; the
names are those of the placeholders outside expansions, in order; and the text is what the steps say
one after the other. Where no brace has the start of an expansion behind it, there is never an
expansion, and every placeholder has its name. -/
theorem run_keeps_text (steps : List Step) :
    let t := (({} : Replay).run steps).finish
    t.parts.length = t.placeholderNames.length + 1 ∧
      t.placeholderNames = ({} : Replay).namesOutside steps ∧
      t.text = ({} : Replay).shown steps ∧
      (NeverOpens steps →
        (∀ front, front <+: steps → (({} : Replay).run front).inExpansion = false) ∧
          t.placeholderNames = steps.filterMap Step.name?) := by
  have started : Balanced {} := rfl
  have names := placeholderNames_run {} steps
  refine ⟨(started.run steps).wellFormed_finish.length, names, ?_, fun closed => ?_⟩
  · exact (text_run started steps).trans String.empty_append
  · rw [neverOpens_iff] at closed
    constructor
    · intro front before
      exact inExpansion_run_of_opensNone rfl fun s member => closed s (before.subset member)
    · rw [namesOutside, placed_of_opensNone rfl closed, List.filterMap_map] at names
      exact names

/-- Braces that open nothing, around two placeholders. -/
theorem run_keeps_text_looseBraces :
    let steps : List Step := [.text "a \x7d \x7b", .placeholder "A-B", .text "\x7bn, plural ",
      .placeholder "A-B", .text ", \x7bb\x7d\x7d"]
    NeverOpens steps ∧ (({} : Replay).run steps).inExpansion = false ∧
      (({} : Replay).run steps).finish.placeholderNames = ["A_B", "A_B"] := by
  intro steps
  have closed : NeverOpens steps := by decide
  obtain ⟨outside, names⟩ := (run_keeps_text steps).2.2.2 closed
  exact ⟨closed, outside steps List.prefix_rfl, names⟩

end Replay

end MessageCatalog
