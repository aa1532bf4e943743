import Mathlib.Data.Bool.Basic
import Mathlib.Data.List.Forall2
import MessageCatalog.Proofs.Replay

/-!
# Where the text of content is cut

Whether a brace opens an expansion is decided by the text behind it, of which only that of its own
step is looked at. So texts that are put together can open an expansion that they did not open one
by one, and never the other way round. What is replayed is the same exactly when the same
placeholders stand inside expansions; it is so when no cut goes through the start of an expansion.
-/

namespace MessageCatalog

namespace IcuExpansion

/-- More open braces stay more. -/
lemma depthAfter_mono {depth depth' : Nat} (h : depth ≤ depth') (text : List Char) :
    depthAfter depth text ≤ depthAfter depth' text := by
  induction text generalizing depth depth' with
  | nil => exact h
  | cons c text ih =>
    rw [depthAfter, depthAfter]
    split
    case isTrue =>
      apply ih
      by_cases opening : opens text = true
      · simp only [opening, Bool.or_true, if_true]
        omega
      · simp only [opening, Bool.or_false, decide_eq_true_eq]
        split <;> split <;> omega
    case isFalse =>
      split
      case isTrue => exact ih (Nat.sub_le_sub_right h 1)
      case isFalse => exact ih h

/-- Text that is put together opens whatever it opens in pieces. -/
lemma depthAfter_append_le (depth : Nat) (front rest : List Char) :
    depthAfter (depthAfter depth front) rest ≤ depthAfter depth (front ++ rest) := by
  induction front generalizing depth with
  | nil => exact Nat.le_refl _
  | cons c front ih =>
    rw [List.cons_append, depthAfter, depthAfter]
    split
    case isTrue =>
      refine Nat.le_trans (ih _) (depthAfter_mono ?_ _)
      by_cases opening : opens front = true
      · simp only [opening, opens_append opening rest, Bool.or_true, if_true, Nat.le_refl]
      · simp only [opening, Bool.or_false, decide_eq_true_eq, Bool.or_eq_true]
        split <;> split <;> omega
    case isFalse =>
      split
      case isTrue => exact ih _
      case isFalse => exact ih _

/-- Whether each brace of a text that opens an expansion with `ahead` behind the text does so
without. -/
def OpensAlone (ahead : List Char) : List Char → Prop
  | [] => True
  | c :: text =>
    (c = '{' → opens (text ++ ahead) = true → opens text = true) ∧ OpensAlone ahead text

instance decidableOpensAlone (ahead : List Char) :
    (text : List Char) → Decidable (OpensAlone ahead text)
  | [] => .isTrue trivial
  | _ :: text =>
    have := decidableOpensAlone ahead text
    inferInstanceAs (Decidable (_ ∧ _))

namespace OpensAlone

variable {front rest ahead : List Char}

/-- When the braces of two texts open alone, so do those of one text behind the other. -/
lemma append (h : OpensAlone (rest ++ ahead) front) (h' : OpensAlone ahead rest) :
    OpensAlone ahead (front ++ rest) := by
  induction front with
  | nil => exact h'
  | cons c front ih =>
    rw [List.cons_append, OpensAlone, List.append_assoc]
    refine ⟨fun brace opening => ?_, ih h.2⟩
    exact opens_append (h.1 brace opening) rest

/-- Braces that open alone in front of two texts do so in front of the first of them. -/
lemma of_append (h : OpensAlone (rest ++ ahead) front) : OpensAlone rest front := by
  induction front with
  | nil => trivial
  | cons c front ih =>
    refine ⟨fun brace opening => h.1 brace ?_, ih h.2⟩
    rw [← List.append_assoc]
    exact opens_append opening ahead

end OpensAlone

/-- Text can be cut where no brace before the cut opens an expansion only with what is behind it. -/
lemma depthAfter_append {front rest : List Char} (h : OpensAlone rest front) (depth : Nat) :
    depthAfter depth (front ++ rest) = depthAfter (depthAfter depth front) rest := by
  induction front generalizing depth with
  | nil => rfl
  | cons c front ih =>
    rw [List.cons_append, depthAfter, depthAfter]
    split
    case isTrue brace =>
      have same : opens (front ++ rest) = opens front :=
        Bool.eq_iff_iff.2 ⟨h.1 brace, fun opening => opens_append opening rest⟩
      rw [same, ih h.2]
    case isFalse =>
      split
      case isTrue => exact ih h.2 _
      case isFalse => exact ih h.2 _

end IcuExpansion

open IcuExpansion (depthAfter OpensAlone)

namespace Replay

/-! ## Coarser steps -/

/-- The same steps, with some texts that follow each other put together. -/
inductive Coarser : (steps coarser : List Step) → Prop
  | nil : Coarser [] []
  | cons (step : Step) {steps coarser : List Step} :
    Coarser steps coarser →
    Coarser (step :: steps) (step :: coarser)
  | join (front rest : String) {steps coarser : List Step} :
    Coarser (.text (front ++ rest) :: steps) coarser →
    Coarser (.text front :: .text rest :: steps) coarser

namespace Coarser

variable {steps coarser later coarser' : List Step}

/-- Each sequence of steps is a coarser form of itself. -/
lemma refl (steps : List Step) : Coarser steps steps := by
  induction steps with
  | nil => exact .nil
  | cons step steps ih => exact .cons step ih

/-- Coarser forms are put together like the steps themselves. -/
lemma append (h : Coarser steps coarser) (h' : Coarser later coarser') :
    Coarser (steps ++ later) (coarser ++ coarser') := by
  induction h with
  | nil => exact h'
  | cons step _ ih => exact .cons step ih
  | join front rest _ ih => exact .join front rest ih

/-- A text may be put in front of the first one. -/
lemma text_append (content : String) {first first' : String}
    (h : Coarser (.text first :: steps) (.text first' :: coarser)) :
    Coarser (.text (content ++ first) :: steps) (.text (content ++ first') :: coarser) := by
  generalize e : Step.text first :: steps = all at h
  generalize e' : Step.text first' :: coarser = all' at h
  induction h generalizing first steps with
  | nil => cases e
  | cons step h _ =>
    cases e
    cases e'
    exact .cons _ h
  | join front rest _ ih =>
    cases e
    refine .join _ _ ?_
    rw [String.append_assoc]
    exact ih rfl e'

/-- A text may be put together with the first one of what is coarser. -/
lemma join_text (content : String) {first : String} (h : Coarser steps (.text first :: coarser)) :
    Coarser (.text content :: steps) (.text (content ++ first) :: coarser) := by
  cases h with
  | cons _ h => exact .join _ _ (.cons _ h)
  | join front rest h => exact .join _ _ (text_append content (.join front rest h))

end Coarser

/-! ## Inside and outside -/

/-- For each placeholder of steps, and for their end, whether it stands inside an expansion, when so
many braces are open before them. -/
def insides (depth : Nat) : List Step → List Bool
  | [] => [decide (0 < depth)]
  | .text content :: rest => insides (depthAfter depth content.toList) rest
  | .placeholder _ :: rest => decide (0 < depth) :: insides depth rest

/-- Whether steps end inside an expansion. -/
def endsInside (steps : List Step) : Bool := (insides 0 steps).getLastD false

/-- There is always an entry, the one for the end. -/
lemma insides_ne_nil (depth : Nat) (steps : List Step) : insides depth steps ≠ [] := by
  induction steps generalizing depth with
  | nil => exact List.cons_ne_nil _ _
  | cons step steps ih =>
    cases step with
    | text content => exact ih _
    | placeholder name => exact List.cons_ne_nil _ _

/-- Whether a replay ends inside an expansion is the entry for the end. -/
lemma inExpansion_run (r : Replay) (steps : List Step) :
    (r.run steps).inExpansion = (insides r.depth steps).getLastD false := by
  induction steps generalizing r with
  | nil => rfl
  | cons step steps ih =>
    rw [run, List.foldl_cons, ← run, ih]
    cases step with
    | text content => rfl
    | placeholder name =>
      have depth : (r.step (.placeholder name)).depth = r.depth := by
        rw [step]
        split <;> rfl
      obtain ⟨first, rest, e⟩ := List.exists_cons_of_ne_nil (insides_ne_nil r.depth steps)
      rw [depth, insides, e]
      rfl

/-- Steps end inside an expansion when the replay of them does. -/
lemma endsInside_eq (steps : List Step) :
    endsInside steps = (({} : Replay).run steps).inExpansion :=
  (inExpansion_run {} steps).symm

/-- The placeholders outside expansions are the ones that get a name, and the end is one place
more. -/
lemma length_placeholderNames_run (r : Replay) (steps : List Step) :
    (r.run steps).placeholderNames.length + (if (r.run steps).inExpansion then 0 else 1) =
      r.placeholderNames.length + (insides r.depth steps).count false := by
  induction steps generalizing r with
  | nil =>
    rw [run, List.foldl_nil, insides, inExpansion]
    cases decide (0 < r.depth) <;> rfl
  | cons s steps ih =>
    rw [run, List.foldl_cons, ← run, ih]
    cases s with
    | text content => rfl
    | placeholder name =>
      rw [step, insides, inExpansion]
      cases decide (0 < r.depth) with
      | true => rw [if_pos rfl, List.count_cons_of_ne (by decide)]
      | false =>
        rw [if_neg (by decide), List.length_append, List.length_singleton, List.count_cons_self]
        exact Nat.add_right_comm ..

/-! ## Told what is inside -/

/-- The translation of steps, told for each placeholder whether it stands inside an expansion. -/
def told (parts names : List String) (current : String) : List Step → List Bool → Translation
  | .text content :: rest, statuses => told parts names (current ++ content) rest statuses
  | .placeholder name :: rest, true :: statuses =>
    told parts names (current ++ "\x7b" ++ normalizeName name ++ "\x7d") rest statuses
  | .placeholder name :: rest, false :: statuses =>
    told (parts ++ [current]) (names ++ [normalizeName name]) "" rest statuses
  | _, _ => .ofParts (parts ++ [current]) names

/-- All that the braces of steps decide is which placeholders stand inside expansions. -/
lemma finish_run (r : Replay) (steps : List Step) :
    (r.run steps).finish =
      told r.parts r.placeholderNames r.current steps (insides r.depth steps) := by
  induction steps generalizing r with
  | nil => rfl
  | cons s steps ih =>
    rw [run, List.foldl_cons, ← run, ih]
    cases s with
    | text content => rfl
    | placeholder name =>
      rw [step, insides, inExpansion]
      cases decide (0 < r.depth) <;> rfl

/-- Where texts are cut says nothing to one that is told what is inside. -/
lemma told_eq_of_coarser {steps coarser : List Step} (h : Coarser steps coarser)
    (parts names : List String) (current : String) (statuses : List Bool) :
    told parts names current steps statuses = told parts names current coarser statuses := by
  induction h generalizing parts names current statuses with
  | nil => rfl
  | cons s _ ih =>
    cases s with
    | text content => exact ih ..
    | placeholder name =>
      match statuses with
      | [] => rfl
      | true :: _ => exact ih ..
      | false :: _ => exact ih ..
  | join front rest _ ih =>
    rw [← ih, told, told, told, String.append_assoc]

/-! ## What cutting can change -/

/-- At a greater depth one is inside an expansion if one was before. -/
lemma inside_le {depth depth' : Nat} (more : depth ≤ depth') :
    decide (0 < depth) ≤ decide (0 < depth') := by
  rw [Bool.le_iff_imp, decide_eq_true_eq, decide_eq_true_eq]
  exact fun some => Nat.lt_of_lt_of_le some more

/-- With more open braces, whatever was inside an expansion still is. -/
lemma insides_mono {depth depth' : Nat} (more : depth ≤ depth') (steps : List Step) :
    List.Forall₂ (· ≤ ·) (insides depth steps) (insides depth' steps) := by
  induction steps generalizing depth depth' with
  | nil => exact .cons (inside_le more) .nil
  | cons s steps ih =>
    cases s with
    | text content => exact ih (IcuExpansion.depthAfter_mono more _)
    | placeholder name => exact .cons (inside_le more) (ih more)

/-- The order of lists entry by entry is transitive. -/
lemma forall₂_le_trans {xs ys zs : List Bool} (h : List.Forall₂ (· ≤ ·) xs ys)
    (h' : List.Forall₂ (· ≤ ·) ys zs) : List.Forall₂ (· ≤ ·) xs zs := by
  induction h generalizing zs with
  | nil => exact h'
  | cons le _ ih =>
    cases h' with
    | cons le' rest => exact .cons (le_trans le le') (ih rest)

/-- Whatever is inside an expansion stays inside when texts are put together. -/
theorem insides_le_of_coarser {steps coarser : List Step} (h : Coarser steps coarser)
    (depth : Nat) : List.Forall₂ (· ≤ ·) (insides depth steps) (insides depth coarser) := by
  induction h generalizing depth with
  | nil => exact List.forall₂_refl _
  | cons s _ ih =>
    cases s with
    | text content => exact ih _
    | placeholder name => exact .cons le_rfl (ih _)
  | join front rest _ ih =>
    -- Together the two texts leave at least as many braces open as one after the other.
    have together := IcuExpansion.depthAfter_append_le depth front.toList rest.toList
    rw [← String.toList_append] at together
    exact forall₂_le_trans (insides_mono together _) (ih depth)

/-- Where the entries are at least as high, there are at most as many low ones. -/
lemma count_false_le {xs ys : List Bool} (h : List.Forall₂ (· ≤ ·) xs ys) :
    ys.count false ≤ xs.count false := by
  induction h with
  | nil => exact Nat.le_refl _
  | @cons x y _ _ le _ ih =>
    rw [List.count_cons, List.count_cons]
    match x, y, le with
    | false, false, _ => exact Nat.succ_le_succ ih
    | true, true, _ => exact ih
    | false, true, _ => exact Nat.le_succ_of_le ih

/-- When as much is outside as before, nothing got inside. -/
lemma eq_of_count_false {xs ys : List Bool} (h : List.Forall₂ (· ≤ ·) xs ys)
    (count : xs.count false = ys.count false) : xs = ys := by
  induction h with
  | nil => rfl
  | @cons x y xs ys le rest ih =>
    have fewer := count_false_le rest
    match x, y, le with
    | false, false, _ =>
      rw [List.count_cons_self, List.count_cons_self] at count
      rw [ih (Nat.succ.inj count)]
    | true, true, _ => rw [ih count]
    | false, true, _ =>
      rw [List.count_cons_self, List.count_cons_of_ne (by decide)] at count
      omega

/-- The translation that steps are, unless they end inside an expansion. -/
def outcome (steps : List Step) : Option Translation :=
  let r := ({} : Replay).run steps
  if r.inExpansion then none else some r.finish

/-- Steps that end inside an expansion have no outcome. -/
lemma outcome_of_endsInside {steps : List Step} (h : endsInside steps = true) :
    outcome steps = none := by
  rw [outcome, ← endsInside_eq, if_pos h]

/-- Steps that end outside of expansions have the outcome of their replay. -/
lemma outcome_of_not_endsInside {steps : List Step} (h : ¬endsInside steps = true) :
    outcome steps = some (({} : Replay).run steps).finish := by
  rw [outcome, ← endsInside_eq, if_neg h]

/-- What is read has a name for each placeholder outside expansions. -/
lemma length_placeholderNames_finish {steps : List Step} (h : ¬endsInside steps = true) :
    (({} : Replay).run steps).finish.placeholderNames.length + 1 =
      (insides 0 steps).count false := by
  have all := length_placeholderNames_run {} steps
  rw [← endsInside_eq, if_neg h] at all
  exact all.trans (Nat.zero_add _)

/-- Putting texts together changes nothing exactly when the same placeholders stand inside
expansions, or when the end does so in both. -/
theorem outcome_eq_iff {steps coarser : List Step} (h : Coarser steps coarser) :
    outcome steps = outcome coarser ↔
      (endsInside steps = true ∧ endsInside coarser = true) ∨
        insides 0 steps = insides 0 coarser := by
  constructor
  · intro same
    by_cases ends : endsInside steps = true <;> by_cases ends' : endsInside coarser = true
    · exact .inl ⟨ends, ends'⟩
    · rw [outcome_of_endsInside ends, outcome_of_not_endsInside ends'] at same
      cases same
    · rw [outcome_of_not_endsInside ends, outcome_of_endsInside ends'] at same
      cases same
    · rw [outcome_of_not_endsInside ends, outcome_of_not_endsInside ends'] at same
      -- A placeholder that gets inside is a name less, and none gets outside in its place.
      have names := length_placeholderNames_finish ends
      rw [Option.some.inj same, length_placeholderNames_finish ends'] at names
      exact .inr (eq_of_count_false (insides_le_of_coarser h 0) names.symm)
  · rintro (⟨ends, ends'⟩ | same)
    · rw [outcome_of_endsInside ends, outcome_of_endsInside ends']
    · have finished : (({} : Replay).run steps).finish = (({} : Replay).run coarser).finish := by
        rw [finish_run, finish_run, told_eq_of_coarser h]
        exact congrArg (told [] [] "" coarser) same
      have ends : endsInside steps = endsInside coarser := congrArg (·.getLastD false) same
      rw [outcome, outcome, ← endsInside_eq, ← endsInside_eq, ends, finished]

/-! ## Cuts that change nothing -/

/-- The text at the front of steps. -/
def textAhead : List Step → List Char
  | .text content :: rest => content.toList ++ textAhead rest
  | _ => []

/-- Whether no cut goes through the start of an expansion: a brace that opens one with all the text
behind it opens it with the text of its own step. -/
def StartsWhole : List Step → Prop
  | [] => True
  | .placeholder _ :: rest => StartsWhole rest
  | .text content :: rest => OpensAlone (textAhead rest) content.toList ∧ StartsWhole rest

instance decidableStartsWhole : (steps : List Step) → Decidable (StartsWhole steps)
  | [] => .isTrue trivial
  | .placeholder _ :: rest => decidableStartsWhole rest
  | .text _ :: rest =>
    have := decidableStartsWhole rest
    inferInstanceAs (Decidable (_ ∧ _))

/-- Where no cut goes through the start of an expansion, putting texts together changes nothing. -/
theorem insides_eq_of_startsWhole {steps coarser : List Step} (h : Coarser steps coarser)
    (whole : StartsWhole steps) (depth : Nat) : insides depth steps = insides depth coarser := by
  induction h generalizing depth with
  | nil => rfl
  | cons s _ ih =>
    cases s with
    | text content => exact ih whole.2 _
    | placeholder name => exact congrArg (decide (0 < depth) :: ·) (ih whole _)
  | @join front rest steps coarser _ ih =>
    obtain ⟨first, second, later⟩ := whole
    have joined : StartsWhole (.text (front ++ rest) :: steps) := by
      refine ⟨?_, later⟩
      rw [String.toList_append]
      exact first.append second
    rw [← ih joined, insides, insides, insides, String.toList_append,
      IcuExpansion.depthAfter_append first.of_append]

end Replay

end MessageCatalog
