import Mathlib.Data.List.Nodup
import MessageCatalog.Proofs.Identity

/-!
# Names of placeholders

A placeholder has the name that its block gives, or else one by its place. Names by place are all
different, for they count the places. A given name is free text: it may be given twice, and it may
be the one that another placeholder has by its place. In no other way do two placeholders of a
message come to share a name.
-/

namespace MessageCatalog

/-! ## Names by place -/

/-- Different numbers have different digits. -/
lemma toString_inj {m n : Nat} (h : toString m = toString n) : m = n := by
  rw [Nat.toString_eq_repr, Nat.toString_eq_repr, Nat.repr_eq_ofList_toDigits,
    Nat.repr_eq_ofList_toDigits, String.ofList_inj] at h
  -- The digits of a number are read as that number again.
  have read := congrArg (Nat.ofDigitChars 10 · 0) h
  simpa only [Nat.ofDigitChars_toDigits (b := 10) (by decide) (by decide)] using read

/-- The name without a number differs from all those with one. -/
lemma Placeholder.ne_positionalName (n : Nat) : "PH" ≠ "PH_" ++ toString n := by
  intro same
  have chars := congrArg String.toList same
  simp at chars

/-- Placeholders at different places have different names by their places. -/
lemma Placeholder.positionalName_inj {i j : Nat} (h : positionalName i = positionalName j) :
    i = j := by
  rw [positionalName, positionalName] at h
  split at h
  case isTrue first =>
    split at h
    case isTrue first' => rw [first, first']
    case isFalse => exact absurd h (ne_positionalName _)
  case isFalse later =>
    split at h
    case isTrue => exact absurd h.symm (ne_positionalName _)
    case isFalse later' =>
      have count := toString_inj ((String.append_right_inj _).1 h)
      omega

/-! ## Names of a message -/

namespace Template

/-- The name that the block behind placeholder `index` gives to it. There is none when that block
is missing, and when the template has no such placeholder. -/
def givenName? (t : Template) (index : Nat) : Option String :=
  if index + 1 < t.cooked.length then
    (PlaceholderPart.parse (t.part (index + 1)).1 (t.part (index + 1)).2).toOption.bind
      PlaceholderPart.name
  else none

/-- Whether a template has placeholder `index` and leaves its name to its place. -/
def IsUnnamed (t : Template) (index : Nat) : Prop :=
  index + 1 < t.cooked.length ∧ t.givenName? index = none

/-- No name is given to two placeholders. -/
def GivenApart (t : Template) : Prop :=
  ∀ i j name, t.givenName? i = some name → t.givenName? j = some name → i = j

/-- No name is given to a placeholder that another one has by its place. -/
def SparesPlaces (t : Template) : Prop :=
  ∀ i j, t.IsUnnamed j → t.givenName? i ≠ some (Placeholder.positionalName (j + 1))

/-- The name of placeholder `index`. -/
def placeholderName (t : Template) (index : Nat) : String :=
  (t.givenName? index).getD (Placeholder.positionalName (index + 1))

variable {t : Template}

/-- A placeholder with a name of its own has that name. -/
lemma placeholderName_of_given {i : Nat} {name : String} (h : t.givenName? i = some name) :
    t.placeholderName i = name := by
  rw [placeholderName, h]
  rfl

/-- A placeholder without a name is named by its position. -/
lemma placeholderName_of_none {i : Nat} (h : t.givenName? i = none) :
    t.placeholderName i = Placeholder.positionalName (i + 1) := by
  rw [placeholderName, h]
  rfl

/-- Two placeholders that are left to their places do not share a name. -/
lemma eq_of_unnamed {i j : Nat} (hi : t.givenName? i = none) (hj : t.givenName? j = none)
    (same : t.placeholderName i = t.placeholderName j) : i = j := by
  rw [placeholderName_of_none hi, placeholderName_of_none hj] at same
  exact Nat.succ.inj (Placeholder.positionalName_inj same)

/-- Only placeholders that are there have names. -/
lemma lt_of_givenName? {i : Nat} {name : String} (h : t.givenName? i = some name) :
    i + 1 < t.cooked.length := by
  by_contra beyond
  rw [givenName?, if_neg beyond] at h
  cases h

/-- The placeholders of a template have different names when the given ones are different and spare
those by place, and only then. -/
lemma placeholderName_inj_iff :
    (∀ i, i + 1 < t.cooked.length → ∀ j, j + 1 < t.cooked.length →
      t.placeholderName i = t.placeholderName j → i = j) ↔ t.GivenApart ∧ t.SparesPlaces := by
  constructor
  · intro apart
    refine ⟨fun i j name hi hj => ?_, fun i j unnamed given => ?_⟩
    · apply apart i (lt_of_givenName? hi) j (lt_of_givenName? hj)
      rw [placeholderName_of_given hi, placeholderName_of_given hj]
    · have same : i = j := by
        apply apart i (lt_of_givenName? given) j unnamed.1
        rw [placeholderName_of_given given, placeholderName_of_none unnamed.2]
      rw [same, unnamed.2] at given
      cases given
  · rintro ⟨apart, spared⟩ i hi j hj same
    cases ei : t.givenName? i with
    | some name =>
      cases ej : t.givenName? j with
      | some name' =>
        rw [placeholderName_of_given ei, placeholderName_of_given ej] at same
        subst same
        exact apart i j name ei ej
      | none =>
        rw [placeholderName_of_given ei, placeholderName_of_none ej] at same
        subst same
        exact absurd ei (spared i j ⟨hj, ej⟩)
    | none =>
      cases ej : t.givenName? j with
      | some name' =>
        rw [placeholderName_of_none ei, placeholderName_of_given ej] at same
        subst same
        exact absurd ej (spared j i ⟨hi, ei⟩)
      | none => exact eq_of_unnamed ei ej same

end Template

namespace Message

/-- The names of a message are those of the placeholders of its template in order. -/
lemma placeholderNames_eq {t : Template} {m : Message} (h : ofTemplate t = .ok m) :
    m.placeholderNames = (List.range (t.cooked.length - 1)).map t.placeholderName := by
  rw [ofTemplate_eq] at h
  obtain ⟨block, -, h⟩ := bind_eq_ok h
  obtain ⟨later, read, h⟩ := bind_eq_ok h
  cases h
  apply List.ext_getElem?
  intro i
  rw [assemble, List.getElem?_map, List.getElem?_map]
  by_cases inside : i < t.cooked.length - 1
  · obtain ⟨p, part, there⟩ := getElem?_of_laterParts read inside
    rw [Nat.add_comm 1 i] at part there
    have given : t.givenName? i = p.name := by
      rw [Template.givenName?, if_pos (by omega), part]
      rfl
    rw [there, List.getElem?_range inside, Option.map_some, Option.map_some,
      Template.placeholderName, given]
  · have length := length_of_laterParts read
    rw [List.length_map, List.length_range'] at length
    rw [List.getElem?_eq_none (by omega), List.getElem?_eq_none (by simpa using inside)]
    rfl

/-- Every placeholder of a message has the name that its block gives, or else that of its place.
Two of them that are left to their places have different names; and all names of a message are
different exactly when no two blocks give one name and no block gives a name that another
placeholder has by its place. -/
theorem names_distinct_iff {t : Template} {m : Message} (h : ofTemplate t = .ok m) :
    m.placeholderNames.length = t.cooked.length - 1 ∧
      (∀ i < m.placeholderNames.length, m.placeholderNames[i]? =
        some ((t.givenName? i).getD (Placeholder.positionalName (i + 1)))) ∧
      (∀ i j, t.IsUnnamed i → t.IsUnnamed j → i ≠ j →
        m.placeholderNames[i]? ≠ m.placeholderNames[j]?) ∧
      (m.placeholderNames.Nodup ↔ t.GivenApart ∧ t.SparesPlaces) := by
  have length : m.placeholderNames.length = t.cooked.length - 1 := by
    rw [placeholderNames_eq h, List.length_map, List.length_range]
  have named {i : Nat} (hi : i < t.cooked.length - 1) :
      m.placeholderNames[i]? = some (t.placeholderName i) := by
    rw [placeholderNames_eq h, List.getElem?_map, List.getElem?_range hi]
    rfl
  refine ⟨length, fun i hi => named (length ▸ hi), ?_, ?_⟩
  · intro i j unnamed unnamed' ne same
    rw [named (Nat.lt_sub_of_add_lt unnamed.1), named (Nat.lt_sub_of_add_lt unnamed'.1),
      Option.some.injEq] at same
    exact ne (Template.eq_of_unnamed unnamed.2 unnamed'.2 same)
  · rw [placeholderNames_eq h, List.nodup_map_iff_inj_on List.nodup_range,
      ← Template.placeholderName_inj_iff]
    simp only [List.mem_range, Nat.lt_sub_iff_add_lt]

/-- A template with a name given between two placeholders that are left to their places. -/
def mixedNames : Template := .ofCooked ["Hi ", ", ", ":PH_3: and ", "!"]

/-- The name given to the second placeholder is that of none that is left to its place. -/
theorem names_distinct_mixedNames :
    ∃ m, ofTemplate mixedNames = .ok m ∧ m.placeholderNames = ["PH", "PH_3", "PH_2"] ∧
      m.placeholderNames.Nodup ∧ mixedNames.GivenApart ∧ mixedNames.SparesPlaces := by
  let later := [("PH", ", "), ("PH_3", " and "), ("PH_2", "!")]
  let m := assemble ⟨"Hi ", none, none, none, []⟩ later []
  have read : ofTemplate mixedNames = .ok m := by decide +kernel
  have nodup : m.placeholderNames.Nodup := by decide
  obtain ⟨-, -, -, distinct⟩ := names_distinct_iff read
  exact ⟨m, read, rfl, nodup, distinct.1 nodup⟩

/-- A template that gives to its second placeholder the name that the first has by its place. -/
def takenName : Template := .ofCooked ["Hi ", " and ", ":PH:!"]

/-- Given names may be different, and yet two placeholders share a name. -/
theorem not_nodup_names_takenName :
    takenName.GivenApart ∧
      ∃ m, ofTemplate takenName = .ok m ∧ m.placeholderNames = ["PH", "PH"] ∧
        ¬ m.placeholderNames.Nodup := by
  have second {i : Nat} {name : String} (h : takenName.givenName? i = some name) : i = 1 := by
    have bound : i + 1 < 3 := Template.lt_of_givenName? h
    match i with
    | 0 => cases h
    | 1 => rfl
    | i + 2 => omega
  refine ⟨fun i j name hi hj => (second hi).trans (second hj).symm, ?_⟩
  let m := assemble ⟨"Hi ", none, none, none, []⟩ [("PH", " and "), ("PH", "!")] []
  exact ⟨m, by decide +kernel, rfl, by decide⟩

end Message

end MessageCatalog
