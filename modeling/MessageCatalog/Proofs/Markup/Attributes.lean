import MessageCatalog.Markup.Writer
import MessageCatalog.Proofs.Markup.Mixed

/-!
# Attributes from writing to reading

A writer leaves out attributes without a value and attributes whose value is empty. The others are
read with the value they were given, as long as that has no white space but blanks.
-/

namespace MessageCatalog.Markup

/-! ## Written attributes -/

/-- The attribute that is written: none without a value or with an empty one. -/
def presentAttribute : String × Option String → List (String × String)
  | (_, none) => []
  | (name, some value) => if value.isEmpty then [] else [(name, value)]

/-- The attributes that are written. -/
def presentAttributes (attributes : List (String × Option String)) : List (String × String) :=
  attributes.flatMap presentAttribute

/-- The tag that a writer writes for a name and attributes. -/
def WrittenTag.of (name : String) (attributes : List (String × Option String)) : WrittenTag :=
  ⟨name, presentAttributes attributes⟩

/-- The value that a name is given, unless that is empty. -/
def givenValue (attributes : List (String × Option String)) (name : String) : Option String :=
  (attributes.lookup name).join.bind Text.unlessEmpty

/-- An attribute is written when it has a value that is not empty. -/
lemma mem_presentAttribute {a : String × String} {given : String × Option String} :
    a ∈ presentAttribute given ↔ given = (a.1, some a.2) ∧ a.2 ≠ "" := by
  obtain ⟨name, value⟩ := given
  cases value with
  | none => simp [presentAttribute]
  | some value =>
    rw [presentAttribute]
    split
    case isTrue empty =>
      have hv : value = "" := String.isEmpty_iff.1 empty
      constructor
      · exact nofun
      · rintro ⟨e, hne⟩
        cases e
        exact absurd hv hne
    case isFalse notEmpty =>
      have hv : value ≠ "" := fun e => notEmpty (String.isEmpty_iff.2 e)
      constructor
      · intro m
        cases List.mem_singleton.1 m
        exact ⟨rfl, hv⟩
      · rintro ⟨e, -⟩
        cases e
        exact List.mem_singleton.2 rfl

/-- The attributes that are written are those given with a value that is not empty. -/
lemma mem_presentAttributes {a : String × String} {attributes : List (String × Option String)} :
    a ∈ presentAttributes attributes ↔ (a.1, some a.2) ∈ attributes ∧ a.2 ≠ "" := by
  rw [presentAttributes, List.mem_flatMap]
  constructor
  · rintro ⟨given, m, ha⟩
    obtain ⟨rfl, hne⟩ := mem_presentAttribute.1 ha
    exact ⟨m, hne⟩
  · rintro ⟨m, hne⟩
    exact ⟨_, m, mem_presentAttribute.2 ⟨rfl, hne⟩⟩

/-- Leaving attributes out keeps the names in order. -/
lemma sublist_presentAttributes (attributes : List (String × Option String)) :
    ((presentAttributes attributes).map Prod.fst).Sublist (attributes.map Prod.fst) := by
  induction attributes with
  | nil => exact .slnil
  | cons given rest ih =>
    obtain ⟨name, value⟩ := given
    rw [presentAttributes, List.flatMap_cons, List.map_append, List.map_cons]
    cases value with
    | none => exact ih.cons name
    | some value =>
      rw [presentAttribute]
      split
      · exact ih.cons name
      · exact ih.cons_cons name

/-! ## Read attributes -/

/-- An attribute without a prefix is found by its name. -/
lemma attribute?_toTag (t : WrittenTag) {name : String} (hn : name ≠ "xmlns") (start stop : Nat) :
    (t.toTag start stop).attribute? name =
      (t.attributes.find? (·.1 = name)).map fun a => (readAttribute a).value := by
  rw [Tag.attribute?, WrittenTag.toTag, WrittenTag.readAttributes]
  induction t.attributes with
  | nil => rfl
  | cons a rest ih =>
    by_cases ha : a.1 = name
    · have notDeclaration : isDeclaration a = false := decide_eq_false (ha ▸ hn)
      rw [List.filter_cons, notDeclaration, Bool.not_false, if_pos rfl, List.map_cons,
        List.find?_cons_of_pos (by simp [readAttribute, ha]),
        List.find?_cons_of_pos (by simp [ha])]
      rfl
    · rw [List.find?_cons_of_neg (by simp [ha]), ← ih, List.filter_cons]
      split
      · rw [List.map_cons, List.find?_cons_of_neg (by simp [readAttribute, ha])]
      · rfl

/-- Looking for an attribute among those that are written finds what is given for it. -/
lemma find?_presentAttributes {attributes : List (String × Option String)}
    (h : (attributes.map Prod.fst).Nodup) (name : String) :
    (presentAttributes attributes).find? (·.1 = name) =
      (givenValue attributes name).map (name, ·) := by
  induction attributes with
  | nil => rfl
  | cons given rest ih =>
    obtain ⟨key, value⟩ := given
    rw [List.map_cons, List.nodup_cons] at h
    have front : presentAttributes ((key, value) :: rest) =
        presentAttribute (key, value) ++ presentAttributes rest := rfl
    rw [front, List.find?_append, givenValue, List.lookup_cons]
    by_cases hk : name = key
    · have noMore : (presentAttributes rest).find? (·.1 = name) = none := by
        rw [List.find?_eq_none]
        intro a m e
        have hkey : a.1 ∈ rest.map Prod.fst :=
          (sublist_presentAttributes rest).mem (List.mem_map_of_mem m)
        exact h.1 (hk ▸ of_decide_eq_true e ▸ hkey)
      rw [noMore, Option.or_none, beq_iff_eq.2 hk, hk]
      cases value with
      | none => rfl
      | some value =>
        rw [presentAttribute]
        cases e : value.isEmpty <;> simp [Text.unlessEmpty, e]
    · have notHere : (presentAttribute (key, value)).find? (·.1 = name) = none := by
        rw [List.find?_eq_none]
        intro a m e
        obtain ⟨same, -⟩ := mem_presentAttribute.1 m
        cases same
        exact hk (of_decide_eq_true e).symm
      rw [notHere, Option.none_or, ih h.2, beq_eq_false_iff_ne.2 hk]
      rfl

/-- Whether a text is read from an attribute as it is written: its only white space are blanks. -/
def isLineText (text : String) : Bool :=
  text.toList.all fun c => isXmlChar c && c ≠ '\t' && c ≠ '\n' && c ≠ '\r'

/-- A line of text has no tabs and no ends of lines, and only characters that markup can hold. -/
lemma isLineText_iff {text : String} :
    isLineText text = true ↔
      ∀ c ∈ text.toList, isXmlChar c = true ∧ c ≠ '\t' ∧ c ≠ '\n' ∧ c ≠ '\r' := by
  simp [isLineText, and_assoc]

/-- A line of text is text that markup can hold. -/
lemma isXmlText_of_isLineText {text : String} (h : isLineText text = true) :
    isXmlText text = true :=
  List.all_eq_true.2 fun c m => (isLineText_iff.1 h c m).1

/-- On a line there is nothing to normalize. -/
lemma normalizedValue_of_line {text : List Char}
    (h : ∀ c ∈ text, c ≠ '\t' ∧ c ≠ '\n' ∧ c ≠ '\r') : normalizedValue text = text := by
  induction text with
  | nil => rfl
  | cons c text ih =>
    obtain ⟨htab, hnewline, hcr⟩ := h c List.mem_cons_self
    have next := ih fun d m => h d (List.mem_cons_of_mem c m)
    have same : (if isSpace c then ' ' else c) = c := by
      by_cases hc : c = ' '
      · rw [hc, ite_self]
      · have notSpace : isSpace c = false := by simp [isSpace, hc, htab, hnewline, hcr]
        rw [notSpace, if_neg Bool.false_ne_true]
    rw [normalizedValue, next, same]
    exact fun _ e _ => hcr e

/-- An attribute is read with the value that its name was given. -/
theorem attribute?_of {attributes : List (String × Option String)}
    (h : (attributes.map Prod.fst).Nodup) {name : String} (hn : name ≠ "xmlns")
    (hv : ∀ value ∈ givenValue attributes name, isLineText value = true)
    (element : String) (start stop : Nat) :
    ((WrittenTag.of element attributes).toTag start stop).attribute? name =
      givenValue attributes name := by
  rw [attribute?_toTag _ hn, WrittenTag.of, find?_presentAttributes h, Option.map_map]
  cases e : givenValue attributes name with
  | none => rfl
  | some value =>
    have line := normalizedValue_of_line fun c m => (isLineText_iff.1 (hv value e) c m).2
    rw [Option.map_some, Function.comp_apply, readAttribute, line, String.ofList_toList]

/-- An attribute that is given on a line is read as it was given. -/
lemma attribute?_of_some {attributes : List (String × Option String)}
    (h : (attributes.map Prod.fst).Nodup) {name value : String} (hn : name ≠ "xmlns")
    (hv : isLineText value = true) (hgiven : givenValue attributes name = some value)
    (element : String) (start stop : Nat) :
    ((WrittenTag.of element attributes).toTag start stop).attribute? name = some value := by
  refine (attribute?_of h hn (fun v m => ?_) element start stop).trans hgiven
  rw [hgiven] at m
  cases m
  exact hv

/-! ## Soundness -/

/-- A tag is sound when its names are, no two attributes share one, and the values are text; the
default namespace must not be a reserved one. -/
lemma WrittenTag.sound_of {name : String} {attributes : List (String × Option String)}
    (hname : isPlainName name = true) (h : (attributes.map Prod.fst).Nodup)
    (hnames : ∀ key ∈ attributes.map Prod.fst, isPlainName key = true)
    (hvalues : ∀ value ∈ attributes.filterMap Prod.snd, isXmlText value = true)
    (hreserved : ∀ value, ("xmlns", some value) ∈ attributes →
      (readAttribute ("xmlns", value)).value ≠ Namespace.xml ∧
        (readAttribute ("xmlns", value)).value ≠ Namespace.xmlns) :
    (WrittenTag.of name attributes).Sound := by
  have given : ∀ a ∈ (WrittenTag.of name attributes).attributes, (a.1, some a.2) ∈ attributes :=
    fun a m => (mem_presentAttributes.1 m).1
  constructor
  case name => exact hname
  case names => exact fun a m => hnames a.1 (List.mem_map_of_mem (given a m))
  case values => exact fun a m => hvalues a.2 (List.mem_filterMap.2 ⟨_, given a m, rfl⟩)
  case distinct => exact h.sublist (sublist_presentAttributes attributes)
  case notReserved =>
    intro a m hd
    obtain ⟨key, value⟩ := a
    cases of_decide_eq_true hd
    exact hreserved value (given _ m)

/-- Names that attributes of one tag may have which declare no namespace. -/
def areKeys (names : List String) : Bool :=
  decide names.Nodup && names.all fun name => isPlainName name && name ≠ "xmlns"

/-- A tag that declares no namespace is sound when its names are and the values are text. -/
lemma WrittenTag.sound_of_keys (keys : List String) {name : String}
    {attributes : List (String × Option String)} (hname : isPlainName name = true)
    (h : attributes.map Prod.fst = keys) (hkeys : areKeys keys = true)
    (hvalues : ∀ value ∈ attributes.filterMap Prod.snd, isXmlText value = true) :
    (WrittenTag.of name attributes).Sound := by
  rw [areKeys, Bool.and_eq_true, List.all_eq_true, ← h] at hkeys
  obtain ⟨hnodup, hnames⟩ := hkeys
  have plain : ∀ key ∈ attributes.map Prod.fst, isPlainName key = true ∧ key ≠ "xmlns" := by
    intro key m
    simpa using hnames key m
  refine sound_of hname (of_decide_eq_true hnodup) (fun key m => (plain key m).1) hvalues ?_
  exact fun value m => absurd rfl (plain "xmlns" (List.mem_map_of_mem m)).2

end MessageCatalog.Markup
