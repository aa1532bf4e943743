import Mathlib.Data.List.Induction
import MessageCatalog.FileFormat.Xliff2
import MessageCatalog.Proofs.FileFormat.Units
import MessageCatalog.Proofs.Loader
import MessageCatalog.Proofs.OrderedMap

/-!
# Segments that are kept and segments that are lost

In XLIFF 2.0 a segment is stored under the id of the innermost unit around it, in place of what was
stored there before. A unit is refused when something is stored under its id by then, and nothing
else is done about ids. So a file that is read has lost no segment exactly when whatever shares an
id in it would be kept apart by such a unit.
-/

namespace MessageCatalog

open Markup (Element Occurrence)

/-! ## Items and those before them -/

/-- Something holds of each item and the items before it. -/
def EachBehind {α : Type} (P : List α → α → Prop) (items : List α) : Prop :=
  ∀ before a after, items = before ++ a :: after → P before a

section

variable {α : Type} {P : List α → α → Prop} {items : List α}

/-- Of no items anything holds. -/
lemma eachBehind_nil : EachBehind P [] := by
  intro before a after h
  cases before <;> cases h

/-- What holds of each item holds of those in front and of the last one. -/
lemma eachBehind_concat_iff {last : α} :
    EachBehind P (items ++ [last]) ↔ EachBehind P items ∧ P items last := by
  constructor
  · intro h
    refine ⟨fun before a after same => ?_, h items last [] rfl⟩
    rw [same] at h
    exact h before a (after ++ [last]) (List.append_assoc _ _ _)
  · rintro ⟨front, atLast⟩ before a after same
    -- The item is the last one when nothing stands after it.
    cases after using List.reverseRecOn with
    | nil =>
      obtain ⟨rfl, h⟩ := List.append_inj' same rfl
      cases h
      exact atLast
    | append_singleton after b =>
      rw [← List.cons_append, ← List.append_assoc] at same
      exact front before a after (List.append_inj' same rfl).1

/-- Items differ pairwise when each differs from those before it. -/
lemma pairwise_iff_eachBehind {R : α → α → Prop} :
    items.Pairwise R ↔ EachBehind (fun before a => ∀ b ∈ before, R b a) items := by
  induction items using List.reverseRecOn with
  | nil => exact iff_of_true .nil eachBehind_nil
  | append_singleton items last ih =>
    rw [eachBehind_concat_iff, ← ih, List.pairwise_append]
    constructor
    · rintro ⟨front, -, across⟩
      exact ⟨front, fun b hb => across b hb last (List.mem_singleton.2 rfl)⟩
    · rintro ⟨front, across⟩
      refine ⟨front, List.pairwise_singleton _ _, fun b hb a ha => ?_⟩
      rw [List.mem_singleton.1 ha]
      exact across b hb

/-- Each item has a value that belongs to it. -/
lemma exists_mem_of_forall₂ {β : Type} {R : α → β → Prop} {values : List β}
    (h : List.Forall₂ R items values) {a : α} (there : a ∈ items) : ∃ b ∈ values, R a b := by
  induction h with
  | nil => cases there
  | cons first _ ih =>
    cases there with
    | head => exact ⟨_, List.mem_cons_self, first⟩
    | tail _ later =>
      obtain ⟨b, hb, related⟩ := ih later
      exact ⟨b, List.mem_cons_of_mem _ hb, related⟩

/-- Values of two lists are those of the first and then those of the second. -/
lemma forall₂_append_left_iff {β : Type} {R : α → β → Prop} {more : List α} {values : List β} :
    List.Forall₂ R (items ++ more) values ↔
      ∃ front rest, values = front ++ rest ∧ List.Forall₂ R items front ∧
        List.Forall₂ R more rest := by
  constructor
  · intro h
    induction items generalizing values with
    | nil => exact ⟨[], values, rfl, .nil, h⟩
    | cons a items ih =>
      cases h with
      | cons first later =>
        obtain ⟨front, rest, rfl, hfront, hrest⟩ := ih later
        exact ⟨_ :: front, rest, rfl, .cons first hfront, hrest⟩
  · rintro ⟨front, rest, rfl, hfront, hrest⟩
    exact List.rel_append hfront hrest

end

namespace FileFormat.Xliff2

/-! ## Units and segments -/

/-- The id of the innermost unit around an element. -/
def enclosingId (around : List Markup.Tag) : Option String :=
  (around.find? (·.name = "unit")).bind (·.attribute? "id")

/-- An element is a unit with this id. -/
def IsUnit (id : String) (o : Occurrence) : Prop :=
  o.name = "unit" ∧ o.tag.attribute? "id" = some id

/-- An element is a segment of the unit with this id. -/
def IsSegment (id : String) (o : Occurrence) : Prop :=
  o.name = "segment" ∧ enclosingId o.around = some id

/-- All segments of a document. -/
def allSegments (root : Element) : List Occurrence := root.descendants.filter (·.name = "segment")

/-- The element that a segment is translated by. -/
def target? (s : Element) : Option Element := (s.childrenNamed "target").head?

/-- The element that a segment was translated from. -/
def source? (s : Element) : Option Element := (s.childrenNamed "source").head?

variable (file : FileText)

/-- What is stored for a segment. -/
structure IsSegmentEntry (s : Occurrence) (entry : String × Translation × Option Translation) :
    Prop where
  id : enclosingId s.around = some entry.1
  target : (target? s.element).map (Content.read rules file) = some (.ok entry.2.1)
  source : (source? s.element).map (Content.read rules file) = entry.2.2.map .ok

/-- What has been read of a file when these entries were stored one after the other. -/
def contentsOf (entries : List (String × Translation × Option Translation)) : Contents where
  translations := .ofList (entries.map fun entry => (entry.1, entry.2.1))
  sources := .ofList (entries.filterMap fun entry => entry.2.2.map (entry.1, ·))

/-- A unit has an id under which nothing was stored for the segments before it. -/
def UnitIsNew (before : List Occurrence) (u : Occurrence) : Prop :=
  u.name = "unit" → ∃ id, IsUnit id u ∧ ∀ s ∈ before, ¬IsSegment id s

/-- What reading does at an element. -/
def step (c : Contents) (o : Occurrence) : Except ReadError Contents :=
  if o.name = "unit" then (unitId file c o.tag).map fun _ => c
  else if o.name = "segment" then readSegment file c (enclosingId o.around) o.element
  else .ok c

variable {file} {os : List Occurrence} {entries : List (String × Translation × Option Translation)}

/-! ## Steps -/

/-- The id of a unit is accepted when it is there and nothing is stored under it. -/
lemma unitId_eq_ok_iff {c : Contents} {tag : Markup.Tag} {id : String} :
    unitId file c tag = .ok id ↔
      tag.attribute? "id" = some id ∧ c.translations.contains id = false := by
  rw [unitId, FileText.requiredAttribute]
  cases tag.attribute? "id" with
  | none =>
    constructor
    · intro h
      cases h
    · intro h
      cases h.1
  | some given =>
    dsimp only [bind, Except.bind]
    cases there : c.translations.contains given with
    | true =>
      constructor
      · intro h
        cases h
      · intro h
        cases h.1
        cases there.symm.trans h.2
    | false =>
      constructor
      · intro h
        cases h
        exact ⟨rfl, there⟩
      · intro h
        cases h.1
        rfl

/-- A segment is stored when it is in a unit and can be read. -/
lemma readSegment_eq_ok_iff {c c' : Contents} {inside : Option String} {s : Element} :
    readSegment file c inside s = .ok c' ↔ ∃ id t source, inside = some id ∧
      (target? s).map (Content.read rules file) = some (.ok t) ∧
      (source? s).map (Content.read rules file) = source.map .ok ∧
      c' = {
        translations := c.translations.insert id t
        sources :=
          match source with
          | some source => c.sources.insert id source
          | none => c.sources } := by
  rw [readSegment.eq_def, ← target?, ← source?]
  cases inside with
  | none => exact iff_of_false nofun nofun
  | some id =>
    cases target? s with
    | none => exact iff_of_false nofun nofun
    | some target =>
      dsimp only [Option.map_some, bind, Except.bind, pure, Except.pure]
      cases source? s with
      | none =>
        constructor
        · intro h
          obtain ⟨t, read, h⟩ := bind_eq_ok h
          cases h
          exact ⟨id, t, none, rfl, congrArg some read, rfl, rfl⟩
        · rintro ⟨_, t, _ | _, ⟨⟩, read, ⟨⟩, rfl⟩
          rw [Option.some.inj read]
      | some source =>
        constructor
        · intro h
          -- a source is read before the target, so its error would come first
          obtain ⟨text, readSource, h⟩ := bind_eq_ok h
          obtain ⟨t, read, h⟩ := bind_eq_ok h
          cases h
          exact ⟨id, t, some text, rfl, congrArg some read, congrArg some readSource, rfl⟩
        · rintro ⟨_, t, _ | text, ⟨⟩, read, readSource, rfl⟩
          · cases readSource
          · have readSource : Content.read rules file source = .ok text :=
              Option.some.inj readSource
            dsimp only
            rw [readSource, Option.some.inj read]

/-- A further entry is stored behind or in place of the ones before it. -/
lemma contentsOf_concat (entries : List (String × Translation × Option Translation)) (id : String)
    (t : Translation) (source : Option Translation) :
    contentsOf (entries ++ [(id, t, source)]) = {
      translations := (contentsOf entries).translations.insert id t
      sources :=
        match source with
        | some source => (contentsOf entries).sources.insert id source
        | none => (contentsOf entries).sources } := by
  rw [contentsOf, List.map_append, List.filterMap_append, List.map_singleton,
    OrderedMap.ofList_concat]
  cases source with
  | none => rw [List.filterMap_cons_none rfl, List.filterMap_nil, List.append_nil]; rfl
  | some source => exact congrArg (Contents.mk _) (OrderedMap.ofList_concat _ (id, source))

/-- A segment is read when it has an entry, which is stored. -/
lemma step_segment_eq_ok_iff {o : Occurrence} (h : o.name = "segment") {c : Contents} :
    step file (contentsOf entries) o = .ok c ↔
      ∃ entry, IsSegmentEntry file o entry ∧ c = contentsOf (entries ++ [entry]) := by
  rw [step, h, if_neg (by decide), if_pos rfl, readSegment_eq_ok_iff]
  constructor
  · rintro ⟨id, t, source, inside, target, hsource, rfl⟩
    exact ⟨(id, t, source), ⟨inside, target, hsource⟩, (contentsOf_concat ..).symm⟩
  · rintro ⟨⟨id, t, source⟩, isEntry, rfl⟩
    exact ⟨id, t, source, isEntry.id, isEntry.target, isEntry.source, contentsOf_concat ..⟩

/-- There are translations under the ids of the segments that were stored. -/
lemma contains_translations_iff
    (h : List.Forall₂ (IsSegmentEntry file) (os.filter (·.name = "segment")) entries)
    {id : String} :
    (contentsOf entries).translations.contains id = true ↔ ∃ s ∈ os, IsSegment id s := by
  rw [contentsOf, OrderedMap.contains_ofList_iff, List.map_map]
  change id ∈ entries.map Prod.fst ↔ _
  rw [← List.mem_map_of_injective (Option.some_injective String),
    ← ids_of_forall₂ (h.imp fun _ _ isEntry => isEntry.id), List.mem_map]
  refine exists_congr fun s => ?_
  rw [List.mem_filter, decide_eq_true_iff, and_assoc, IsSegment]

/-- A unit is read when no segment before it was stored under its id. -/
lemma step_unit_eq_ok_iff
    (h : List.Forall₂ (IsSegmentEntry file) (os.filter (·.name = "segment")) entries)
    {o : Occurrence} (unit : o.name = "unit") {c : Contents} :
    step file (contentsOf entries) o = .ok c ↔ UnitIsNew os o ∧ c = contentsOf entries := by
  have new : ∀ id, (contentsOf entries).translations.contains id = false ↔
      ∀ s ∈ os, ¬IsSegment id s := by
    intro id
    rw [← Bool.not_eq_true, contains_translations_iff h, not_exists]
    exact forall_congr' fun s => not_and
  rw [step, if_pos unit, map_eq_ok_iff]
  constructor
  · rintro ⟨id, checked, rfl⟩
    obtain ⟨given, notThere⟩ := unitId_eq_ok_iff.1 checked
    exact ⟨fun _ => ⟨id, ⟨unit, given⟩, (new id).1 notThere⟩, rfl⟩
  · rintro ⟨isNew, rfl⟩
    obtain ⟨id, isUnit, notThere⟩ := isNew unit
    exact ⟨id, unitId_eq_ok_iff.2 ⟨isUnit.2, (new id).2 notThere⟩, rfl⟩

/-- An element is passed behind others when it is new, if it is a unit, and can be read, if it is a
segment; only a segment leaves something. -/
lemma step_eq_ok_iff
    (h : List.Forall₂ (IsSegmentEntry file) (os.filter (·.name = "segment")) entries)
    {o : Occurrence} {c : Contents} :
    step file (contentsOf entries) o = .ok c ↔ UnitIsNew os o ∧
      ∃ new, List.Forall₂ (IsSegmentEntry file) ([o].filter (·.name = "segment")) new ∧
        c = contentsOf (entries ++ new) := by
  by_cases segment : o.name = "segment"
  · have noUnit : UnitIsNew os o := fun unit => absurd (segment.symm.trans unit) (by decide)
    rw [step_segment_eq_ok_iff segment, and_iff_right noUnit,
      List.filter_cons_of_pos (by exact decide_eq_true segment), List.filter_nil]
    constructor
    · rintro ⟨entry, isEntry, rfl⟩
      exact ⟨[entry], .cons isEntry .nil, rfl⟩
    · rintro ⟨new, read, rfl⟩
      cases read with
      | cons isEntry none =>
        cases none
        exact ⟨_, isEntry, rfl⟩
  · have nothing (new : List (String × Translation × Option Translation)) :
        List.Forall₂ (IsSegmentEntry file) ([o].filter (·.name = "segment")) new ↔ new = [] := by
      rw [List.filter_cons_of_neg (by simpa using segment), List.filter_nil,
        List.forall₂_nil_left_iff]
    simp only [nothing, exists_eq_left, List.append_nil]
    by_cases unit : o.name = "unit"
    · exact step_unit_eq_ok_iff h unit
    · have noUnit : UnitIsNew os o := fun isUnit => absurd isUnit unit
      rw [step, if_neg unit, if_neg segment, and_iff_right noUnit]
      exact ⟨fun same => (Except.ok.inj same).symm, fun same => congrArg _ same.symm⟩

/-- Elements are gone through when each unit among them is new and each segment can be read; then
the segments are stored one after the other. -/
lemma foldlM_step_eq_ok_iff {c : Contents} :
    os.foldlM (step file) {} = .ok c ↔ EachBehind UnitIsNew os ∧
      ∃ entries, List.Forall₂ (IsSegmentEntry file) (os.filter (·.name = "segment")) entries ∧
        c = contentsOf entries := by
  induction os using List.reverseRecOn generalizing c with
  | nil =>
    constructor
    · intro h
      cases h
      exact ⟨eachBehind_nil, [], .nil, rfl⟩
    · rintro ⟨-, entries, none, rfl⟩
      cases none
      rfl
  | append_singleton os o ih =>
    rw [foldlM_concat_eq_ok_iff, eachBehind_concat_iff, List.filter_append]
    constructor
    · rintro ⟨c', front, last⟩
      obtain ⟨units, entries, read, rfl⟩ := ih.1 front
      obtain ⟨isNew, new, added, rfl⟩ := (step_eq_ok_iff read).1 last
      exact ⟨⟨units, isNew⟩, _, List.rel_append read added, rfl⟩
    · rintro ⟨⟨units, isNew⟩, all, read, rfl⟩
      obtain ⟨entries, new, rfl, front, added⟩ := forall₂_append_left_iff.1 read
      exact ⟨_, ih.2 ⟨units, entries, front, rfl⟩,
        (step_eq_ok_iff front).2 ⟨isNew, new, added, rfl⟩⟩

/-- The reader passes over what is inside a segment and goes through all other elements. -/
lemma walks_step : Markup.Walks "segment" (step file)
    (fun around => readNode file (enclosingId around))
    (fun around => readNodes file (enclosingId around)) where
  nil _ _ := rfl
  cons _ _ _ _ := rfl
  other _ c node h := by
    cases node with
    | element => cases h
    | _ => rfl
  passed around c tag children segment := by
    have name : Occurrence.name ⟨around, ⟨tag, children⟩⟩ = "segment" := segment
    rw [readNode, segment, if_neg (by decide), if_pos rfl, step, name, if_neg (by decide),
      if_pos rfl]
  entered around c tag children other := by
    have name : Occurrence.name ⟨around, ⟨tag, children⟩⟩ = tag.name := rfl
    have same : Occurrence.tag ⟨around, ⟨tag, children⟩⟩ = tag := rfl
    rw [readNode, step, name]
    by_cases unit : tag.name = "unit"
    · rw [if_pos unit, if_pos unit, same]
      have inside : enclosingId (tag :: around) = tag.attribute? "id" := by
        rw [enclosingId, List.find?_cons_of_pos (by exact decide_eq_true unit)]
        rfl
      cases checked : unitId file c tag with
      | error e => rfl
      | ok id =>
        rw [inside, (unitId_eq_ok_iff.1 checked).1]
        rfl
    -- only units give what is inside them an id
    · have inside : enclosingId (tag :: around) = enclosingId around := by
        rw [enclosingId, List.find?_cons_of_neg (by simpa using unit), ← enclosingId]
      rw [if_neg unit, if_neg unit, if_neg other, if_neg other, inside]
      rfl

/-- What is read when the segments of a document are stored as these entries. -/
def bundleOf (root : Element) (entries : List (String × Translation × Option Translation)) :
    Bundle where
  locale := root.attribute? "trgLang"
  translations := (contentsOf entries).translations
  sources :=
    if (contentsOf entries).sources.isEmpty then none else some (contentsOf entries).sources

/-! ## Documents -/

/-- The segments that are read: those inside other ones are passed over. -/
def outerSegments (root : Element) : List Occurrence :=
  (root.outside "segment").filter (·.name = "segment")

/-- A document is read when its units are new and its segments have entries, which are then
stored. -/
lemma read_eq_ok_iff {document : Option Document} {root : Element}
    (h : file.markupOf "XLIFF 2.0" analyze document = .ok root) {bundle : Bundle} :
    read file document = .ok bundle ↔ EachBehind UnitIsNew (root.outside "segment") ∧
      ∃ entries, List.Forall₂ (IsSegmentEntry file) (outerSegments root) entries ∧
        bundle = bundleOf root entries := by
  have nodes : readNodes file none {} root.children =
      (root.outside "segment").foldlM (step file) {} := by
    have top : List.all [] (fun tag : Markup.Tag => decide (tag.name ≠ "segment")) = true := rfl
    exact walks_step.readNodes_eq root.children top {}
  rw [read, h]
  dsimp only [bind, Except.bind]
  rw [nodes]
  constructor
  · intro ok
    obtain ⟨c, folded, ok⟩ := bind_eq_ok ok
    cases ok
    obtain ⟨units, entries, read, rfl⟩ := foldlM_step_eq_ok_iff.1 folded
    exact ⟨units, entries, read, rfl⟩
  · rintro ⟨units, entries, read, rfl⟩
    rw [foldlM_step_eq_ok_iff.2 ⟨units, entries, read, rfl⟩]
    rfl

variable (file) in
/-- A document of which every unit is new and every segment is in a unit and can be read. -/
structure IsRead (root : Element) : Prop where
  units : EachBehind UnitIsNew (root.outside "segment")
  segments : ∀ s ∈ outerSegments root, ∃ entry, IsSegmentEntry file s entry

/-- Different elements have different ids. -/
def Apart (HasId : String → Occurrence → Prop) (root : Element) : Prop :=
  root.descendants.Pairwise fun o o' => ∀ id, HasId id o → ¬HasId id o'

variable (file) in
/-- What was read of a document is all of it: no two units and no two segments share an id, there
are as many translations as segments, and what each segment says is found under its id. -/
structure KeepsAll (root : Element) (bundle : Bundle) : Prop where
  units : Apart IsUnit root
  segments : Apart IsSegment root
  count : bundle.translations.entries.length = (allSegments root).length
  targets : ∀ s ∈ allSegments root, ∃ id t, IsSegment id s ∧
    (target? s.element).map (Content.read rules file) = some (.ok t) ∧
    bundle.translations.get? id = some t
  sources : ∀ s ∈ allSegments root, ∀ source ∈ source? s.element, ∃ id t stored, IsSegment id s ∧
    Content.read rules file source = .ok t ∧ bundle.sources = some stored ∧ stored.get? id = some t

/-- Whatever shares an id in a document is kept apart: a segment stands before a unit that has the
id of another one, a unit between two segments that are stored under one id, and no segment is
inside another one. -/
structure Orderly (root : Element) : Prop where
  units : EachBehind (fun before u => ∀ id, IsUnit id u → (∃ u' ∈ before, IsUnit id u') →
    u.isOutside "segment" = true ∧ ∃ s ∈ before, IsSegment id s) root.descendants
  segments : ∀ front s between s' after id,
    root.descendants = front ++ s :: between ++ s' :: after → IsSegment id s → IsSegment id s' →
      ∃ u ∈ between, u.isOutside "segment" = true ∧ IsUnit id u
  nested : ∀ s ∈ allSegments root, s.isOutside "segment" = true

section

variable {root : Element}

/-- The segments that are read are those not inside another one. -/
lemma outerSegments_eq (root : Element) :
    outerSegments root = (allSegments root).filter (·.isOutside "segment") := by
  rw [outerSegments, allSegments, Element.outside, List.filter_filter, List.filter_filter]
  exact List.filter_congr fun _ _ => Bool.and_comm _ _

/-- No segment that was passed before a unit is stored under its id. -/
lemma not_isSegment_before (new : EachBehind UnitIsNew (root.outside "segment"))
    (nested : ∀ s ∈ allSegments root, s.isOutside "segment" = true)
    {before after : List Occurrence} {u : Occurrence}
    (place : root.descendants = before ++ u :: after) (outside : u.isOutside "segment" = true)
    {id : String} (isUnit : IsUnit id u) :
    ∀ s ∈ before, ¬IsSegment id s := by
  intro s there isSegment
  have outer : root.outside "segment" = before.filter (·.isOutside "segment") ++
      u :: after.filter (·.isOutside "segment") := by
    rw [Element.outside, place, List.filter_append, List.filter_cons_of_pos outside]
  obtain ⟨id', isUnit', none⟩ := new _ _ _ outer isUnit.1
  cases Option.some.inj (isUnit.2.symm.trans isUnit'.2)
  have member : s ∈ allSegments root := by
    refine List.mem_filter.2 ⟨?_, decide_eq_true isSegment.1⟩
    rw [place]
    exact List.mem_append_left _ there
  exact none s (List.mem_filter.2 ⟨there, nested s member⟩) isSegment

/-- In an orderly document different units have different ids. -/
lemma Orderly.apart_units (h : Orderly root)
    (new : EachBehind UnitIsNew (root.outside "segment")) : Apart IsUnit root := by
  rw [Apart, pairwise_iff_eachBehind]
  intro before u after place u' there id first second
  obtain ⟨outside, s, hs, isSegment⟩ := h.units before u after place id second ⟨u', there, first⟩
  exact not_isSegment_before new h.nested place outside second s hs isSegment

/-- In an orderly document different segments are stored under different ids. -/
lemma Orderly.apart_segments (h : Orderly root)
    (new : EachBehind UnitIsNew (root.outside "segment")) : Apart IsSegment root := by
  rw [Apart, pairwise_iff_eachBehind]
  intro before s' after place s there id first second
  -- The unit between the two segments has the id of the first one, and would have been refused.
  obtain ⟨front, between, rfl⟩ := List.append_of_mem there
  obtain ⟨u, hu, outside, isUnit⟩ := h.segments front s between s' after id place first second
  obtain ⟨middle, rest, rfl⟩ := List.append_of_mem hu
  have place : root.descendants = (front ++ s :: middle) ++ u :: (rest ++ s' :: after) := by
    rw [place]
    simp only [List.append_assoc, List.cons_append]
  exact not_isSegment_before new h.nested place outside isUnit s
    (List.mem_append_right _ List.mem_cons_self) first

/-- The entries of segments with ids of their own have different keys. -/
lemma nodup_ids (apart : Apart IsSegment root)
    (read : List.Forall₂ (IsSegmentEntry file) (allSegments root) entries) :
    (entries.map Prod.fst).Nodup := by
  have ids : ((allSegments root).map (enclosingId ·.around)).Nodup := by
    rw [List.Nodup, List.pairwise_map]
    refine (List.Pairwise.filter _ apart).imp_of_mem fun {s s'} hs hs' differ same => ?_
    obtain ⟨entry, -, isEntry⟩ := exists_mem_of_forall₂ read hs
    exact differ entry.1 ⟨of_decide_eq_true (List.mem_filter.1 hs).2, isEntry.id⟩
      ⟨of_decide_eq_true (List.mem_filter.1 hs').2, same.symm.trans isEntry.id⟩
  rw [ids_of_forall₂ (read.imp fun _ _ isEntry => isEntry.id)] at ids
  exact ids.of_map

/-- What is read of an orderly document is all of it. -/
lemma Orderly.keepsAll (h : Orderly root) (new : EachBehind UnitIsNew (root.outside "segment"))
    (read : List.Forall₂ (IsSegmentEntry file) (outerSegments root) entries) :
    KeepsAll file root (bundleOf root entries) := by
  -- no segment is inside another one, so none was passed over
  rw [outerSegments_eq, List.filter_eq_self.2 h.nested] at read
  have distinct := nodup_ids (h.apart_segments new) read
  have translations : ((entries.map fun entry => (entry.1, entry.2.1)).map Prod.fst).Nodup := by
    rw [List.map_map]
    exact distinct
  have sources :
      ((entries.filterMap fun entry => entry.2.2.map (entry.1, ·)).map Prod.fst).Nodup := by
    rw [List.Nodup, List.pairwise_map, List.pairwise_filterMap]
    rw [List.Nodup, List.pairwise_map] at distinct
    refine distinct.imp fun {entry entry'} differ b hb b' hb' => ?_
    obtain ⟨_, -, rfl⟩ := Option.map_eq_some_iff.1 hb
    obtain ⟨_, -, rfl⟩ := Option.map_eq_some_iff.1 hb'
    exact differ
  constructor
  case units => exact h.apart_units new
  case segments => exact h.apart_segments new
  case count =>
    rw [bundleOf, contentsOf, OrderedMap.ofList_of_nodup translations, List.length_map,
      read.length_eq]
  case targets =>
    intro s hs
    obtain ⟨entry, there, isEntry⟩ := exists_mem_of_forall₂ read hs
    exact ⟨entry.1, entry.2.1, ⟨of_decide_eq_true (List.mem_filter.1 hs).2, isEntry.id⟩,
      isEntry.target,
      OrderedMap.get?_ofList_of_nodup translations (List.mem_map.2 ⟨entry, there, rfl⟩)⟩
  case sources =>
    intro s hs source given
    obtain ⟨entry, there, isEntry⟩ := exists_mem_of_forall₂ read hs
    have last := isEntry.source
    rw [Option.mem_def.1 given] at last
    obtain ⟨t, isSource, same⟩ := Option.map_eq_some_iff.1 last.symm
    have found : (contentsOf entries).sources.get? entry.1 = some t :=
      OrderedMap.get?_ofList_of_nodup sources
        (List.mem_filterMap.2 ⟨entry, there, by rw [isSource]; rfl⟩)
    -- sources are left out of a bundle only when there are none, and here is one
    refine ⟨entry.1, t, (contentsOf entries).sources,
      ⟨of_decide_eq_true (List.mem_filter.1 hs).2, isEntry.id⟩, same.symm, ?_, found⟩
    rw [bundleOf, if_neg]
    intro empty
    rw [OrderedMap.get?, List.isEmpty_iff.1 empty] at found
    cases found

/-- A document is orderly when different elements of it have different ids and no segment is inside
another one. -/
lemma orderly_of_apart (units : Apart IsUnit root) (segments : Apart IsSegment root)
    (nested : ∀ s ∈ allSegments root, s.isOutside "segment" = true) : Orderly root := by
  constructor
  case units =>
    rintro before u after place id second ⟨u', there, first⟩
    exact absurd second (pairwise_iff_eachBehind.1 units before u after place u' there id first)
  case segments =>
    intro front s between s' after id place first second
    exact absurd second (pairwise_iff_eachBehind.1 segments _ s' after place s
      (List.mem_append_right _ List.mem_cons_self) id first)
  case nested => exact nested

/-- A document of which everything was kept is orderly. -/
lemma KeepsAll.orderly (h : KeepsAll file root (bundleOf root entries))
    (read : List.Forall₂ (IsSegmentEntry file) (outerSegments root) entries) : Orderly root := by
  refine orderly_of_apart h.units h.segments ?_
  have stored : (bundleOf root entries).translations.entries.length ≤ entries.length :=
    (OrderedMap.length_ofList_le _).trans_eq (List.length_map _)
  rw [h.count, ← read.length_eq, outerSegments_eq] at stored
  exact List.length_filter_eq_length_iff.1
    (Nat.le_antisymm (List.length_filter_le _ _) stored)

/-- The id of an element that is a unit. -/
def unitKey (o : Occurrence) : Option String :=
  if o.name = "unit" then o.tag.attribute? "id" else none

/-- The id that an element is stored under when it is a segment. -/
def segmentKey (o : Occurrence) : Option String :=
  if o.name = "segment" then enclosingId o.around else none

/-- Elements have different ids when the list of all their ids has no duplicates. -/
lemma apart_of_nodup {HasId : String → Occurrence → Prop} {key : Occurrence → Option String}
    (keyed : ∀ id o, HasId id o → key o = some id)
    (distinct : (root.descendants.filterMap key).Nodup) : Apart HasId root := by
  rw [List.Nodup, List.pairwise_filterMap] at distinct
  refine distinct.imp fun {o o'} differ id first second => ?_
  exact differ id (keyed id o first) id (keyed id o' second) rfl

end

/-- A document is read when each of its units is new and each of its segments can be read; then the
segments are stored one after the other, and all of it is kept exactly when it is orderly. -/
theorem segments_kept_iff_orderly {document : Option Document} {root : Element}
    (h : file.markupOf "XLIFF 2.0" analyze document = .ok root) :
    ((∃ bundle, read file document = .ok bundle) ↔ IsRead file root) ∧
    ∀ bundle, read file document = .ok bundle →
      (∃ entries, List.Forall₂ (IsSegmentEntry file) (outerSegments root) entries ∧
        bundle = bundleOf root entries) ∧
      (KeepsAll file root bundle ↔ Orderly root) := by
  refine ⟨⟨?accepted, ?accepts⟩, ?kept⟩
  case accepted =>
    rintro ⟨bundle, ok⟩
    obtain ⟨units, entries, read, -⟩ := (read_eq_ok_iff h).1 ok
    exact ⟨units, exists_forall₂_iff.1 ⟨entries, read⟩⟩
  case accepts =>
    intro isRead
    obtain ⟨entries, read⟩ := exists_forall₂_iff.2 isRead.segments
    exact ⟨_, (read_eq_ok_iff h).2 ⟨isRead.units, entries, read, rfl⟩⟩
  case kept =>
    intro bundle ok
    obtain ⟨units, entries, read, rfl⟩ := (read_eq_ok_iff h).1 ok
    exact ⟨⟨entries, read, rfl⟩, fun keeps => keeps.orderly read,
      fun orderly => orderly.keepsAll units read⟩

/-- A file with several units, one of which has no segment. -/
def severalUnits : FileText where
  path := "messages.fr.xlf"
  contents :=
    "<xliff version=\"2.0\" trgLang=\"fr\"><file>" ++
    "<unit id=\"b\"><segment><source>one</source><target>un</target></segment></unit>" ++
    "<unit id=\"c\"/><unit id=\"a\"><segment>" ++
    "<target>Salut <ph id=\"1\" equiv=\"NAME\"/></target></segment></unit></file></xliff>"

/-- A file can be looked for by the document and the bundle that are read of it. -/
lemma exists_read {p : Element → Bundle → Bool}
    (h : (file.markupOf "XLIFF 2.0" analyze none).toOption.any
      (fun root => (read file (some (.markup root))).toOption.any (p root)) = true) :
    ∃ root bundle, file.markupOf "XLIFF 2.0" analyze none = .ok root ∧
      read file none = .ok bundle ∧ p root bundle = true := by
  obtain ⟨root, document, h⟩ := exists_ok_of_any h
  obtain ⟨bundle, ok, h⟩ := exists_ok_of_any h
  refine ⟨root, bundle, document, ?_, h⟩
  rw [← ok, read, read, document, FileText.markupOf_some]

/-- A file whose units all have ids of their own is kept in the order in which it was written. -/
theorem segments_kept_iff_orderly_severalUnits :
    ∃ root bundle, severalUnits.markupOf "XLIFF 2.0" analyze none = .ok root ∧
      read severalUnits none = .ok bundle ∧ bundle.translations.keys = ["b", "a"] ∧
      IsRead severalUnits root ∧ Orderly root ∧ KeepsAll severalUnits root bundle := by
  have found : (severalUnits.markupOf "XLIFF 2.0" analyze none).toOption.any (fun root =>
      (read severalUnits (some (.markup root))).toOption.any fun bundle =>
        bundle.translations.keys = ["b", "a"] ∧ (root.descendants.filterMap unitKey).Nodup ∧
          (root.descendants.filterMap segmentKey).Nodup ∧
          ∀ s ∈ allSegments root, s.isOutside "segment" = true) = true := by
    decide +kernel
  obtain ⟨root, bundle, h, ok, seen⟩ := exists_read found
  obtain ⟨keys, units, segments, nested⟩ := of_decide_eq_true seen
  have orderly : Orderly root := orderly_of_apart
    (apart_of_nodup (fun _ _ isUnit => (if_pos isUnit.1).trans isUnit.2) units)
    (apart_of_nodup (fun _ _ isSegment => (if_pos isSegment.1).trans isSegment.2) segments) nested
  have kept := segments_kept_iff_orderly h
  exact ⟨root, bundle, h, ok, keys, kept.1.1 ⟨bundle, ok⟩, orderly,
    (kept.2 bundle ok).2.2 orderly⟩

/-- A file with a unit of two segments. -/
def twoSegments : FileText where
  path := "messages.fr.xlf"
  contents :=
    "<xliff version=\"2.0\" trgLang=\"fr\"><file><unit id=\"a\">" ++
    "<segment><target>1</target></segment><segment><target>2</target></segment>" ++
    "</unit></file></xliff>"

/-- A file with two units under one id. -/
def emptyUnits : FileText where
  path := "messages.fr.xlf"
  contents :=
    "<xliff version=\"2.0\" trgLang=\"fr\"><file><unit id=\"a\"/><unit id=\"a\"/></file></xliff>"

/-- Files that are read, though not all of them is kept: a segment is stored in the place of another
one, and a unit has the id of another one in which nothing was stored. -/
theorem not_keepsAll_twoSegments_emptyUnits :
    (∃ root bundle, twoSegments.markupOf "XLIFF 2.0" analyze none = .ok root ∧
      read twoSegments none = .ok bundle ∧ ¬KeepsAll twoSegments root bundle) ∧
    ∃ root bundle, emptyUnits.markupOf "XLIFF 2.0" analyze none = .ok root ∧
      read emptyUnits none = .ok bundle ∧ ¬KeepsAll emptyUnits root bundle := by
  constructor
  · have found : (twoSegments.markupOf "XLIFF 2.0" analyze none).toOption.any (fun root =>
        (read twoSegments (some (.markup root))).toOption.any fun bundle =>
          bundle.translations.entries.length = 1 ∧ (allSegments root).length = 2) = true := by
      decide +kernel
    obtain ⟨root, bundle, h, ok, counts⟩ := exists_read found
    obtain ⟨stored, given⟩ := of_decide_eq_true counts
    refine ⟨root, bundle, h, ok, fun keeps => ?_⟩
    have count := keeps.count
    rw [stored, given] at count
    cases count
  · have found : (emptyUnits.markupOf "XLIFF 2.0" analyze none).toOption.any (fun root =>
        (read emptyUnits (some (.markup root))).toOption.any fun _ =>
          root.descendants.map (fun o => (o.name, o.tag.attribute? "id")) =
            [("file", none), ("unit", some "a"), ("unit", some "a")]) = true := by
      decide +kernel
    obtain ⟨root, bundle, h, ok, elements⟩ := exists_read found
    refine ⟨root, bundle, h, ok, fun keeps => ?_⟩
    have apart : (root.descendants.map fun o => (o.name, o.tag.attribute? "id")).Pairwise
        fun u u' => u = ("unit", some "a") → u' ≠ ("unit", some "a") := by
      refine List.pairwise_map.2 (keeps.units.imp fun {u u'} differ first second => ?_)
      exact differ "a" (Prod.mk.inj first) (Prod.mk.inj second)
    rw [of_decide_eq_true elements] at apart
    exact absurd apart (by decide)

end FileFormat.Xliff2

end MessageCatalog
