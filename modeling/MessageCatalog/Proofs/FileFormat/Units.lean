import Mathlib.Data.List.Forall2
import Mathlib.Data.List.Nodup
import Mathlib.Data.Option.Basic
import MessageCatalog.FileFormat.Analysis
import MessageCatalog.Proofs.Identity
import MessageCatalog.Proofs.Markup.Occurrences

/-!
# Units taken once

A reader takes the units of a file one after the other, and each of them once: a unit needs an id
that none before it has, and content that can be read. So a file is read exactly when that holds of
all its units, and then there is an entry for each; otherwise the first unit of which it does not
hold is what is wrong with the file.
-/

namespace MessageCatalog

open Markup (Element)

/-! ## Folds that may fail -/

/-- Two steps fail when the first does or when the second does with what it gives. -/
lemma eq_error_or_of_bind {α β ε : Type} {x : Except ε α} {f : α → Except ε β} {e : ε}
    (h : x >>= f = .error e) : x = .error e ∨ ∃ a, x = .ok a ∧ f a = .error e := by
  cases x with
  | error e' => exact .inl (congrArg _ (Except.error.inj h))
  | ok a => exact .inr ⟨a, rfl, h⟩

/-- Changing what is given leaves a failure as it is. -/
lemma map_eq_error_iff {α β ε : Type} {x : Except ε α} {f : α → β} {e : ε} :
    x.map f = .error e ↔ x = .error e := by
  cases x with
  | error e' =>
    exact ⟨fun h => congrArg _ (Except.error.inj h), fun h => congrArg _ (Except.error.inj h)⟩
  | ok a => exact iff_of_false nofun nofun

/-- Changing what is given leaves a success a success. -/
lemma map_eq_ok_iff {α β ε : Type} {x : Except ε α} {f : α → β} {b : β} :
    x.map f = .ok b ↔ ∃ a, x = .ok a ∧ f a = b := by
  cases x with
  | error e => exact iff_of_false nofun nofun
  | ok a =>
    constructor
    · exact fun h => ⟨a, rfl, Except.ok.inj h⟩
    · rintro ⟨_, ⟨⟩, rfl⟩
      rfl

section Fold

variable {α σ ε : Type} {step : σ → α → Except ε σ} {items : List α} {s : σ} {e : ε}

/-- A fold fails at the first item at which its step does. -/
lemma foldlM_eq_error_iff :
    items.foldlM step s = .error e ↔
      ∃ before a after t, items = before ++ a :: after ∧ before.foldlM step s = .ok t ∧
        step t a = .error e := by
  constructor
  · intro fails
    induction items generalizing s with
    | nil => cases fails
    | cons a rest ih =>
      rw [List.foldlM_cons] at fails
      cases first : step s a with
      | error e' =>
        rw [first] at fails
        cases fails
        exact ⟨[], a, rest, s, rfl, rfl, first⟩
      | ok t =>
        rw [first] at fails
        obtain ⟨before, b, after, last, rfl, reached, stops⟩ := ih fails
        refine ⟨a :: before, b, after, last, rfl, ?_, stops⟩
        rw [List.foldlM_cons, first]
        exact reached
  · rintro ⟨before, a, after, t, rfl, reached, stops⟩
    rw [List.foldlM_append, reached]
    change (step t a >>= _) = _
    rw [stops]
    rfl

/-- A fold over items succeeds when it does over those in front and then over the last one. -/
lemma foldlM_concat_eq_ok_iff {a : α} {t : σ} :
    (items ++ [a]).foldlM step s = .ok t ↔
      ∃ u, items.foldlM step s = .ok u ∧ step u a = .ok t := by
  rw [List.foldlM_append]
  cases items.foldlM step s with
  | error e => exact iff_of_false nofun nofun
  | ok u =>
    have last : ([a].foldlM step u : Except ε σ) = step u a := bind_pure (step u a)
    change [a].foldlM step u = .ok t ↔ _
    rw [last]
    exact ⟨fun h => ⟨u, rfl, h⟩, fun ⟨u', same, h⟩ => Except.ok.inj same ▸ h⟩

end Fold

/-- Values can be chosen for all items of a list at once when there is one for each. -/
lemma exists_forall₂_iff {α β : Type} {R : α → β → Prop} {items : List α} :
    (∃ values, List.Forall₂ R items values) ↔ ∀ a ∈ items, ∃ b, R a b := by
  induction items with
  | nil => exact iff_of_true ⟨[], .nil⟩ nofun
  | cons a rest ih =>
    rw [List.forall_mem_cons, ← ih]
    constructor
    · rintro ⟨values, chosen⟩
      cases chosen with
      | cons first later => exact ⟨⟨_, first⟩, _, later⟩
    · rintro ⟨⟨b, first⟩, values, later⟩
      exact ⟨b :: values, .cons first later⟩

/-- Entries that items have ids for are those of the ids. -/
lemma ids_of_forall₂ {α ν : Type} {idOf : α → Option String} {items : List α}
    {entries : List (String × ν)}
    (h : List.Forall₂ (fun a entry => idOf a = some entry.1) items entries) :
    items.map idOf = (entries.map Prod.fst).map some := by
  induction h with
  | nil => rfl
  | cons first _ ih => rw [List.map_cons, List.map_cons, List.map_cons, first, ih]

/-- What was computed with a certain property was computed. -/
lemma exists_ok_of_any {α ε : Type} {x : Except ε α} {p : α → Bool}
    (h : x.toOption.any p = true) : ∃ a, x = .ok a ∧ p a = true := by
  cases x with
  | error e => cases h
  | ok a => exact ⟨a, rfl, h⟩

namespace FileFormat

variable (file : FileText)

/-! ## Taking units -/

section Units

variable {ν : Type} (content : Element → Except ReadError ν)

/-- Read a unit, and hold its content under its id behind the units before it. -/
def takeUnit (held : List (String × ν)) (u : Element) : Except ReadError (List (String × ν)) := do
  let id ← file.requiredAttribute u.tag "id"
  if id ∈ held.map Prod.fst then .error (.atElement file u.tag (.duplicateMessage id))
  let value ← content u
  return held ++ [(id, value)]

/-- An entry is that of a unit. -/
structure IsEntry (u : Element) (entry : String × ν) : Prop where
  id : u.attribute? "id" = some entry.1
  content : content u = .ok entry.2

/-- Units of which each has an id of its own and content that can be read. -/
structure AllRead (Readable : Element → Prop) (units : List Element) : Prop where
  ids : ∀ u ∈ units, ∃ id, u.attribute? "id" = some id
  distinct : (units.map (·.attribute? "id")).Nodup
  contents : ∀ u ∈ units, Readable u

/-- What is wrong with a unit that stands behind others; `Fault` is what is wrong with contents. -/
inductive Offends (Fault : Element → ReadError → Prop) (before : List Element) (u : Element) :
    ReadError → Prop
  | noId (missing : u.attribute? "id" = none) :
    Offends Fault before u (.atElement file u.tag (.missingAttribute "id" u.name))
  | sameId {id : String} (given : u.attribute? "id" = some id)
    (earlier : some id ∈ before.map (·.attribute? "id")) :
    Offends Fault before u (.atElement file u.tag (.duplicateMessage id))
  | content {id : String} {e : ReadError} (given : u.attribute? "id" = some id)
    (new : some id ∉ before.map (·.attribute? "id")) (fault : Fault u e) :
    Offends Fault before u e

variable {file content}

/-- A unit without an id is refused for that. -/
lemma takeUnit_noId {held : List (String × ν)} {u : Element} (missing : u.attribute? "id" = none) :
    takeUnit file content held u =
      .error (.atElement file u.tag (.missingAttribute "id" u.name)) := by
  have tag : u.tag.attribute? "id" = none := missing
  rw [takeUnit, FileText.requiredAttribute, tag]
  rfl

/-- A unit with the id of an earlier one is refused for that. -/
lemma takeUnit_sameId {held : List (String × ν)} {u : Element} {id : String}
    (given : u.attribute? "id" = some id) (earlier : id ∈ held.map Prod.fst) :
    takeUnit file content held u = .error (.atElement file u.tag (.duplicateMessage id)) := by
  have tag : u.tag.attribute? "id" = some id := given
  rw [takeUnit, FileText.requiredAttribute, tag]
  change (if id ∈ held.map Prod.fst then _ else _) = _
  rw [if_pos earlier]
  rfl

/-- A unit with a new id is taken with what is read of it. -/
lemma takeUnit_new {held : List (String × ν)} {u : Element} {id : String}
    (given : u.attribute? "id" = some id) (new : id ∉ held.map Prod.fst) :
    takeUnit file content held u = (content u).map fun value => held ++ [(id, value)] := by
  have tag : u.tag.attribute? "id" = some id := given
  rw [takeUnit, FileText.requiredAttribute, tag]
  change (if id ∈ held.map Prod.fst then _ else _) = _
  rw [if_neg new]
  cases content u <;> rfl

/-- A unit is taken when it has an id that no earlier one has, and can be read. -/
lemma takeUnit_eq_ok_iff {held held' : List (String × ν)} {u : Element} :
    takeUnit file content held u = .ok held' ↔
      ∃ entry, IsEntry content u entry ∧ entry.1 ∉ held.map Prod.fst ∧ held' = held ++ [entry] := by
  constructor
  · intro taken
    cases given : u.attribute? "id" with
    | none =>
      rw [takeUnit_noId given] at taken
      cases taken
    | some id =>
      by_cases earlier : id ∈ held.map Prod.fst
      · rw [takeUnit_sameId given earlier] at taken
        cases taken
      · rw [takeUnit_new given earlier, map_eq_ok_iff] at taken
        obtain ⟨value, read, rfl⟩ := taken
        exact ⟨(id, value), ⟨given, read⟩, earlier, rfl⟩
  · rintro ⟨entry, isEntry, new, rfl⟩
    rw [takeUnit_new isEntry.id new, isEntry.content]
    rfl

/-- Units are taken behind others when they have ids of their own and can be read. -/
lemma foldlM_takeUnit_eq_ok_iff {units : List Element} {done held : List (String × ν)} :
    units.foldlM (takeUnit file content) done = .ok held ↔
      ∃ new, held = done ++ new ∧ List.Forall₂ (IsEntry content) units new ∧
        (new.map Prod.fst).Nodup ∧ ∀ id ∈ new.map Prod.fst, id ∉ done.map Prod.fst := by
  induction units generalizing done with
  | nil =>
    constructor
    · intro h
      cases h
      exact ⟨[], (List.append_nil _).symm, .nil, List.nodup_nil, nofun⟩
    · rintro ⟨new, rfl, none, -⟩
      cases none
      rw [List.append_nil]
      rfl
  | cons u units ih =>
    -- an id that is in neither the entries before this one nor this one is in none of them
    have apart_iff (entry : String × ν) (id : String) :
        id ∉ (done ++ [entry]).map Prod.fst ↔ id ∉ done.map Prod.fst ∧ id ≠ entry.1 := by
      rw [List.map_append, List.mem_append, not_or, List.map_singleton, List.mem_singleton]
    rw [List.foldlM_cons]
    constructor
    · intro h
      obtain ⟨first, taken, rest⟩ := bind_eq_ok h
      obtain ⟨entry, isEntry, unused, rfl⟩ := takeUnit_eq_ok_iff.1 taken
      obtain ⟨new, rfl, entries, distinct, apart⟩ := ih.1 rest
      simp only [apart_iff] at apart
      refine ⟨entry :: new, (List.append_cons _ _ _).symm, .cons isEntry entries, ?_, ?_⟩
      · rw [List.map_cons, List.nodup_cons]
        exact ⟨fun h => (apart _ h).2 rfl, distinct⟩
      · rw [List.map_cons]
        exact List.forall_mem_cons.2 ⟨unused, fun id h => (apart id h).1⟩
    · rintro ⟨new, rfl, entries, distinct, apart⟩
      cases entries with
      | @cons _ entry _ new isEntry entries =>
        rw [List.map_cons, List.nodup_cons] at distinct
        rw [List.map_cons, List.forall_mem_cons] at apart
        rw [takeUnit_eq_ok_iff.2 ⟨entry, isEntry, apart.1, rfl⟩]
        refine ih.2 ⟨new, List.append_cons _ _ _, entries, distinct.2, fun id h => ?_⟩
        exact (apart_iff entry id).2 ⟨apart.2 id h, fun same => distinct.1 (same ▸ h)⟩

/-- Units are taken from the start when they have ids of their own and can be read. -/
lemma takeUnits_eq_ok_iff {units : List Element} {held : List (String × ν)} :
    units.foldlM (takeUnit file content) [] = .ok held ↔
      List.Forall₂ (IsEntry content) units held ∧ (held.map Prod.fst).Nodup := by
  rw [foldlM_takeUnit_eq_ok_iff]
  constructor
  · rintro ⟨new, rfl, entries, distinct, -⟩
    exact ⟨entries, distinct⟩
  · rintro ⟨entries, distinct⟩
    exact ⟨held, rfl, entries, distinct, fun _ _ => List.not_mem_nil⟩

variable {Readable : Element → Prop} {Fault : Element → ReadError → Prop}

/-- Units are taken when each of them has a new id and can be read. -/
lemma exists_takeUnits_iff (hok : ∀ u, (∃ value, content u = .ok value) ↔ Readable u)
    {units : List Element} :
    (∃ held, units.foldlM (takeUnit file content) [] = .ok held) ↔ AllRead Readable units := by
  constructor
  · rintro ⟨held, taken⟩
    obtain ⟨entries, distinct⟩ := takeUnits_eq_ok_iff.1 taken
    have each : ∀ u ∈ units, ∃ entry, IsEntry content u entry :=
      exists_forall₂_iff.1 ⟨held, entries⟩
    constructor
    case ids => exact fun u hu => (each u hu).imp' Prod.fst fun _ h => h.id
    case distinct =>
      rw [ids_of_forall₂ (entries.imp fun _ _ isEntry => isEntry.id)]
      exact distinct.map (Option.some_injective String)
    case contents => exact fun u hu => (hok u).1 ((each u hu).imp' Prod.snd fun _ h => h.content)
  · intro all
    have each : ∀ u ∈ units, ∃ entry, IsEntry content u entry := by
      intro u hu
      obtain ⟨id, given⟩ := all.ids u hu
      obtain ⟨value, read⟩ := (hok u).2 (all.contents u hu)
      exact ⟨(id, value), given, read⟩
    obtain ⟨held, entries⟩ := exists_forall₂_iff.2 each
    have distinct := all.distinct
    rw [ids_of_forall₂ (entries.imp fun _ _ isEntry => isEntry.id)] at distinct
    exact ⟨held, takeUnits_eq_ok_iff.2 ⟨entries, distinct.of_map⟩⟩

/-- What is wrong with a unit depends on the ids before it. -/
lemma takeUnit_eq_error_iff (herror : ∀ u e, content u = .error e ↔ Fault u e)
    {before : List Element} {held : List (String × ν)}
    (entries : List.Forall₂ (IsEntry content) before held) {u : Element} {e : ReadError} :
    takeUnit file content held u = .error e ↔ Offends file Fault before u e := by
  have earlier_iff : ∀ id, some id ∈ before.map (·.attribute? "id") ↔ id ∈ held.map Prod.fst := by
    intro id
    rw [ids_of_forall₂ (entries.imp fun _ _ isEntry => isEntry.id),
      List.mem_map_of_injective (Option.some_injective String)]
  constructor
  · intro fails
    cases given : u.attribute? "id" with
    | none =>
      rw [takeUnit_noId given] at fails
      cases fails
      exact .noId given
    | some id =>
      by_cases earlier : id ∈ held.map Prod.fst
      · rw [takeUnit_sameId given earlier] at fails
        cases fails
        exact .sameId given ((earlier_iff id).2 earlier)
      · rw [takeUnit_new given earlier] at fails
        cases read : content u with
        | ok value =>
          rw [read] at fails
          cases fails
        | error e' =>
          rw [read] at fails
          cases fails
          exact .content given (fun h => earlier ((earlier_iff id).1 h)) ((herror u e).1 read)
  · intro offends
    cases offends with
    | noId missing => exact takeUnit_noId missing
    | sameId given earlier => exact takeUnit_sameId given ((earlier_iff _).1 earlier)
    | content given new fault =>
      rw [takeUnit_new given fun h => new ((earlier_iff _).2 h), (herror u e).2 fault]
      rfl

/-- Units are not taken because of the first one with which something is wrong. -/
lemma takeUnits_eq_error_iff (hok : ∀ u, (∃ value, content u = .ok value) ↔ Readable u)
    (herror : ∀ u e, content u = .error e ↔ Fault u e) {units : List Element} {e : ReadError} :
    units.foldlM (takeUnit file content) [] = .error e ↔
      ∃ before u after, units = before ++ u :: after ∧ AllRead Readable before ∧
        Offends file Fault before u e := by
  rw [foldlM_eq_error_iff]
  constructor
  · rintro ⟨before, u, after, held, rfl, taken, fails⟩
    obtain ⟨entries, -⟩ := takeUnits_eq_ok_iff.1 taken
    exact ⟨before, u, after, rfl, (exists_takeUnits_iff hok).1 ⟨held, taken⟩,
      (takeUnit_eq_error_iff herror entries).1 fails⟩
  · rintro ⟨before, u, after, rfl, all, offends⟩
    obtain ⟨held, taken⟩ : ∃ held, before.foldlM (takeUnit file content) [] = .ok held :=
      (exists_takeUnits_iff hok).2 all
    obtain ⟨entries, -⟩ := takeUnits_eq_ok_iff.1 taken
    exact ⟨before, u, after, held, rfl, taken, (takeUnit_eq_error_iff herror entries).2 offends⟩

end Units

/-! ## Readers -/

/-- What it means that a reader takes each of `units` once: `Readable` says which content it can
read, `Fault` what is wrong with other content, and `IsValue` what a unit is read as. -/
structure TakesOnce (units : List Element) (Readable : Element → Prop)
    (Fault : Element → ReadError → Prop) (IsValue : Element → Translation → Prop)
    (outcome : Except ReadError Bundle) : Prop where
  accepts : (∃ bundle, outcome = .ok bundle) ↔ AllRead Readable units
  /-- There is one entry for each unit, in order. -/
  entries : ∀ bundle, outcome = .ok bundle →
    List.Forall₂ (fun u entry => u.attribute? "id" = some entry.1 ∧ IsValue u entry.2) units
      bundle.translations.entries
  /-- The first unit with which something is wrong is what is wrong with the file. -/
  rejects : ∀ e, outcome = .error e ↔
    ∃ before u after, units = before ++ u :: after ∧ AllRead Readable before ∧
      Offends file Fault before u e
  /-- It is said where that is: at the unit or at an element below it. -/
  located : ∀ before u e, Offends file Fault before u e →
    ∃ tag problem, u.HasTag tag ∧ e = .atElement file tag problem

variable {file}

/-- What is wrong with a unit is located there when what is wrong with its content is. -/
lemma Offends.located {Fault : Element → ReadError → Prop} {before : List Element} {u : Element}
    {e : ReadError} (h : Offends file Fault before u e)
    (content : Fault u e → ∃ tag problem, u.HasTag tag ∧ e = .atElement file tag problem) :
    ∃ tag problem, u.HasTag tag ∧ e = .atElement file tag problem := by
  cases h with
  | noId => exact ⟨u.tag, _, .inl rfl, rfl⟩
  | sameId => exact ⟨u.tag, _, .inl rfl, rfl⟩
  | content _ _ fault => exact content fault

/-- A reader that makes a bundle of the entries of its units takes each unit once. -/
lemma takesOnce_of_takeUnits {ν : Type} {content : Element → Except ReadError ν}
    {Readable : Element → Prop} {Fault : Element → ReadError → Prop}
    {IsValue : Element → Translation → Prop} {units : List Element}
    {bundleOf : List (String × ν) → Bundle} {translationOf : ν → Translation}
    (hok : ∀ u, (∃ value, content u = .ok value) ↔ Readable u)
    (herror : ∀ u e, content u = .error e ↔ Fault u e)
    (hvalue : ∀ u value, content u = .ok value → IsValue u (translationOf value))
    (hlocated : ∀ u e, Fault u e → ∃ tag problem, u.HasTag tag ∧ e = .atElement file tag problem)
    (hentries : ∀ held, (bundleOf held).translations.entries =
      held.map fun entry => (entry.1, translationOf entry.2)) :
    TakesOnce file units Readable Fault IsValue
      ((units.foldlM (takeUnit file content) []).map bundleOf) := by
  constructor
  case accepts =>
    have taken_iff : (∃ held, units.foldlM (takeUnit file content) [] = .ok held) ↔
        AllRead Readable units := exists_takeUnits_iff hok
    rw [← taken_iff]
    constructor
    · rintro ⟨bundle, h⟩
      obtain ⟨held, taken, -⟩ := map_eq_ok_iff.1 h
      exact ⟨held, taken⟩
    · rintro ⟨held, taken⟩
      exact ⟨bundleOf held, map_eq_ok_iff.2 ⟨held, taken, rfl⟩⟩
  case entries =>
    intro bundle h
    obtain ⟨held, taken, rfl⟩ := map_eq_ok_iff.1 h
    obtain ⟨each, -⟩ := takeUnits_eq_ok_iff.1 taken
    rw [hentries, List.forall₂_map_right_iff]
    exact each.imp fun u entry isEntry => ⟨isEntry.id, hvalue u _ isEntry.content⟩
  case rejects =>
    intro e
    rw [map_eq_error_iff, takeUnits_eq_error_iff hok herror]
  case located => exact fun before u e h => h.located (hlocated u e)

end FileFormat

end MessageCatalog
