import MessageCatalog.Proofs.Command.Failure
import MessageCatalog.Proofs.OrderedMap

/-!
# Many translation files in one

When the files that load are written to one file, that has a message for each of their ids, in the
order in which the ids first occur. The message is made of the translation in the first file that
has the id.
-/

namespace MessageCatalog.Command.Convert

/-! ## The union of bundles -/

/-- One message for each id of some bundles, in the order in which the ids first occur, made of the
translation in the first bundle that has the id. -/
structure UnitesFirst (bs : List Bundle) (messages : List Message) : Prop where
  ids : messages.map Message.id = (bs.flatMap fun b => b.translations.keys).eraseDups
  made : ∀ m ∈ messages, ∃ t,
    bs.findSome? (fun b => b.translations.get? m.id) = some t ∧ m = t.toMessage m.id

/-- The union adds the entries of all bundles one by one. -/
lemma union_eq_foldl (bs : List Bundle) :
    union bs = (bs.flatMap fun b => b.translations.entries).foldl
      (fun all (id, t) => all.insertNew id t) ∅ :=
  List.foldl_flatMap.symm

/-- The ids of a union are all ids in the order in which they first occur. -/
lemma keys_union (bs : List Bundle) :
    (union bs).keys = (bs.flatMap fun b => b.translations.keys).eraseDups := by
  rw [union_eq_foldl, OrderedMap.keys_foldl_insertNew, List.map_flatMap]
  exact congrArg List.eraseDups (List.filter_eq_self.2 fun _ _ => rfl)

/-- An id has the translation of the first bundle that has it. -/
lemma get?_union (bs : List Bundle) (id : String) :
    (union bs).get? id = bs.findSome? fun b => b.translations.get? id := by
  rw [union_eq_foldl, OrderedMap.get?_foldl_insertNew]
  refine Option.none_or.trans ?_
  induction bs with
  | nil => rfl
  | cons b bs ih =>
    rw [List.flatMap_cons, List.lookup_append, List.findSome?_cons, ih, OrderedMap.get?]
    cases b.translations.entries.lookup id <;> rfl

/-- The messages of a union are those of the first bundles that have their ids. -/
lemma unitesFirst_union (bs : List Bundle) :
    UnitesFirst bs (Message.ofTranslations (union bs)) where
  ids := by
    rw [← keys_union, Message.ofTranslations, List.map_map]
    rfl
  made m h := by
    obtain ⟨⟨id, t⟩, there, rfl⟩ := List.mem_map.1 h
    refine ⟨t, ?_, rfl⟩
    have found : (union bs).get? id = some t := by
      have empty : ∀ entry ∈ (∅ : OrderedMap String Translation).entries,
          OrderedMap.get? ∅ entry.1 = some entry.2 := fun _ h => nomatch h
      rw [union_eq_foldl] at there ⊢
      exact OrderedMap.get?_of_mem_foldl_insertNew empty _ there
    rw [← get?_union]
    exact found

/-! ## Writing the union -/

/-- The bundles of the files that load. -/
def loadedBundles (sources : List SourceFile) : List Bundle :=
  sources.filterMap fun source => (load source).bundle

/-- The bundles to write are those of the files that load. -/
lemma map_snd_bundles (sources : List SourceFile) :
    (bundles (sources.map load)).map Prod.snd = loadedBundles sources := by
  rw [bundles, List.map_filterMap, List.filterMap_map, loadedBundles]
  refine List.filterMap_congr fun source _ => ?_
  rw [Function.comp_apply, Option.map_map]
  exact Option.map_id'

/-- The text of the file that unites the files that load. -/
def unionText (r : Request) (sources : List SourceFile) : String :=
  r.format.render (Message.ofTranslations (union (loadedBundles sources)))
    (((loadedBundles sources).head?.bind Bundle.locale).getD "en") true

/-- Writing to one file is one action, whatever there is to unite. -/
lemma fileActions_eq (r : Request) (sources : List SourceFile) :
    fileActions r ((bundles (sources.map load)).map Prod.snd) =
      [.generate r.output (unionText r sources)] := by
  rw [fileActions, map_snd_bundles, unionText]
  cases loadedBundles sources <;> rfl

variable {σ : Type} {fs : FileSystem (StateM σ)} {logger : Logger} {s : σ}

/-- Writing to one file succeeds or fails with the file. -/
lemma run_execute_file {r : Request} {sources : List SourceFile}
    (some : loadedBundles sources ≠ []) :
    let written := (fs.writeFile r.output (unionText r sources)).run s
    let ran := ((plan r true sources).execute fs logger).run s
    ran.2 = written.2 ∧
      ran.1.result =
        match written.1 with
        | .ok () => .ok [r.output]
        | .error e => .error (.write r.output e) := by
  have loaded : (bundles (sources.map load)).isEmpty = false := by
    rw [← Bool.not_eq_true, List.isEmpty_iff]
    exact fun none => some (by rw [← map_snd_bundles, none]; rfl)
  obtain ⟨q, generated, -, run⟩ :=
    exists_perform_append fs logger (targets_opening r sources) {}
  rw [plan_eq, Plan.run_execute, run, closing, loaded, if_neg Bool.false_ne_true, outputActions,
    if_pos rfl, fileActions_eq, run_perform_say, run_perform_generate]
  obtain ⟨answer, t, wrote⟩ : ∃ answer t,
      (fs.writeFile r.output (unionText r sources)).run s = (answer, t) := ⟨_, _, rfl⟩
  rw [wrote]
  cases answer with
  | error e => exact ⟨rfl, rfl⟩
  | ok _ =>
    refine ⟨rfl, Outcome.result_eq_ok_iff.2 ⟨rfl, ?_⟩⟩
    exact congrArg (· ++ [r.output]) generated

end MessageCatalog.Command.Convert
