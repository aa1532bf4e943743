import Mathlib.Data.List.Basic
import Mathlib.Tactic.Lemma
import MessageCatalog.Command.Extract
import MessageCatalog.Proofs.Command.Plan

/-!
# Extracting file by file

What a file offers does not depend on what was found before it: its messages in order, and what is
wrong with it. So files can be looked at on their own, and what was found in them joined in their
order; of several messages with one id the first is kept either way.
-/

namespace MessageCatalog

namespace Extraction

/-! ## Adding messages -/

/-- Messages are added one by one. -/
lemma addAll_cons (e : Extraction) (m : Message) (messages : List Message) :
    e.addAll (m :: messages) = (e.add m).addAll messages := rfl

/-- What is added later comes after what is added first. -/
lemma addAll_append (e : Extraction) (first later : List Message) :
    e.addAll (first ++ later) = (e.addAll first).addAll later :=
  List.foldl_append

/-- The id of a message that is added has been seen. -/
lemma mem_seenIds_add {e : Extraction} {m : Message} {id : String} :
    id ∈ (e.add m).seenIds ↔ id ∈ e.seenIds ∨ id = m.id := by
  rw [add, List.mem_insert_iff, or_comm]

/-- The ids of all messages that are added have been seen. -/
lemma mem_seenIds_addAll {e : Extraction} {messages : List Message} {id : String} :
    id ∈ (e.addAll messages).seenIds ↔ id ∈ e.seenIds ∨ id ∈ messages.map Message.id := by
  induction messages generalizing e with
  | nil => simp [addAll]
  | cons m messages ih =>
    rw [addAll_cons, ih, mem_seenIds_add, List.map_cons, List.mem_cons, or_assoc]

/-- A message whose id was seen changes nothing. -/
lemma add_of_seen {e : Extraction} {m : Message} (seen : m.id ∈ e.seenIds) : e.add m = e := by
  rw [add, if_pos seen, List.insert_of_mem seen]

/-- A message adds its id unless that has been seen. -/
lemma ids_add (e : Extraction) (m : Message) :
    (e.add m).ids = if m.id ∈ e.seenIds then e.ids else e.ids ++ [m.id] := by
  rw [ids, add]
  split
  case isTrue => rfl
  case isFalse => exact List.map_append

/-- No two messages have one id, and the ids that were seen are those of the messages. -/
structure Consistent (e : Extraction) : Prop where
  nodup : e.ids.Nodup
  seen : ∀ id, id ∈ e.seenIds ↔ id ∈ e.ids

/-- Nothing was found and nothing was seen. -/
lemma Consistent.empty : Consistent {} := ⟨List.nodup_nil, fun _ => Iff.rfl⟩

/-- Adding a message keeps what was found and what was seen in step. -/
lemma Consistent.add {e : Extraction} (h : e.Consistent) (m : Message) :
    (e.add m).Consistent := by
  by_cases seen : m.id ∈ e.seenIds
  · rw [add_of_seen seen]
    exact h
  · have new : m.id ∉ e.ids := fun there => seen ((h.seen m.id).2 there)
    have ids : (e.add m).ids = e.ids ++ [m.id] := by rw [ids_add, if_neg seen]
    constructor
    case nodup =>
      rw [ids, List.nodup_append]
      refine ⟨h.nodup, List.pairwise_singleton _ _, ?_⟩
      rintro old hold _ hnew rfl
      cases List.mem_singleton.1 hnew
      exact new hold
    case seen =>
      intro id
      rw [mem_seenIds_add, ids, h.seen, List.mem_append, List.mem_singleton]

/-- Adding messages keeps what was found and what was seen in step. -/
lemma Consistent.addAll {e : Extraction} (h : e.Consistent) (messages : List Message) :
    (e.addAll messages).Consistent :=
  List.foldlRecOn messages _ h fun _ h m _ => h.add m

/-- After messages were added, their ids are among those found. -/
lemma mem_ids_addAll {e : Extraction} (h : e.Consistent) {messages : List Message} {id : String} :
    id ∈ (e.addAll messages).ids ↔ id ∈ e.ids ∨ id ∈ messages.map Message.id := by
  rw [← (h.addAll messages).seen, mem_seenIds_addAll, h.seen]

/-- A message that is left out of a collection is left out wherever that is added. -/
lemma addAll_add (e : Extraction) {found : Extraction} (h : found.Consistent) (m : Message) :
    e.addAll (found.add m).messages = (e.addAll found.messages).add m := by
  by_cases seen : m.id ∈ found.seenIds
  · have there : m.id ∈ (e.addAll found.messages).seenIds :=
      mem_seenIds_addAll.2 (.inr ((h.seen m.id).1 seen))
    rw [add_of_seen seen, add_of_seen there]
  · rw [add, if_neg seen]
    exact addAll_append e found.messages [m]

/-- Messages can be collected on their own before they are added. -/
lemma addAll_addAll (e : Extraction) {found : Extraction} (h : found.Consistent)
    (messages : List Message) :
    e.addAll (found.addAll messages).messages = (e.addAll found.messages).addAll messages := by
  induction messages generalizing found with
  | nil => rfl
  | cons m messages ih =>
    rw [addAll_cons, addAll_cons, ih (h.add m), addAll_add e h]

/-! ## What a file offers -/

/-- The messages of call sites. -/
def offered (outcomes : List (Except CallSiteError Message)) : List Message :=
  outcomes.filterMap Except.toOption

/-- What is wrong with call sites. -/
def faults (path : String) (outcomes : List (Except CallSiteError Message)) : Diagnostics :=
  outcomes.flatMap fun
    | .ok _ => []
    | .error e => Diagnostics.error [] (path ++ ": " ++ e.message)

/-- Taking call sites adds their messages, and what is wrong with them, in order. -/
lemma foldl_take (path : String) (outcomes : List (Except CallSiteError Message))
    (e : Extraction) (ds : Diagnostics) :
    outcomes.foldl (take path) (e, ds) =
      (e.addAll (offered outcomes), ds ++ faults path outcomes) := by
  induction outcomes generalizing e ds with
  | nil => simp [offered, faults, addAll]
  | cons outcome outcomes ih =>
    cases outcome with
    | ok m =>
      rw [List.foldl_cons, take, ih]
      rfl
    | error fault =>
      have none : offered (.error fault :: outcomes) = offered outcomes := rfl
      rw [List.foldl_cons, take, ih, none]
      simp [faults, Diagnostics.error, Diagnostics.add]

/-- What is found in a file is what is found in it on its own, added to what was found before. -/
lemma extract_eq (e : Extraction) (file : FileText) (ds : Diagnostics) :
    e.extract file ds =
      (e.addAll (extract {} file []).1.messages, ds ++ (extract {} file []).2) := by
  rw [extract, extract]
  split
  case isFalse => simp [addAll]
  case isTrue =>
    rw [scan, scan]
    cases Script.read (.ofPath file.path) file.contents.toList with
    | error refusal => simp [takeScript, addAll, Diagnostics.warn, Diagnostics.add]
    | ok script =>
      rw [takeScript, takeScript, foldl_take, foldl_take, addAll_addAll e .empty]
      simp [addAll]

end Extraction

namespace Command

namespace Extract

/-- The messages and the diagnostics of files are merged independently of each other. -/
lemma foldl_merge (found : List Findings) (e : Extraction) (ds : Diagnostics) :
    found.foldl (fun s f => (s.1.addAll f.messages, s.2 ++ f.diagnostics)) (e, ds) =
      (found.foldl (fun e f => e.addAll f.messages) e,
        ds ++ found.flatMap Findings.diagnostics) := by
  induction found generalizing e ds with
  | nil => simp
  | cons f found ih => simp [ih]

/-- The command reports what is wrong with each source file, in order. -/
lemma reported_filePlan (r : ExtractRequest) (found : List Findings) :
    (filePlan r found).reported = found.flatMap Findings.diagnostics := by
  have opening : (found.flatMap openingActions).flatMap Action.reported =
      found.flatMap Findings.diagnostics := by
    rw [List.flatMap_assoc]
    refine List.flatMap_congr fun f _ => ?_
    simp [openingActions, Action.reported]
  rw [filePlan]
  split
  case isTrue => exact opening
  case isFalse =>
    rw [Plan.reported, List.flatMap_append, opening]
    exact List.append_nil _

/-- Files that are looked at one by one, and whose findings are joined in their order, give the
messages and the diagnostics of one run over all of them; and these are what the command writes to
one output file and reports. -/
theorem merged_findings (files : List FileText) :
    let found := files.map fun file => findings ⟨file.path, .ok file.contents⟩
    let together := files.foldl (fun s file => s.1.extract file s.2)
      (({}, []) : Extraction × Diagnostics)
    found.foldl (fun s f => (s.1.addAll f.messages, s.2 ++ f.diagnostics)) ({}, []) = together ∧
      allMessages found = together.1.messages ∧
      ∀ r, (filePlan r found).reported = together.2 := by
  intro found together
  have merged : found.foldl (fun s f => (s.1.addAll f.messages, s.2 ++ f.diagnostics)) ({}, []) =
      together := by
    rw [List.foldl_map]
    refine List.foldl_ext _ _ _ fun s file _ => ?_
    exact (Extraction.extract_eq s.1 file s.2).symm
  have split := foldl_merge found {} []
  rw [merged, List.nil_append] at split
  refine ⟨merged, ?_, fun r => ?_⟩
  · rw [split]
    rfl
  · rw [reported_filePlan, split]

end Extract

end Command

end MessageCatalog
