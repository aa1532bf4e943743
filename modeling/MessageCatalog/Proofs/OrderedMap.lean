import Mathlib.Data.List.Induction
import Mathlib.Data.List.Nodup
import Mathlib.Data.List.Perm.Subperm
import Mathlib.Tactic.Lemma
import MessageCatalog.OrderedMap

/-!
# Laws of ordered maps

What inserting does to the entries: a key that is there keeps its place, a new one goes to the end.
So every map of pairs has different keys, and a map of pairs with different keys is the list of
those pairs.
-/

namespace MessageCatalog.OrderedMap

variable {κ ν : Type} [DecidableEq κ]

/-- The keys of a map are those that have a value. -/
lemma contains_iff {m : OrderedMap κ ν} {k : κ} : m.contains k = true ↔ k ∈ m.keys := by
  rw [contains, get?, keys]
  induction m.entries with
  | nil => simp
  | cons entry rest ih =>
    rw [List.lookup_cons, List.map_cons, List.mem_cons]
    by_cases h : k = entry.1
    · simp [h]
    · have hk : (k == entry.1) = false := beq_eq_false_iff_ne.2 h
      rw [hk, ih, or_iff_right h]

/-- A map does not contain what is none of its keys. -/
lemma contains_eq_false {m : OrderedMap κ ν} {k : κ} (h : k ∉ m.keys) : m.contains k = false :=
  Bool.eq_false_iff.2 fun hc => h (contains_iff.1 hc)

/-- An entry with a new key goes to the end. -/
lemma insertEntry_of_not_mem {k : κ} {entries : List (κ × ν)} (h : k ∉ entries.map Prod.fst)
    (v : ν) : insertEntry k v entries = entries ++ [(k, v)] := by
  induction entries with
  | nil => rfl
  | cons entry rest ih =>
    rw [List.map_cons, List.mem_cons, not_or] at h
    rw [insertEntry, if_neg (Ne.symm h.1), ih h.2, List.cons_append]

/-- A new key goes to the end. -/
lemma insert_of_not_mem {m : OrderedMap κ ν} {k : κ} (h : k ∉ m.keys) (v : ν) :
    m.insert k v = ⟨m.entries ++ [(k, v)]⟩ := by
  rw [insert, insertEntry_of_not_mem h]

/-- Entries with different keys are inserted in the order in which they come. -/
lemma foldl_insert_of_nodup (done : List (κ × ν)) {pairs : List (κ × ν)}
    (h : ((done ++ pairs).map Prod.fst).Nodup) :
    pairs.foldl (fun m (k, v) => m.insert k v) ⟨done⟩ = (⟨done ++ pairs⟩ : OrderedMap κ ν) := by
  induction pairs generalizing done with
  | nil => rw [List.append_nil]; rfl
  | cons pair rest ih =>
    obtain ⟨k, v⟩ := pair
    have hnew : k ∉ (⟨done⟩ : OrderedMap κ ν).keys := by
      rw [List.map_append, List.nodup_append] at h
      exact fun m => h.2.2 _ m _ List.mem_cons_self rfl
    rw [List.append_cons] at h ⊢
    rw [List.foldl_cons]
    dsimp only
    rw [insert_of_not_mem hnew]
    exact ih _ h

/-- The map of pairs with different keys holds those pairs. -/
theorem ofList_of_nodup {pairs : List (κ × ν)} (h : (pairs.map Prod.fst).Nodup) :
    ofList pairs = ⟨pairs⟩ :=
  foldl_insert_of_nodup [] h

/-- An entry with a key that is there leaves the keys as they are. -/
lemma keys_insertEntry_of_mem {k : κ} {entries : List (κ × ν)} (h : k ∈ entries.map Prod.fst)
    (v : ν) : (insertEntry k v entries).map Prod.fst = entries.map Prod.fst := by
  induction entries with
  | nil => cases h
  | cons entry rest ih =>
    rw [insertEntry]
    split
    case isTrue e => rw [List.map_cons, List.map_cons, e]
    case isFalse ne =>
      rw [List.map_cons, List.mem_cons] at h
      rw [List.map_cons, List.map_cons, ih (h.resolve_left fun e => ne e.symm)]

/-- Inserting keeps the keys different. -/
lemma nodup_keys_insert {m : OrderedMap κ ν} (h : m.keys.Nodup) (k : κ) (v : ν) :
    (m.insert k v).keys.Nodup := by
  -- A key that is there keeps its place; only a new one makes the list of keys longer.
  by_cases there : k ∈ m.keys
  · rw [keys, insert, keys_insertEntry_of_mem there]
    exact h
  · rw [insert_of_not_mem there, keys, List.map_append, List.nodup_append]
    refine ⟨h, List.pairwise_singleton _ k, ?_⟩
    rintro old hold new hnew rfl
    cases List.mem_singleton.1 hnew
    exact there hold

/-- Looking up begins with the first entry. -/
lemma lookup_cons_eq_ite (k j : κ) (v : ν) (rest : List (κ × ν)) :
    ((k, v) :: rest).lookup j = if k = j then some v else rest.lookup j := by
  rw [List.lookup_cons]
  by_cases same : k = j
  · rw [if_pos same, same, beq_self_eq_true]
  · rw [if_neg same, beq_eq_false_iff_ne.2 (Ne.symm same)]

/-- An inserted entry is found under its key, and the others are as they were. -/
lemma lookup_insertEntry (k j : κ) (v : ν) (entries : List (κ × ν)) :
    (insertEntry k v entries).lookup j = if k = j then some v else entries.lookup j := by
  induction entries with
  | nil => exact lookup_cons_eq_ite k j v []
  | cons entry rest ih =>
    obtain ⟨first, old⟩ := entry
    rw [insertEntry]
    split
    case isTrue there =>
      rw [lookup_cons_eq_ite, lookup_cons_eq_ite, there]
      split <;> rfl
    case isFalse other =>
      rw [lookup_cons_eq_ite, lookup_cons_eq_ite, ih]
      split
      case isTrue here => rw [if_neg fun same => other (here.trans same.symm)]
      case isFalse => rfl

/-- The value of a key after it was set, and those of the other keys. -/
lemma get?_insert (m : OrderedMap κ ν) (k j : κ) (v : ν) :
    (m.insert k v).get? j = if k = j then some v else m.get? j :=
  lookup_insertEntry k j v m.entries

/-- After an insertion there are no entries but the new one and the old ones. -/
lemma mem_insertEntry {k : κ} {v : ν} {entries : List (κ × ν)} {entry : κ × ν}
    (h : entry ∈ insertEntry k v entries) : entry = (k, v) ∨ entry ∈ entries := by
  induction entries with
  | nil => exact .inl (List.mem_singleton.1 h)
  | cons first rest ih =>
    rw [insertEntry] at h
    split at h
    case isTrue =>
      exact (List.mem_cons.1 h).imp_right (List.mem_cons_of_mem first)
    case isFalse =>
      rcases List.mem_cons.1 h with rfl | later
      · exact .inr List.mem_cons_self
      · exact (ih later).imp_right (List.mem_cons_of_mem first)

/-- What holds of the empty map, and is kept by inserting a pair, holds of the map of pairs. -/
lemma ofList_induction {motive : OrderedMap κ ν → Prop} {pairs : List (κ × ν)} (empty : motive ∅)
    (insert : ∀ m, motive m → ∀ pair ∈ pairs, motive (m.insert pair.1 pair.2)) :
    motive (ofList pairs) :=
  List.foldlRecOn pairs _ empty insert

/-- A map of pairs has different keys. -/
theorem nodup_keys_ofList (pairs : List (κ × ν)) : (ofList pairs).keys.Nodup :=
  ofList_induction (motive := fun m => m.keys.Nodup) List.nodup_nil fun _ h pair _ =>
    nodup_keys_insert h pair.1 pair.2

/-- A map of pairs holds nothing but those pairs. -/
theorem mem_of_mem_ofList {pairs : List (κ × ν)} {entry : κ × ν}
    (h : entry ∈ (ofList pairs).entries) : entry ∈ pairs := by
  have all : ∀ entry ∈ (ofList pairs).entries, entry ∈ pairs := by
    refine ofList_induction (motive := fun m => ∀ entry ∈ m.entries, entry ∈ pairs) nofun ?_
    intro m ih pair hpair entry h
    rcases mem_insertEntry h with rfl | old
    · exact hpair
    · exact ih entry old
  exact all entry h

/-- The last pair is inserted last. -/
lemma ofList_concat (pairs : List (κ × ν)) (pair : κ × ν) :
    ofList (pairs ++ [pair]) = (ofList pairs).insert pair.1 pair.2 := by
  rw [ofList, List.foldl_append]
  rfl

/-- A map of pairs has their keys. -/
lemma contains_ofList_iff {pairs : List (κ × ν)} {k : κ} :
    (ofList pairs).contains k = true ↔ k ∈ pairs.map Prod.fst := by
  induction pairs using List.reverseRecOn with
  | nil => exact iff_of_false Bool.false_ne_true List.not_mem_nil
  | append_singleton pairs pair ih =>
    rw [ofList_concat, contains, get?_insert, List.map_append, List.mem_append, ← ih,
      List.map_singleton, List.mem_singleton]
    split
    case isTrue same => exact iff_of_true rfl (.inr same.symm)
    case isFalse other => exact (or_iff_left fun same => other same.symm).symm

/-- A map has at most as many entries as it was made of. -/
lemma length_ofList_le (pairs : List (κ × ν)) : (ofList pairs).entries.length ≤ pairs.length := by
  have distinct : (ofList pairs).entries.Nodup := List.Nodup.of_map _ (nodup_keys_ofList pairs)
  exact (distinct.subperm fun _ h => mem_of_mem_ofList h).length_le

/-- Pairs with different keys are found under their keys. -/
lemma get?_ofList_of_nodup {pairs : List (κ × ν)} (h : (pairs.map Prod.fst).Nodup) {k : κ} {v : ν}
    (there : (k, v) ∈ pairs) : (ofList pairs).get? k = some v := by
  rw [ofList_of_nodup h, get?]
  induction pairs with
  | nil => cases there
  | cons pair rest ih =>
    obtain ⟨k', v'⟩ := pair
    rw [List.map_cons, List.nodup_cons] at h
    rw [lookup_cons_eq_ite]
    cases there with
    | head => exact if_pos rfl
    | tail _ later =>
      have other : k' ≠ k := by
        rintro rfl
        exact h.1 (List.mem_map.2 ⟨_, later, rfl⟩)
      rw [if_neg other]
      exact ih h.2 later

/-! ## Adding only new keys -/

/-- A key is added when it is new. -/
lemma keys_insertNew (m : OrderedMap κ ν) (k : κ) (v : ν) :
    (m.insertNew k v).keys = if k ∈ m.keys then m.keys else m.keys ++ [k] := by
  rw [insertNew]
  by_cases there : k ∈ m.keys
  · rw [if_pos there, if_pos (contains_iff.2 there)]
  · rw [if_neg there, if_neg fun h => there (contains_iff.1 h), keys, List.map_append]
    rfl

/-- A key that is there keeps its value. -/
lemma get?_insertNew (m : OrderedMap κ ν) (k j : κ) (v : ν) :
    (m.insertNew k v).get? j = (m.get? j).or (if k = j then some v else none) := by
  rw [insertNew]
  by_cases there : m.contains k = true
  · rw [if_pos there]
    by_cases same : k = j
    · rw [← same, Option.or_of_isSome there]
    · rw [if_neg same, Option.or_none]
  · rw [if_neg there, get?, get?, List.lookup_append, lookup_cons_eq_ite]
    rfl

section Fold

variable {pairs : List (κ × ν)}

/-- New keys go to the end in the order in which they first occur. -/
lemma keys_foldl_insertNew (m : OrderedMap κ ν) :
    (pairs.foldl (fun m (k, v) => m.insertNew k v) m).keys =
      m.keys ++ ((pairs.map Prod.fst).filter (· ∉ m.keys)).eraseDups := by
  induction pairs generalizing m with
  | nil => exact (List.append_nil _).symm
  | cons pair rest ih =>
    obtain ⟨k, v⟩ := pair
    rw [List.foldl_cons, ih, keys_insertNew, List.map_cons]
    by_cases there : k ∈ m.keys
    · rw [if_pos there, List.filter_cons_of_neg (by simpa using there)]
    · rw [if_neg there, List.filter_cons_of_pos (by simpa using there), List.eraseDups_cons,
        List.filter_filter, List.append_assoc, List.singleton_append]
      congr 3
      refine List.filter_congr fun j _ => ?_
      rw [Bool.eq_iff_iff]
      simp [and_comm, not_or]

/-- Of entries with one key the first is kept, and it stands behind what was there before. -/
lemma get?_foldl_insertNew (m : OrderedMap κ ν) (j : κ) :
    (pairs.foldl (fun m (k, v) => m.insertNew k v) m).get? j =
      (m.get? j).or (pairs.lookup j) := by
  induction pairs generalizing m with
  | nil => exact (Option.or_none).symm
  | cons pair rest ih =>
    obtain ⟨k, v⟩ := pair
    rw [List.foldl_cons, ih, get?_insertNew, lookup_cons_eq_ite, Option.or_assoc]
    split <;> simp

/-- Each entry is the one that its key finds. -/
lemma get?_of_mem_foldl_insertNew {m : OrderedMap κ ν}
    (found : ∀ entry ∈ m.entries, m.get? entry.1 = some entry.2) :
    ∀ entry ∈ (pairs.foldl (fun m (k, v) => m.insertNew k v) m).entries,
      (pairs.foldl (fun m (k, v) => m.insertNew k v) m).get? entry.1 = some entry.2 := by
  induction pairs generalizing m with
  | nil => exact found
  | cons pair rest ih =>
    obtain ⟨k, v⟩ := pair
    refine ih fun entry h => ?_
    change entry ∈ (m.insertNew k v).entries at h
    rw [get?_insertNew]
    rw [insertNew] at h
    split at h
    case isTrue => rw [found entry h, Option.some_or]
    case isFalse new =>
      obtain old | added := List.mem_append.1 h
      · rw [found entry old, Option.some_or]
      · cases List.mem_singleton.1 added
        rw [Option.not_isSome_iff_eq_none.1 new, if_pos rfl, Option.none_or]

end Fold

end MessageCatalog.OrderedMap
