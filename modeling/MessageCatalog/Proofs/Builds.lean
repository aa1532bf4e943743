import MessageCatalog.BundleName
import MessageCatalog.Proofs.Command.Directory
import MessageCatalog.Proofs.Path

/-!
# Builds of a bundle

Builds of a bundle lie in one directory, and their names are the same but for the language level.
Of each bundle the first build is kept. That is what is done for files in directories whose own
names have no language level in them, as long as no directory is spelled in two ways.
-/

namespace MessageCatalog

namespace BundleName

variable {marks : List (List Char)} {put : List Char}

/-! ## Marks in a text -/

/-- Whether one of some marks stands in a text. -/
def Occurs (marks : List (List Char)) (text : List Char) : Prop := ∃ m ∈ marks, m <:+: text

instance (marks : List (List Char)) (text : List Char) : Decidable (Occurs marks text) :=
  inferInstanceAs (Decidable (∃ m ∈ marks, _))

/-- Whether a character stands in no mark, unless it is the first of one. -/
def Bounds (marks : List (List Char)) (c : Char) : Prop := ∀ m ∈ marks, m ≠ [] ∧ c ∉ m.tail

instance (marks : List (List Char)) (c : Char) : Decidable (Bounds marks c) :=
  inferInstanceAs (Decidable (∀ m ∈ marks, _))

/-- A mark does not go over such a character. -/
lemma prefix_of_prefix_append_cons {mark front rest : List Char} {c : Char} (hc : c ∉ mark.tail)
    (some : front ≠ []) (h : mark <+: front ++ c :: rest) : mark <+: front := by
  rcases Nat.lt_or_ge front.length mark.length with longer | short
  · have beyond : front ++ [c] <+: mark := by
      apply List.prefix_of_prefix_length_le _ h
      · rw [List.length_append]
        exact longer
      · rw [List.append_cons front c rest]
        exact List.prefix_append _ _
    obtain ⟨more, rfl⟩ := beyond
    cases front with
    | nil => exact absurd rfl some
    | cons d front => simp at hc
  · exact List.prefix_of_prefix_length_le h (List.prefix_append _ _) short

/-- Whether a mark stands at a front does not depend on what comes behind it from a character on
that the mark does not hold. -/
lemma dropLead?_append_cons {mark front rest : List Char} {c : Char} (hc : c ∉ mark.tail)
    (some : front ≠ []) :
    Text.dropLead? mark (front ++ c :: rest) =
      (Text.dropLead? mark front).map (· ++ c :: rest) := by
  cases dropped : Text.dropLead? mark front with
  | some after =>
    rw [Text.eq_append_of_dropLead? dropped, List.append_assoc, Text.dropLead?_append]
    rfl
  | none =>
    rw [Text.dropLead?_eq_none_iff] at dropped
    exact Text.dropLead?_eq_none_iff.2 fun h => dropped (prefix_of_prefix_append_cons hc some h)

/-- What stands in front of a text without a mark there is left as it is. -/
lemma replaceFirst_cons {c : Char} {text : List Char} (h : ∀ m ∈ marks, ¬ m <+: c :: text) :
    replaceFirst marks put (c :: text) = c :: replaceFirst marks put text := by
  have none : marks.findSome? (Text.dropLead? · (c :: text)) = none :=
    List.findSome?_eq_none_iff.2 fun m hm => Text.dropLead?_eq_none_iff.2 (h m hm)
  rw [replaceFirst, none]

/-- A mark occurs further on when none begins here. -/
lemma occurs_cons_iff {c : Char} {text : List Char} (h : ∀ m ∈ marks, ¬ m <+: c :: text) :
    Occurs marks (c :: text) ↔ Occurs marks text := by
  constructor
  · rintro ⟨m, hm, inside⟩
    exact ⟨m, hm, (List.infix_cons_iff.1 inside).resolve_left (h m hm)⟩
  · rintro ⟨m, hm, inside⟩
    exact ⟨m, hm, List.infix_cons inside⟩

/-- A text without a mark is left as it is. -/
lemma replaceFirst_eq_self {text : List Char} (h : ¬ Occurs marks text) :
    replaceFirst marks put text = text := by
  induction text with
  | nil => rfl
  | cons c text ih =>
    have front : ∀ m ∈ marks, ¬ m <+: c :: text := fun m hm lead => h ⟨m, hm, lead.isInfix⟩
    rw [replaceFirst_cons front, ih]
    rwa [← occurs_cons_iff front]

variable {front rest : List Char} {c : Char}

/-- Behind a front without a mark a text is looked through on its own. -/
lemma replaceFirst_append_of_not_occurs (bounds : Bounds marks c) (h : ¬ Occurs marks front) :
    replaceFirst marks put (front ++ c :: rest) = front ++ replaceFirst marks put (c :: rest) := by
  induction front with
  | nil => rfl
  | cons d front ih =>
    have clear : ∀ m ∈ marks, ¬ m <+: d :: front := fun m hm lead => h ⟨m, hm, lead.isInfix⟩
    have clear' : ∀ m ∈ marks, ¬ m <+: d :: (front ++ c :: rest) := fun m hm lead =>
      clear m hm (prefix_of_prefix_append_cons (bounds m hm).2 (List.cons_ne_nil d front) lead)
    rw [List.cons_append, replaceFirst_cons clear', ih, List.cons_append]
    rwa [← occurs_cons_iff clear]

/-- Behind a front with a mark a text is left as it is. -/
lemma replaceFirst_append_of_occurs (bounds : Bounds marks c) (h : Occurs marks front) :
    replaceFirst marks put (front ++ c :: rest) = replaceFirst marks put front ++ c :: rest := by
  induction front with
  | nil =>
    obtain ⟨m, hm, inside⟩ := h
    exact absurd (List.infix_nil.1 inside) (bounds m hm).1
  | cons d front ih =>
    have found : marks.findSome? (Text.dropLead? · (d :: (front ++ c :: rest))) =
        (marks.findSome? (Text.dropLead? · (d :: front))).map (· ++ c :: rest) := by
      rw [List.map_findSome?, ← List.head?_filterMap, ← List.head?_filterMap]
      refine congrArg List.head? (List.filterMap_congr fun m hm => ?_)
      exact dropLead?_append_cons (bounds m hm).2 (List.cons_ne_nil d front)
    rw [List.cons_append, replaceFirst, found]
    cases here : marks.findSome? (Text.dropLead? · (d :: front)) with
    | some after =>
      rw [replaceFirst, here]
      exact (List.append_assoc _ _ _).symm
    | none =>
      rw [replaceFirst, here]
      have clear : ∀ m ∈ marks, ¬ m <+: d :: front := fun m hm =>
        Text.dropLead?_eq_none_iff.1 (List.findSome?_eq_none_iff.1 here m hm)
      exact congrArg (d :: ·) (ih ((occurs_cons_iff clear).1 h))

/-- Nothing is put into a text but what stands for a mark. -/
lemma subset_replaceFirst (marks : List (List Char)) (put text : List Char) :
    replaceFirst marks put text ⊆ put ++ text := by
  induction text with
  | nil => exact List.nil_subset _
  | cons c text ih =>
    rw [replaceFirst]
    split
    case h_1 rest found =>
      obtain ⟨m, -, dropped⟩ := List.exists_of_findSome?_eq_some found
      rw [Text.eq_append_of_dropLead? dropped]
      intro d hd
      rcases List.mem_append.1 hd with inside | behind
      · exact List.mem_append_left _ inside
      · exact List.mem_append_right _ (List.mem_append_right _ behind)
    case h_2 =>
      intro d hd
      rcases List.mem_cons.1 hd with rfl | later
      · exact List.mem_append_right _ List.mem_cons_self
      · rcases List.mem_append.1 (ih later) with inside | behind
        · exact List.mem_append_left _ inside
        · exact List.mem_append_right _ (List.mem_cons_of_mem _ behind)

/-! ## Keys of paths -/

/-- The marks of levels that stand before a dot. -/
def dottedLevels : List (List Char) := levels.map (· ++ ['.'])

/-- The key of a path is its text with a dot in place of the first level and its dot. -/
lemma toList_key (path : String) :
    (key path).toList = replaceFirst dottedLevels ['.'] path.toList :=
  String.toList_ofList

/-- All marks begin with a hyphen. -/
lemma head?_of_mem_dottedLevels : ∀ m ∈ dottedLevels, m.head? = some '-' := by decide

/-- No mark has a separator in it. -/
lemma separator_not_mem_of_mem_dottedLevels : ∀ m ∈ dottedLevels, '/' ∉ m := by decide

/-- No mark begins at a separator. -/
lemma not_prefix_separator {m text : List Char} (hm : m ∈ dottedLevels) : ¬ m <+: '/' :: text := by
  rintro ⟨rest, same⟩
  have dash := head?_of_mem_dottedLevels m hm
  have slash := congrArg List.head? same
  rw [List.head?_append, dash] at slash
  cases slash

/-- A separator at the end of a text belongs to no mark. -/
lemma occurs_concat_separator (text : List Char) :
    Occurs dottedLevels (text ++ ['/']) ↔ Occurs dottedLevels text := by
  constructor
  · rintro ⟨m, hm, inside⟩
    refine ⟨m, hm, (List.infix_concat_iff.1 inside).resolve_left fun atEnd => ?_⟩
    cases m with
    | nil => cases head?_of_mem_dottedLevels [] hm
    | cons d m =>
      have last := atEnd.getLast (List.cons_ne_nil d m)
      rw [List.getLast_concat] at last
      exact separator_not_mem_of_mem_dottedLevels _ hm (last ▸ List.getLast_mem _)
  · rintro ⟨m, hm, inside⟩
    exact ⟨m, hm, inside.trans (List.prefix_append _ _).isInfix⟩

/-- A directory has a mark exactly when it has one in front of what lies in it. -/
lemma occurs_lead_iff (directory : String) :
    Occurs dottedLevels (Path.lead directory).toList ↔ Occurs dottedLevels directory.toList := by
  rw [Path.lead_eq]
  split
  case isTrue empty => rw [String.isEmpty_iff.1 empty]
  case isFalse =>
    split
    case isTrue => rfl
    case isFalse =>
      rw [String.toList_append]
      exact occurs_concat_separator directory.toList

variable {directory name : String}

/-- The text of a file behind that of its directory. -/
lemma toList_join {front : List Char} (h : Path.IsFileName name)
    (chars : (Path.lead directory).toList = front ++ ['/']) :
    (Path.join directory name).toList = front ++ '/' :: name.toList := by
  rw [h.join_eq, String.toList_append, chars, List.append_assoc, List.singleton_append]

/-- Where the directory has no mark, the first mark is that of the name. -/
lemma key_join (h : Path.IsFileName name) (unmarked : ¬ Occurs dottedLevels directory.toList) :
    key (Path.join directory name) = Path.lead directory ++ key name := by
  rw [← String.toList_inj, String.toList_append, toList_key, toList_key]
  rw [← occurs_lead_iff] at unmarked
  obtain ⟨-, none⟩ | ⟨-, front, chars⟩ := Path.lead_cases directory
  · rw [h.join_eq, none, String.empty_append]
    rfl
  · rw [chars, occurs_concat_separator] at unmarked
    rw [toList_join h chars, chars, replaceFirst_append_of_not_occurs (by decide) unmarked,
      replaceFirst_cons fun m hm => not_prefix_separator hm, List.append_assoc,
      List.singleton_append]

/-- Where the directory has a mark, that of the name is not the first. -/
lemma exists_key_join (marked : Occurs dottedLevels directory.toList) :
    ∃ before, ∀ name, Path.IsFileName name → key (Path.join directory name) = before ++ name := by
  rw [← occurs_lead_iff] at marked
  obtain ⟨-, none⟩ | ⟨-, front, chars⟩ := Path.lead_cases directory
  · rw [none] at marked
    exact absurd marked (by decide)
  · rw [chars, occurs_concat_separator] at marked
    refine ⟨String.ofList (replaceFirst dottedLevels ['.'] front ++ ['/']), fun name h => ?_⟩
    rw [← String.toList_inj, toList_key, toList_join h chars,
      replaceFirst_append_of_occurs (by decide) marked, String.toList_append,
      String.toList_ofList, List.append_assoc, List.singleton_append]

/-! ## The first of each kind -/

section

variable (alike : String → String → Prop) [DecidableRel alike]

/-- The paths that are not like any before them, in order. -/
def firstOf (paths : List String) : List String :=
  (paths.zipIdx.filter fun (entry : String × Nat) =>
    decide (∀ earlier ∈ paths.take entry.2, ¬ alike earlier entry.1)).map Prod.fst

/-- The last path is kept when none before it is like it. -/
lemma firstOf_concat (paths : List String) (path : String) :
    firstOf alike (paths ++ [path]) =
      firstOf alike paths ++ if ∃ earlier ∈ paths, alike earlier path then [] else [path] := by
  -- What stands before a path is not changed by one at the end.
  have front : paths.zipIdx.filter (fun (entry : String × Nat) =>
      decide (∀ earlier ∈ (paths ++ [path]).take entry.2, ¬ alike earlier entry.1)) =
        paths.zipIdx.filter fun (entry : String × Nat) =>
          decide (∀ earlier ∈ paths.take entry.2, ¬ alike earlier entry.1) := by
    refine List.filter_congr fun entry h => ?_
    have place : entry.2 ≤ paths.length := by
      have bound := List.snd_lt_of_mem_zipIdx h
      omega
    rw [List.take_append_of_le_length place]
  have last : ([path].zipIdx paths.length).filter (fun (entry : String × Nat) =>
      decide (∀ earlier ∈ (paths ++ [path]).take entry.2, ¬ alike earlier entry.1)) =
        if ∃ earlier ∈ paths, alike earlier path then [] else [(path, paths.length)] := by
    rw [List.zipIdx_singleton, List.filter_singleton, List.take_left]
    by_cases known : ∃ earlier ∈ paths, alike earlier path
    · rw [if_pos known, decide_eq_false, cond_false]
      simpa using known
    · rw [if_neg known, decide_eq_true, cond_true]
      simpa using known
  rw [firstOf, List.zipIdx_append, List.filter_append, List.map_append, front, ← firstOf,
    Nat.zero_add, last]
  split <;> rfl

variable {alike}

/-- Only what the relation says of the paths themselves matters. -/
lemma firstOf_congr {alike' : String → String → Prop} [DecidableRel alike'] {paths : List String}
    (h : ∀ p ∈ paths, ∀ q ∈ paths, alike p q ↔ alike' p q) :
    firstOf alike paths = firstOf alike' paths := by
  refine congrArg (List.map Prod.fst) (List.filter_congr fun entry member => ?_)
  have inside := List.fst_mem_of_mem_zipIdx member
  simp only [decide_eq_decide]
  refine forall₂_congr fun earlier before => not_congr (h earlier ?_ entry.1 inside)
  exact List.mem_of_mem_take before

end

/-- Two paths with one key. -/
def SameKey (p q : String) : Prop := key p = key q

instance : DecidableRel SameKey := fun _ _ => inferInstanceAs (Decidable (_ = _))

/-- The last path is kept when its key is neither among those seen nor that of a path before it. -/
lemma dedupFrom_concat (seen paths : List String) (path : String) :
    dedupFrom seen (paths ++ [path]) =
      dedupFrom seen paths ++
        if key path ∈ seen ∨ key path ∈ paths.map key then [] else [path] := by
  induction paths generalizing seen with
  | nil =>
    rw [List.nil_append, dedupFrom, List.map_nil]
    simp only [List.not_mem_nil, or_false]
    rfl
  | cons first paths ih =>
    rw [List.cons_append, dedupFrom, dedupFrom, List.map_cons]
    split
    case isTrue known =>
      have same : key path ∈ seen ∨ key path ∈ paths.map key ↔
          key path ∈ seen ∨ key path ∈ key first :: paths.map key := by
        rw [List.mem_cons, or_left_comm]
        refine (or_iff_right_of_imp fun again => ?_).symm
        exact .inl (again ▸ known)
      rw [ih]
      simp only [same]
    case isFalse =>
      rw [ih, List.cons_append]
      simp only [List.mem_cons, or_assoc, or_left_comm]

/-- The first path with each key is kept. -/
lemma dedup_eq (paths : List String) : dedup paths = firstOf SameKey paths := by
  induction paths using List.reverseRecOn with
  | nil => rfl
  | append_singleton paths path ih =>
    have known : (key path ∈ ([] : List String) ∨ key path ∈ paths.map key) ↔
        ∃ earlier ∈ paths, SameKey earlier path := by
      rw [or_iff_right List.not_mem_nil, List.mem_map]
      rfl
    rw [dedup, dedupFrom_concat, ← dedup, ih, firstOf_concat]
    simp only [known]

/-- What is kept stands in the order in which it was given. -/
lemma sublist_dedupFrom (seen paths : List String) : (dedupFrom seen paths).Sublist paths := by
  induction paths generalizing seen with
  | nil => exact .slnil
  | cons path paths ih =>
    rw [dedupFrom]
    split
    case isTrue => exact .cons path (ih _)
    case isFalse => exact .cons_cons path (ih _)

/-- What is kept has different keys, and none of those that were seen. -/
lemma nodup_keys_dedupFrom (seen paths : List String) :
    ((dedupFrom seen paths).map key).Nodup ∧ ∀ path ∈ dedupFrom seen paths, key path ∉ seen := by
  induction paths generalizing seen with
  | nil => exact ⟨.nil, List.forall_mem_nil _⟩
  | cons path paths ih =>
    rw [dedupFrom]
    split
    case isTrue => exact ih seen
    case isFalse new =>
      obtain ⟨nodup, later⟩ := ih (key path :: seen)
      refine ⟨?_, List.forall_mem_cons.2 ⟨new, fun p hp => ?_⟩⟩
      · rw [List.map_cons, List.nodup_cons]
        refine ⟨fun again => ?_, nodup⟩
        obtain ⟨p, hp, same⟩ := List.mem_map.1 again
        exact later p hp (same ▸ List.mem_cons_self)
      · exact fun known => later p hp (List.mem_cons_of_mem _ known)

/-- Paths with different keys are all kept. -/
lemma dedupFrom_eq_self {seen paths : List String} (nodup : (paths.map key).Nodup)
    (new : ∀ path ∈ paths, key path ∉ seen) : dedupFrom seen paths = paths := by
  induction paths generalizing seen with
  | nil => rfl
  | cons path paths ih =>
    obtain ⟨first, later⟩ := List.forall_mem_cons.1 new
    rw [List.map_cons, List.nodup_cons] at nodup
    rw [dedupFrom, if_neg first, ih nodup.2]
    intro p hp known
    rcases List.mem_cons.1 known with same | known
    · exact nodup.1 (same ▸ List.mem_map_of_mem hp)
    · exact later p hp known

/-- No two of the paths that are kept have the same key. -/
lemma nodup_keys_dedup (paths : List String) : ((dedup paths).map key).Nodup :=
  (nodup_keys_dedupFrom [] paths).1

/-- Of paths that are kept no two are related in a way that paths with different keys are not. -/
lemma pairwise_dedup {paths : List String} {R : String → String → Prop}
    (h : ∀ p ∈ paths, ∀ q ∈ paths, R p q → SameKey p q) :
    (dedup paths).Pairwise fun p q => ¬ R p q := by
  have keys := nodup_keys_dedup paths
  rw [List.nodup_iff_pairwise_ne, List.pairwise_map] at keys
  have inside := (sublist_dedupFrom [] paths).subset
  refine keys.imp_of_mem fun {p q} hp hq apart related => ?_
  exact apart (h p (inside hp) q (inside hq) related)

/-- What was kept is kept again. -/
lemma dedup_dedup (paths : List String) : dedup (dedup paths) = dedup paths :=
  dedupFrom_eq_self (nodup_keys_dedup paths) fun _ _ => List.not_mem_nil

/-! ## Builds of a bundle -/

/-- Two builds of a bundle lie in one directory, and have one name but for the level. -/
def SameBundle (p q : String) : Prop :=
  (Path.parent? p).map Path.components = (Path.parent? q).map Path.components ∧
    (Path.fileName? p).map key = (Path.fileName? q).map key

instance : DecidableRel SameBundle := fun _ _ => inferInstanceAs (Decidable (_ ∧ _))

variable {d e m n : String}

/-- Files are builds of one bundle when they lie in the same directory and their names have one
key. -/
lemma sameBundle_join_iff (hm : Path.IsFileName m) (hn : Path.IsFileName n) :
    SameBundle (Path.join d m) (Path.join e n) ↔
      Path.same d e = true ∧ key m = key n := by
  rw [SameBundle, Path.parent?_join hm, Path.parent?_join hn, Path.fileName?_join hm,
    Path.fileName?_join hn, Path.same_iff]
  simp only [Option.map_some, Option.some.injEq]

/-- The key of a file name has no separator. -/
lemma separator_not_mem_key (h : Path.IsFileName n) : '/' ∉ (key n).toList := by
  intro inside
  rw [toList_key] at inside
  rcases List.mem_append.1 (subset_replaceFirst dottedLevels ['.'] n.toList inside) with dot | own
  · cases List.mem_singleton.1 dot
  · exact h.separator_not_mem own

/-- In directories without a mark files have the same key when what leads to them is the same and
their names have the same key. -/
lemma sameKey_join_iff (hm : Path.IsFileName m) (hn : Path.IsFileName n)
    (unmarked : ¬ Occurs dottedLevels d.toList) (unmarked' : ¬ Occurs dottedLevels e.toList) :
    SameKey (Path.join d m) (Path.join e n) ↔ Path.lead d = Path.lead e ∧ key m = key n := by
  rw [SameKey, key_join hm unmarked, key_join hn unmarked']
  exact Path.lead_append_inj (separator_not_mem_key hm) (separator_not_mem_key hn)

/-- Whether a path is that of a file in one of some directories. -/
def LiesIn (directories : List String) (path : String) : Prop :=
  ∃ d ∈ directories, ∃ name, Path.IsFileName name ∧ path = Path.join d name

/-- Of some paths the first build of each bundle is kept, and what is kept is kept again. -/
structure KeepsFirstBuilds (paths : List String) : Prop where
  kept : dedup paths = firstOf SameBundle paths
  apart : (dedup paths).Pairwise (¬ SameBundle · ·)
  again : dedup (dedup paths) = dedup paths

/-- Directories without a language level, each of them written in one way. -/
structure Plain (directories : List String) : Prop where
  unmarked : ∀ d ∈ directories, ¬ Occurs dottedLevels d.toList
  alike : ∀ d ∈ directories, ∀ e ∈ directories, Path.same d e = true → Path.lead d = Path.lead e

/-- In plain directories paths have the same key exactly when they are builds of one bundle. -/
lemma Plain.sameKey_iff {directories : List String} (plain : Plain directories) {p q : String}
    (hp : LiesIn directories p) (hq : LiesIn directories q) : SameKey p q ↔ SameBundle p q := by
  obtain ⟨d, hd, m, hm, rfl⟩ := hp
  obtain ⟨e, he, n, hn, rfl⟩ := hq
  rw [sameBundle_join_iff hm hn,
    sameKey_join_iff hm hn (plain.unmarked d hd) (plain.unmarked e he)]
  refine and_congr_left fun _ => ⟨fun same => ?_, plain.alike d hd e he⟩
  rw [Path.same_iff, ← Path.components_lead, same, Path.components_lead]

/-- In plain directories one file is kept of each bundle. -/
lemma Plain.keepsFirstBuilds {directories paths : List String} (plain : Plain directories)
    (h : ∀ p ∈ paths, LiesIn directories p) : KeepsFirstBuilds paths where
  kept := by
    rw [dedup_eq]
    exact firstOf_congr fun p hp q hq => plain.sameKey_iff (h p hp) (h q hq)
  apart := pairwise_dedup fun p hp q hq => (plain.sameKey_iff (h p hp) (h q hq)).2
  again := dedup_dedup paths

/-- Two builds of a bundle with different keys are both kept. -/
lemma not_keepsFirstBuilds {p q : String} (different : ¬ SameKey p q) (same : SameBundle p q) :
    ¬ KeepsFirstBuilds [p, q] := by
  intro keeps
  have both : dedup [p, q] = [p, q] := by
    refine dedupFrom_eq_self ?_ fun _ _ => List.not_mem_nil
    simpa [SameKey] using different
  have apart := keeps.apart
  rw [both, List.pairwise_pair] at apart
  exact apart same

/-- The first of two builds has a file name. -/
lemma isFileName_es5 : Path.IsFileName "x-es5.js" := ⟨by decide, by decide, by decide, by decide⟩

/-- The second of two builds has a file name. -/
lemma isFileName_es2015 : Path.IsFileName "x-es2015.js" :=
  ⟨by decide, by decide, by decide, by decide⟩

/-- Of files in some directories the first build of each bundle is kept, whichever files they are,
exactly when none of the directories has a language level before a dot and each of them is written
in one way. -/
theorem keeps_first_builds_iff (directories : List String) :
    (∀ paths, (∀ p ∈ paths, LiesIn directories p) → KeepsFirstBuilds paths) ↔
      Plain directories := by
  constructor
  · intro keeps
    have unmarked : ∀ d ∈ directories, ¬ Occurs dottedLevels d.toList := by
      intro d hd marked
      obtain ⟨before, keys⟩ := exists_key_join marked
      have bundle : SameBundle (Path.join d "x-es5.js") (Path.join d "x-es2015.js") :=
        (sameBundle_join_iff isFileName_es5 isFileName_es2015).2 ⟨Path.same_self d, by decide⟩
      refine not_keepsFirstBuilds ?_ bundle (keeps _ ?_)
      · rw [SameKey, keys _ isFileName_es5, keys _ isFileName_es2015, String.append_right_inj]
        decide
      · simp only [List.forall_mem_cons]
        exact ⟨⟨d, hd, _, isFileName_es5, rfl⟩, ⟨d, hd, _, isFileName_es2015, rfl⟩, nofun⟩
    refine ⟨unmarked, fun d hd e he same => ?_⟩
    by_contra different
    have bundle : SameBundle (Path.join d "x-es5.js") (Path.join e "x-es2015.js") :=
      (sameBundle_join_iff isFileName_es5 isFileName_es2015).2 ⟨same, by decide⟩
    refine not_keepsFirstBuilds ?_ bundle (keeps _ ?_)
    · rw [sameKey_join_iff isFileName_es5 isFileName_es2015 (unmarked d hd) (unmarked e he)]
      exact fun keys => different keys.1
    · simp only [List.forall_mem_cons]
      exact ⟨⟨d, hd, _, isFileName_es5, rfl⟩, ⟨e, he, _, isFileName_es2015, rfl⟩, nofun⟩
  · exact fun plain paths h => plain.keepsFirstBuilds h

/-- Two directories, the second of which is written with a separator at its end. -/
theorem keeps_first_builds_iff_twoDirectories :
    Plain ["dist", "lib/"] ∧
      KeepsFirstBuilds ["dist/a-es2015.js", "lib/a-es5.js", "dist/a-es5.js", "dist/b.js"] ∧
      dedup ["dist/a-es2015.js", "lib/a-es5.js", "dist/a-es5.js", "dist/b.js"] =
        ["dist/a-es2015.js", "lib/a-es5.js", "dist/b.js"] := by
  have plain : Plain ["dist", "lib/"] := ⟨by decide, by decide⟩
  refine ⟨plain, (keeps_first_builds_iff ["dist", "lib/"]).2 plain _ ?_, by decide⟩
  have name (n : String) (some : n ≠ "" ∧ n ≠ "." ∧ n ≠ "..") (whole : '/' ∉ n.toList) :
      Path.IsFileName n := ⟨some.1, some.2.1, some.2.2, whole⟩
  simp only [List.forall_mem_cons]
  refine ⟨⟨"dist", by decide, "a-es2015.js", name _ (by decide) (by decide), by decide⟩,
    ⟨"lib/", by decide, "a-es5.js", name _ (by decide) (by decide), by decide⟩,
    ⟨"dist", by decide, "a-es5.js", name _ (by decide) (by decide), by decide⟩,
    ⟨"dist", by decide, "b.js", name _ (by decide) (by decide), by decide⟩, nofun⟩

/-- In a directory with a level in its name no two builds are taken for one bundle. Files in two
directories are, where those differ in the level only. -/
theorem not_keepsFirstBuilds_markedDirectory :
    ¬ KeepsFirstBuilds ["lib-es5.d/main-es5.js", "lib-es5.d/main-es2015.js"] ∧
      ¬ KeepsFirstBuilds ["a-es5.d/x.js", "a.d/x.js"] := by
  constructor
  · have different : ¬ SameKey "lib-es5.d/main-es5.js" "lib-es5.d/main-es2015.js" := by
      decide +kernel
    have same : SameBundle "lib-es5.d/main-es5.js" "lib-es5.d/main-es2015.js" := by
      decide +kernel
    exact not_keepsFirstBuilds different same
  · intro keeps
    have one : dedup ["a-es5.d/x.js", "a.d/x.js"] = ["a-es5.d/x.js"] := by
      decide +kernel
    have two : firstOf SameBundle ["a-es5.d/x.js", "a.d/x.js"] = ["a-es5.d/x.js", "a.d/x.js"] := by
      decide +kernel
    have kept := keeps.kept
    rw [one, two] at kept
    cases kept

end BundleName

end MessageCatalog
