import MessageCatalog.Proofs.Builds

/-!
# Names of output files

A build is known by its name without a level that stands before a dot. The name of its output file
is made of its name without the first level, wherever that stands. Both agree on what a bundle is
for files whose first level stands before a dot, so that in one directory none of these takes the
output file of another. Any other name shares its output file with a name of another bundle.
-/

namespace MessageCatalog

namespace BundleName

/-! ## The first level of a name -/

/-- Whether the first language level in a text, if there is one, stands before a dot. -/
def levelBeforeDot : List Char → Bool
  | [] => true
  | c :: text =>
    match levels.findSome? (Text.dropLead? · (c :: text)) with
    | some rest => rest.head? = some '.'
    | none => levelBeforeDot text

/-- At the front of a text stands one level at most. -/
lemma findSome?_levels {level : List Char} (h : level ∈ levels) (after : List Char) :
    levels.findSome? (Text.dropLead? · (level ++ after)) = some after := by
  rcases List.mem_pair.1 h with rfl | rfl
  · rw [levels, List.findSome?_cons, Text.dropLead?_append]
  · rw [levels, List.findSome?_cons, List.findSome?_singleton, Text.dropLead?_append]
    rfl

/-- A level that is dropped stands at the front. -/
lemma exists_of_findSome?_levels {text after : List Char}
    (h : levels.findSome? (Text.dropLead? · text) = some after) :
    ∃ level ∈ levels, text = level ++ after := by
  obtain ⟨level, member, dropped⟩ := List.exists_of_findSome?_eq_some h
  exact ⟨level, member, Text.eq_append_of_dropLead? dropped⟩

/-- A level with its dot is dropped when the level is and a dot comes next. -/
lemma findSome?_dottedLevels (text : List Char) :
    dottedLevels.findSome? (Text.dropLead? · text) =
      (levels.findSome? (Text.dropLead? · text)).bind (Text.dropLead? ['.']) := by
  cases found : levels.findSome? (Text.dropLead? · text) with
  | none =>
    have none := List.findSome?_eq_none_iff.1 found
    rw [dottedLevels, List.findSome?_map]
    refine List.findSome?_eq_none_iff.2 fun level member => ?_
    rw [Function.comp, Text.dropLead?_append_lead, none level member]
    rfl
  | some after =>
    obtain ⟨level, member, rfl⟩ := exists_of_findSome?_levels found
    rw [dottedLevels, levels, List.map_cons, List.map_singleton, List.findSome?_cons,
      List.findSome?_singleton, Text.dropLead?_append_lead, Text.dropLead?_append_lead,
      Option.bind_some]
    rcases List.mem_pair.1 member with rfl | rfl
    · rw [Text.dropLead?_append, Option.bind_some]
      cases Text.dropLead? ['.'] after <;> rfl
    · rw [Text.dropLead?_append]
      rfl

/-- Where the first level stands before a dot, leaving it out is leaving out the first that does. -/
lemma replaceFirst_dottedLevels {text : List Char} (h : levelBeforeDot text = true) :
    replaceFirst dottedLevels ['.'] text = replaceFirst levels [] text := by
  induction text with
  | nil => rfl
  | cons c text ih =>
    rw [levelBeforeDot] at h
    rw [replaceFirst, replaceFirst, findSome?_dottedLevels]
    split at h
    case h_1 after found =>
      obtain ⟨rest, rfl⟩ := List.head?_eq_some_iff.1 (of_decide_eq_true h)
      rw [found]
      rfl
    case h_2 none =>
      rw [none]
      exact congrArg (c :: ·) (ih h)

/-- A text whose first level does not stand before a dot. -/
lemma exists_level {text : List Char} (h : levelBeforeDot text = false) :
    ∃ before, ∃ level ∈ levels, ∃ after, text = before ++ (level ++ after) ∧
      ¬ Occurs levels before ∧ after.head? ≠ some '.' := by
  induction text with
  | nil => cases h
  | cons c text ih =>
    rw [levelBeforeDot] at h
    split at h
    case h_1 after found =>
      obtain ⟨level, member, split⟩ := exists_of_findSome?_levels found
      exact ⟨[], level, member, after, split, by decide, of_decide_eq_false h⟩
    case h_2 none =>
      obtain ⟨before, level, member, after, rfl, clear, dotless⟩ := ih h
      refine ⟨c :: before, level, member, after, rfl, ?_, dotless⟩
      rwa [occurs_cons_iff]
      intro mark hm lead
      have here := Text.dropLead?_eq_none_iff.1 (List.findSome?_eq_none_iff.1 none mark hm)
      exact here (lead.trans (List.prefix_append (c :: before) _))

/-! ## Names of scripts -/

/-- Whether a text is the name of a script by itself. -/
def IsScript (name : String) : Prop :=
  ∃ stem : List Char, '/' ∉ stem ∧ name.toList = stem ++ ".js".toList

/-- A name without its first language level. -/
def bare (name : String) : String := String.ofList (replaceFirst levels [] name.toList)

variable {d e m n : String}

/-- The name of a script is a file name. -/
lemma IsScript.isFileName (h : IsScript n) : Path.IsFileName n := by
  obtain ⟨stem, clear, chars⟩ := h
  have last : n.toList.getLast? = some 's' := by
    rw [chars]
    exact List.getLast?_append_of_ne_nil stem (List.cons_ne_nil '.' _)
  refine ⟨?_, ?_, ?_, ?_⟩
  · rintro rfl
    cases last
  · rintro rfl
    cases last
  · rintro rfl
    cases last
  · rw [chars, List.mem_append, not_or]
    exact ⟨clear, by decide⟩

/-- An ending is dropped where it stands. -/
lemma dropEnding_append (ending text : List Char) : dropEnding ending (text ++ ending) = text := by
  rw [dropEnding, List.reverse_append, Text.dropLead?_append]
  exact List.reverse_reverse text

/-- A level belongs to the stem of a script. -/
lemma replaceFirst_append_js (stem : List Char) :
    replaceFirst levels [] (stem ++ ".js".toList) =
      replaceFirst levels [] stem ++ ".js".toList := by
  by_cases marked : Occurs levels stem
  · exact replaceFirst_append_of_occurs (by decide) marked
  · rw [replaceFirst_eq_self marked]
    exact replaceFirst_append_of_not_occurs (by decide) marked

/-- The output of a script is named after it, without its level and its ending. -/
lemma exists_localized (h : IsScript n) :
    ∃ base : List Char, '/' ∉ base ∧ bare n = String.ofList base ++ ".js" ∧
      ∀ d locale extension, localized (Path.join d n) locale extension =
        String.ofList base ++ "." ++ locale ++ "." ++ extension := by
  obtain ⟨stem, clear, chars⟩ := id h
  refine ⟨replaceFirst levels [] stem, fun inside => ?_, ?_, fun d locale extension => ?_⟩
  · exact clear (subset_replaceFirst levels [] stem inside)
  · rw [bare, chars, replaceFirst_append_js, String.ofList_append]
    rfl
  · rw [localized, Path.fileName?_join h.isFileName, Option.getD_some, chars, dropEnding_append]

/-- Two scripts have one name for their output when their names are the same without their
levels. -/
lemma localized_join_iff (hm : IsScript m) (hn : IsScript n) (locale extension : String) :
    localized (Path.join d m) locale extension = localized (Path.join e n) locale extension ↔
      bare m = bare n := by
  obtain ⟨base, -, without, named⟩ := exists_localized hm
  obtain ⟨base', -, without', named'⟩ := exists_localized hn
  rw [named, named', without, without', String.append_left_inj, String.append_left_inj,
    String.append_left_inj, String.append_left_inj, String.append_left_inj]

/-- A build whose first level stands before a dot is known by its name without that level. -/
lemma key_eq_bare (h : levelBeforeDot n.toList = true) : key n = bare n := by
  rw [← String.toList_inj, toList_key, replaceFirst_dottedLevels h]
  exact String.toList_ofList.symm

/-- In a directory without a level, output files and builds of such scripts correspond. -/
lemma localized_join_iff_sameKey (unmarked : ¬ Occurs dottedLevels d.toList) (hm : IsScript m)
    (hn : IsScript n) (level : levelBeforeDot m.toList = true)
    (level' : levelBeforeDot n.toList = true) (locale extension : String) :
    localized (Path.join d m) locale extension = localized (Path.join d n) locale extension ↔
      SameKey (Path.join d m) (Path.join d n) := by
  rw [localized_join_iff hm hn, sameKey_join_iff hm.isFileName hn.isFileName unmarked unmarked,
    key_eq_bare level, key_eq_bare level']
  exact (and_iff_right rfl).symm

/-- Kept builds of such scripts have output files of their own. -/
lemma nodup_localized (unmarked : ¬ Occurs dottedLevels d.toList) {names : List String}
    (scripts : ∀ n ∈ names, IsScript n ∧ levelBeforeDot n.toList = true)
    (locale extension : String) :
    ((dedup (names.map (Path.join d))).map (localized · locale extension)).Nodup := by
  rw [List.nodup_iff_pairwise_ne, List.pairwise_map]
  apply pairwise_dedup
  simp only [List.forall_mem_map]
  intro m hm n hn same
  obtain ⟨script, level⟩ := scripts m hm
  obtain ⟨script', level'⟩ := scripts n hn
  exact (localized_join_iff_sameKey unmarked script script' level level' locale extension).1 same

/-! ## A level that stands elsewhere -/

/-- A text without hyphens holds no level, so what is replaced comes behind it. -/
lemma replaceFirst_dottedLevels_append {front : List Char} (h : '-' ∉ front) (rest : List Char) :
    replaceFirst dottedLevels ['.'] (front ++ rest) =
      front ++ replaceFirst dottedLevels ['.'] rest := by
  induction front with
  | nil => rfl
  | cons c front ih =>
    rw [List.mem_cons, not_or] at h
    rw [List.cons_append, replaceFirst_cons, ih h.2, List.cons_append]
    rintro mark hm ⟨more, same⟩
    have dash := head?_of_mem_dottedLevels mark hm
    have first := congrArg List.head? same
    rw [List.head?_append, dash] at first
    exact h.1 (Option.some.inj first)

/-- A level is a hyphen and a text without hyphens. -/
lemma exists_dash {level : List Char} (h : level ∈ levels) :
    ∃ rest, level = '-' :: rest ∧ '-' ∉ rest := by
  rcases List.mem_pair.1 h with rfl | rfl
  · exact ⟨_, rfl, by decide⟩
  · exact ⟨_, rfl, by decide⟩

/-- A level occurs wherever a level with its dot does. -/
lemma occurs_levels_of_dotted {text : List Char} (h : Occurs dottedLevels text) :
    Occurs levels text := by
  obtain ⟨mark, hm, inside⟩ := h
  obtain ⟨level, member, rfl⟩ := List.mem_map.1 hm
  exact ⟨level, member, (List.prefix_append level ['.']).isInfix.trans inside⟩

section

variable {before level after : List Char} (member : level ∈ levels)
  (first : ¬ Occurs levels before)

include member first

/-- The first level is replaced when none stands before it. -/
lemma replaceFirst_levels (put : List Char) :
    replaceFirst levels put (before ++ (level ++ after)) = before ++ (put ++ after) := by
  obtain ⟨rest, rfl, -⟩ := exists_dash member
  have found := findSome?_levels member after
  rw [List.cons_append] at found ⊢
  rw [replaceFirst_append_of_not_occurs (by decide) first, replaceFirst, found]

/-- A level that does not stand before a dot is left in the key. -/
lemma replaceFirst_dottedLevels_level (dotless : after.head? ≠ some '.') :
    replaceFirst dottedLevels ['.'] (before ++ (level ++ after)) =
      before ++ (level ++ replaceFirst dottedLevels ['.'] after) := by
  have clear : ¬ Occurs dottedLevels before := fun h => first (occurs_levels_of_dotted h)
  have none : dottedLevels.findSome? (Text.dropLead? · (level ++ after)) = none := by
    rw [findSome?_dottedLevels, findSome?_levels member, Option.bind_some,
      Text.dropLead?_eq_none_iff]
    rintro ⟨rest, rfl⟩
    exact dotless rfl
  obtain ⟨rest, rfl, dashless⟩ := exists_dash member
  rw [List.cons_append] at none
  rw [List.cons_append, replaceFirst_append_of_not_occurs (by decide) clear, replaceFirst, none,
    List.cons_append, ← replaceFirst_dottedLevels_append dashless]

end

/-- A level that does not stand before a dot lies in the stem of a script. -/
lemma exists_behind_level {stem before level after : List Char} (member : level ∈ levels)
    (dotless : after.head? ≠ some '.')
    (split : stem ++ ".js".toList = before ++ (level ++ after)) :
    ∃ more, stem = before ++ (level ++ more) ∧ after = more ++ ".js".toList := by
  rw [← List.append_assoc, List.append_eq_append_iff] at split
  obtain ⟨more, longer, ending⟩ | ⟨more, longer, ending⟩ := split
  · cases more with
    | nil =>
      refine absurd ?_ dotless
      rw [← List.nil_append after, ← ending]
      rfl
    | cons c more =>
      -- The level would end with a character of the ending.
      have digit : (before ++ level).getLast? = some '5' := by
        rcases List.mem_pair.1 member with rfl | rfl
        · exact List.getLast?_append_of_ne_nil before (List.cons_ne_nil '-' _)
        · exact List.getLast?_append_of_ne_nil before (List.cons_ne_nil '-' _)
      rw [longer, List.getLast?_append_of_ne_nil stem (List.cons_ne_nil c more)] at digit
      have inside : '5' ∈ ".js".toList := by
        rw [ending]
        exact List.mem_append_left after (List.mem_of_getLast? digit)
      exact absurd inside (by decide)
  · exact ⟨more, longer.trans (List.append_assoc _ _ _), ending⟩

/-- A script whose first level stands elsewhere shares its output file with another that is kept
beside it: the one with the other level. -/
lemma exists_sharing (unmarked : ¬ Occurs dottedLevels d.toList) (h : IsScript n)
    (elsewhere : levelBeforeDot n.toList = false) :
    ∃ m, IsScript m ∧ dedup [Path.join d n, Path.join d m] = [Path.join d n, Path.join d m] ∧
      ∀ locale extension,
        localized (Path.join d n) locale extension =
          localized (Path.join d m) locale extension := by
  obtain ⟨stem, clear, chars⟩ := id h
  obtain ⟨before, level, member, after, split, first, dotless⟩ := exists_level elsewhere
  -- the partner has the other level at the same place
  obtain ⟨other, member', different⟩ : ∃ other ∈ levels, other ≠ level := by
    rcases List.mem_pair.1 member with rfl | rfl
    · exact ⟨"-es2015".toList, by decide, by decide⟩
    · exact ⟨"-es5".toList, by decide, by decide⟩
  obtain ⟨more, rfl, rfl⟩ := exists_behind_level member dotless (chars.symm.trans split)
  obtain ⟨m, split'⟩ : ∃ m : String, m.toList = before ++ (other ++ (more ++ ".js".toList)) :=
    ⟨String.ofList _, String.toList_ofList⟩
  have script : IsScript m := by
    refine ⟨before ++ (other ++ more), ?_, ?_⟩
    · have none : '/' ∉ other := by
        rcases List.mem_pair.1 member' with rfl | rfl <;> decide
      simp only [List.mem_append, not_or] at clear ⊢
      exact ⟨clear.1, none, clear.2.2⟩
    · rw [split', List.append_assoc, List.append_assoc]
  refine ⟨m, script, dedupFrom_eq_self ?_ fun _ _ => List.not_mem_nil, fun locale extension => ?_⟩
  · have apart : ¬ SameKey (Path.join d n) (Path.join d m) := by
      rw [sameKey_join_iff h.isFileName script.isFileName unmarked unmarked]
      rintro ⟨-, same⟩
      rw [← String.toList_inj, toList_key, toList_key, split, split',
        replaceFirst_dottedLevels_level member first dotless,
        replaceFirst_dottedLevels_level member' first dotless] at same
      exact different (List.append_cancel_right (List.append_cancel_left same)).symm
    simpa [SameKey] using apart
  · rw [localized_join_iff h script, bare, bare, split, split', replaceFirst_levels member first,
      replaceFirst_levels member' first]

/-! ## Output files in a directory -/

/-- Where names of output files lead to one place, they start alike. -/
lemma base_eq_of_same {base base' below : List Char} (h : '/' ∉ base) (h' : '/' ∉ base')
    {directory : String}
    (same : Path.same (Path.join directory (String.ofList (base ++ '.' :: below)))
      (Path.join directory (String.ofList (base' ++ '.' :: below))) = true) : base = base' := by
  obtain ⟨first, later, cut⟩ := List.exists_cons_of_ne_nil (Text.pieces_ne_nil '/' below)
  have dotted : Text.pieces '/' ('.' :: below) = ('.' :: first) :: later := by
    rw [Text.pieces, if_neg (by decide), cut]
  have components (base : List Char) (h : '/' ∉ base) :
      Path.components (Path.join directory (String.ofList (base ++ '.' :: below))) =
        Path.components directory ++ Path.ofPieces directory.isEmpty
          ((base ++ '.' :: first) :: later) := by
    have relative : (String.ofList (base ++ '.' :: below)).toList.head? ≠ some '/' := by
      rw [String.toList_ofList]
      cases base with
      | nil => exact fun e => absurd (Option.some.inj e) (by decide)
      | cons c base => exact fun e => h (Option.some.inj e ▸ List.mem_cons_self)
    rw [Path.join_eq relative, Path.components_lead_append directory relative,
      String.toList_ofList, Text.pieces_append_of_pieces h dotted]
  rw [Path.same_iff, components base h, components base' h', List.append_cancel_left_eq,
    Path.ofPieces, Path.ofPieces, List.append_cancel_right_eq] at same
  have component := congrArg List.head? same
  rw [Option.head?_toList, Option.head?_toList] at component
  have some (base : List Char) : base ++ '.' :: first ≠ [] :=
    List.append_ne_nil_of_right_ne_nil base (List.cons_ne_nil '.' first)
  exact List.append_cancel_right (Path.componentOf?_inj (some base) (some base') component)

/-- Scripts that are written to the same file are given the same name for it. -/
lemma localized_eq_of_same (hm : IsScript m) (hn : IsScript n) {locale extension output : String}
    (same : Path.same (Path.join output (localized (Path.join d m) locale extension))
      (Path.join output (localized (Path.join e n) locale extension)) = true) :
    localized (Path.join d m) locale extension = localized (Path.join e n) locale extension := by
  obtain ⟨base, clear, -, named⟩ := exists_localized hm
  obtain ⟨base', clear', -, named'⟩ := exists_localized hn
  have spelled (base : List Char) : String.ofList base ++ "." ++ locale ++ "." ++ extension =
      String.ofList (base ++ '.' :: (locale ++ "." ++ extension).toList) := by
    rw [← String.toList_inj]
    simp [String.toList_append]
  rw [named, named', spelled, spelled] at same
  rw [named, named', base_eq_of_same clear clear' same]

end BundleName

namespace Command

open BundleName

/-- A plan that carries out all of some jobs and reports what is in `own` and nothing more. -/
structure Plan.CarriesOut (plan : Plan) (own : Diagnostics) (jobs : List Job) : Prop where
  targets : plan.targets = jobs.map Job.target
  reported : plan.reported.Perm own

/-- Nothing is erased of a list in which no item is the same as one before it. -/
lemma eraseDupsBy_eq_self {α : Type} {same : α → α → Bool} {l : List α}
    (apart : l.Pairwise fun a b => same b a = false) : l.eraseDupsBy same = l := by
  induction apart with
  | nil => rfl
  | cons first _ ih =>
    rw [List.eraseDupsBy_cons, List.filter_eq_self.2 fun b hb => decide_eq_true (first b hb), ih]

/-- Where all targets are different, no job is left out. -/
lemma Plan.carriesOut_of_steps {plan : Plan} {steps : List Step}
    (h : plan.actions = Step.actions [] steps)
    (apart : ((Step.jobs steps).map Job.target).Pairwise fun p q => Path.same q p = false) :
    plan.CarriesOut (steps.flatMap Step.reports) (Step.jobs steps) := by
  have targets : (Step.actions [] steps).filterMap Action.target? =
      (Step.jobs steps).map Job.target := by
    rw [Step.targets_actions_nil, eraseDupsBy_eq_self apart]
  have count := Step.length_targets_add_length_collisions [] steps
  rw [targets, List.length_map, Nat.add_eq_left, List.length_eq_zero_iff] at count
  have reported := Step.reported_actions_perm [] steps
  rw [count, List.append_nil, ← h] at reported
  exact ⟨(congrArg _ h).trans targets, reported⟩

namespace Extract

/-- What is found in a source is listed under its path. -/
lemma path_findings (source : SourceFile) : (findings source).path = source.path := by
  rw [findings]
  split <;> rfl

/-- Sources whose output in one locale is apart are all written. -/
lemma carriesOut_plan {r : ExtractRequest} {locale : String} (one : r.effectiveLocales = [locale])
    {sources : List SourceFile}
    (apart : sources.Pairwise fun f g =>
      Path.same (target r g.path locale) (target r f.path locale) = false) :
    (plan r false sources).CarriesOut ((sources.map findings).flatMap Findings.diagnostics)
      (jobs r (sources.map findings)) := by
  obtain ⟨text, actions⟩ := actions_plan_directory r sources
  have own : (Step.say .debug text :: (sources.map findings).flatMap (steps r)).flatMap
      Step.reports = (sources.map findings).flatMap Findings.diagnostics := reports_steps r _
  have wanted : Step.jobs (.say .debug text :: (sources.map findings).flatMap (steps r)) =
      jobs r (sources.map findings) := jobs_steps r _
  have all := Plan.carriesOut_of_steps actions
  rw [own, wanted] at all
  refine all ?_
  rw [jobs, one, List.map_flatMap]
  simp only [List.map_singleton, ← List.map_eq_flatMap]
  rw [List.pairwise_map]
  refine List.Pairwise.filter _ ?_
  rw [List.pairwise_map]
  simp only [job, path_findings]
  exact apart

/-- Kept scripts of a directory have outputs apart from each other. -/
lemma pairwise_target {directory : String} (unmarked : ¬ Occurs dottedLevels directory.toList)
    {names : List String}
    (scripts : ∀ n ∈ names, IsScript n ∧ levelBeforeDot n.toList = true) (r : ExtractRequest)
    (locale : String) :
    (dedup (names.map (Path.join directory))).Pairwise fun p q =>
      Path.same (target r q locale) (target r p locale) = false := by
  simp only [← Bool.not_eq_true]
  apply pairwise_dedup
  simp only [List.forall_mem_map]
  intro m hm n hn same
  obtain ⟨script, level⟩ := scripts m hm
  obtain ⟨script', level'⟩ := scripts n hn
  have named := (localized_eq_of_same script' script same).symm
  exact (localized_join_iff_sameKey unmarked script script' level level' _ _).1 named

/-- The scripts that are kept of a directory have output files of their own, if the first level in
the name of each of them stands before a dot: in each locale the names differ, and where messages
are extracted from such files in one locale, each of them that has messages is written and nothing
is reported but what is wrong with the files. Any other script shares its output file with one that
is kept beside it. -/
theorem kept_scripts_written_apart {directory : String}
    (unmarked : ¬ Occurs dottedLevels directory.toList) :
    (∀ names : List String, (∀ n ∈ names, IsScript n ∧ levelBeforeDot n.toList = true) →
      let kept := dedup (names.map (Path.join directory))
      (∀ locale extension, (kept.map (localized · locale extension)).Nodup) ∧
        ∀ (σ : Type) (fs : FileSystem (StateM σ)) (logger : Logger) (s : σ) (r : ExtractRequest),
          fs.LooksOnly → ((fs.isFileOutput r.output).run s).1 = false →
          r.effectiveLocales.length = 1 →
          ((Glob.files fs r.pattern).run s).1 = .ok (names.map (Path.join directory)) →
          let found := (sourcesIn fs s kept).map findings
          (run fs logger r).run s = ((planIn fs r s).execute fs logger).run s ∧
            (planIn fs r s).CarriesOut (found.flatMap Findings.diagnostics) (jobs r found)) ∧
      ∀ name, IsScript name → levelBeforeDot name.toList = false →
        ∃ other, IsScript other ∧
          let files := [Path.join directory name, Path.join directory other]
          dedup files = files ∧
            ∀ locale extension, ¬ (files.map (localized · locale extension)).Nodup := by
  refine ⟨fun names scripts => ⟨nodup_localized unmarked scripts, ?_⟩,
    fun name script elsewhere => ?_⟩
  · intro σ fs logger s r looks isDirectory one glob found
    obtain ⟨locale, one⟩ := List.length_eq_one_iff.1 one
    refine ⟨run_eq looks logger s r, ?_⟩
    have made : planIn fs r s =
        plan r false (sourcesIn fs s (dedup (names.map (Path.join directory)))) := by
      rw [planIn, isDirectory, if_neg (fun h => Bool.false_ne_true h.1), glob]
    rw [made]
    apply carriesOut_plan one
    rw [sourcesIn, List.pairwise_map]
    exact pairwise_target unmarked scripts r locale
  · obtain ⟨other, script', kept, shared⟩ := exists_sharing unmarked script elsewhere
    refine ⟨other, script', kept, fun locale extension apart => ?_⟩
    rw [List.map_cons, List.nodup_cons] at apart
    exact apart.1 (List.mem_singleton.2 (shared locale extension))

/-- Three bundles, of one of which there are two builds. -/
def bundles : FileTree where
  entries := ⟨[(["app.js"], .file (.text "$localize\x60Hi\x60;")),
    (["main-es2015.js"], .file (.text "$localize\x60Yes\x60;")),
    (["main-es5.js"], .file (.text "$localize\x60Yes\x60;")),
    (["main-es5.min.js"], .file (.text "$localize\x60No\x60;"))]⟩

def bundleNames : List String := ["app.js", "main-es2015.js", "main-es5.js", "main-es5.min.js"]

def frenchExtraction : ExtractRequest := ⟨⟨"*", .json, "out"⟩, ["fr"]⟩

/-- The star stands for all of the bundles. -/
lemma files_bundles :
    ((Glob.files FileTree.fileSystem frenchExtraction.pattern).run bundles).1 =
      .ok (bundleNames.map (Path.join "")) := by
  have paths : bundleNames.map (Path.join "") = bundleNames := by decide +kernel
  rw [paths]
  exact Glob.files_star FileTree.looksOnly rfl rfl (by decide)

/-- Three bundles are written to three files, and a script with a level that does not stand before a
dot shares its file with another one. -/
theorem kept_scripts_written_apart_bundles :
    ¬ Occurs dottedLevels "".toList ∧
      (∀ n ∈ bundleNames, IsScript n ∧ levelBeforeDot n.toList = true) ∧
      (let kept := dedup (bundleNames.map (Path.join ""))
      kept = ["app.js", "main-es2015.js", "main-es5.min.js"] ∧
        (kept.map (localized · "fr" "json")).Nodup ∧
        FileTree.fileSystem.LooksOnly ∧
        ((FileTree.fileSystem.isFileOutput frenchExtraction.output).run bundles).1 = false ∧
        frenchExtraction.effectiveLocales.length = 1 ∧
        ((Glob.files FileTree.fileSystem frenchExtraction.pattern).run bundles).1 =
          .ok (bundleNames.map (Path.join "")) ∧
        let found := (sourcesIn FileTree.fileSystem bundles kept).map findings
        (run FileTree.fileSystem .silent frenchExtraction).run bundles =
            ((planIn FileTree.fileSystem frenchExtraction bundles).execute FileTree.fileSystem
              .silent).run bundles ∧
          (planIn FileTree.fileSystem frenchExtraction bundles).CarriesOut
            (found.flatMap Findings.diagnostics) (jobs frenchExtraction found)) ∧
      IsScript "a-es5x.js" ∧ levelBeforeDot "a-es5x.js".toList = false ∧
      ∃ other, IsScript other ∧
        let files := [Path.join "" "a-es5x.js", Path.join "" other]
        dedup files = files ∧
          ∀ locale extension, ¬ (files.map (localized · locale extension)).Nodup := by
  have unmarked : ¬ Occurs dottedLevels "".toList := by decide
  have script (name stem : String) (clear : '/' ∉ stem.toList)
      (chars : name.toList = stem.toList ++ ".js".toList) : IsScript name :=
    ⟨stem.toList, clear, chars⟩
  have scripts : ∀ n ∈ bundleNames, IsScript n ∧ levelBeforeDot n.toList = true := by
    simp only [bundleNames, List.forall_mem_cons]
    exact ⟨⟨script "app.js" "app" (by decide) (by decide), by decide⟩,
      ⟨script "main-es2015.js" "main-es2015" (by decide) (by decide), by decide⟩,
      ⟨script "main-es5.js" "main-es5" (by decide) (by decide), by decide⟩,
      ⟨script "main-es5.min.js" "main-es5.min" (by decide) (by decide), by decide⟩, nofun⟩
  have kept : dedup (bundleNames.map (Path.join "")) =
      ["app.js", "main-es2015.js", "main-es5.min.js"] := by
    decide +kernel
  have isDirectory :
      ((FileTree.fileSystem.isFileOutput frenchExtraction.output).run bundles).1 = false := rfl
  obtain ⟨apart, shared⟩ := kept_scripts_written_apart unmarked
  obtain ⟨named, carries⟩ := apart bundleNames scripts
  have word : IsScript "a-es5x.js" := script "a-es5x.js" "a-es5x" (by decide) (by decide)
  have elsewhere : levelBeforeDot "a-es5x.js".toList = false := by decide
  have written := carries FileTree FileTree.fileSystem .silent bundles frenchExtraction
    FileTree.looksOnly isDirectory rfl files_bundles
  exact ⟨unmarked, scripts, ⟨kept, named "fr" "json", FileTree.looksOnly, isDirectory, rfl,
    files_bundles, written⟩, word, elsewhere, shared _ word elsewhere⟩

/-- Of two names, one has a level inside a word, and the other is the same without it. -/
theorem not_nodup_localized_levelInWord :
    ¬ Occurs dottedLevels "dist".toList ∧
      dedup (["a-es5x.js", "ax.js"].map (Path.join "dist")) = ["dist/a-es5x.js", "dist/ax.js"] ∧
      ¬ ((dedup (["a-es5x.js", "ax.js"].map (Path.join "dist"))).map
        (localized · "fr" "json")).Nodup := by
  have kept : dedup (["a-es5x.js", "ax.js"].map (Path.join "dist")) =
      ["dist/a-es5x.js", "dist/ax.js"] := by
    decide +kernel
  have names : ["dist/a-es5x.js", "dist/ax.js"].map (localized · "fr" "json") =
      ["ax.fr.json", "ax.fr.json"] := by
    decide +kernel
  refine ⟨by decide, kept, fun apart => ?_⟩
  rw [kept, names] at apart
  exact (List.nodup_cons.1 apart).1 List.mem_cons_self

end Extract

end Command

end MessageCatalog
