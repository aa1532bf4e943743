import MessageCatalog.Proofs.Command.Directory
import MessageCatalog.Proofs.Extraction

/-!
# Commands that fail

A command that fails for any other reason than a file that cannot be written has written nothing:
the reason is found before the first file is written, or it is that there is none to write. So the
file system is as it was. Nothing to write means that no source has a message, or that no file
loads.
-/

namespace MessageCatalog.Command

variable {σ : Type} {fs : FileSystem (StateM σ)} {logger : Logger} {s : σ}

/-- Erasing duplicates leaves something of what there is. -/
lemma eraseDupsBy_eq_nil_iff {α : Type} {same : α → α → Bool} {l : List α} :
    l.eraseDupsBy same = [] ↔ l = [] := by
  cases l with
  | nil => exact ⟨fun _ => rfl, fun _ => rfl⟩
  | cons a l =>
    rw [List.eraseDupsBy_cons]
    exact ⟨nofun, nofun⟩

namespace Extract

/-- There are no messages at all when no source has any. -/
lemma allMessages_eq_nil_iff {found : List Findings} :
    allMessages found = [] ↔ ∀ f ∈ found, f.messages = [] := by
  have joined : found.foldl (fun e f => Extraction.addAll e f.messages) {} =
      Extraction.addAll {} (found.flatMap Findings.messages) := List.foldl_flatMap.symm
  rw [allMessages, joined, ← List.flatMap_eq_nil_iff]
  cases found.flatMap Findings.messages with
  | nil => exact ⟨fun _ => rfl, fun _ => rfl⟩
  | cons m rest =>
    -- The id of the first message is one of those that were collected.
    have there : m.id ∈ (Extraction.addAll {} (m :: rest)).ids :=
      (Extraction.mem_ids_addAll .empty).2 (.inr List.mem_cons_self)
    refine ⟨fun none => ?_, nofun⟩
    rw [Extraction.ids, none] at there
    cases there

/-- There is nothing to write when no source has a message. -/
lemma jobs_eq_nil_iff {r : ExtractRequest} {found : List Findings} :
    jobs r found = [] ↔ ∀ f ∈ found, f.messages = [] := by
  have some : r.effectiveLocales ≠ [] := by
    rw [ExtractRequest.effectiveLocales]
    split
    case isTrue => exact List.cons_ne_nil _ _
    case isFalse h => exact fun e => h (List.isEmpty_iff.2 e)
  simp [jobs, List.flatMap_eq_nil_iff, some]

/-- An extraction writes each target of its jobs once. -/
lemma targets_directoryActions (r : ExtractRequest) (found : List Findings) :
    (directoryActions r [] found).filterMap Action.target? =
      ((jobs r found).map Job.target).eraseDupsBy Path.same := by
  rw [directoryActions_eq r Job.Covered.nil, Step.targets_actions_nil, jobs_steps]

/-- A plan fails when no source has a message, and then it writes nothing. -/
lemma outputPlan_cases (r : ExtractRequest) (isFile : Bool) (found : List Findings) :
    ((∀ f ∈ found, f.messages = []) ∧ (outputPlan r isFile found).failure = some .noMessages ∧
        (outputPlan r isFile found).targets = []) ∨
      (¬(∀ f ∈ found, f.messages = []) ∧ (outputPlan r isFile found).failure = none) := by
  rw [outputPlan]
  cases isFile with
  | true =>
    rw [if_pos rfl, filePlan, ← allMessages_eq_nil_iff]
    by_cases none : allMessages found = []
    · rw [none]
      exact .inl ⟨rfl, rfl, targets_openingActions found⟩
    · rw [if_neg (by simpa using none)]
      exact .inr ⟨none, rfl⟩
  | false =>
    have targets := targets_directoryActions r found
    rw [if_neg Bool.false_ne_true, directoryPlan, targets, ← jobs_eq_nil_iff (r := r)]
    by_cases none : jobs r found = []
    · rw [none] at targets ⊢
      exact .inl ⟨rfl, rfl, targets⟩
    · rw [if_neg (by simpa [eraseDupsBy_eq_nil_iff] using none)]
      exact .inr ⟨none, rfl⟩

/-- The plan of a command that fails writes nothing. -/
lemma targets_planIn (r : ExtractRequest) {e : CommandError}
    (failed : (planIn fs r s).failure = some e) : (planIn fs r s).targets = [] := by
  rw [planIn] at failed ⊢
  split at failed
  case isTrue several =>
    rw [if_pos several]
    rfl
  case isFalse one =>
    rw [if_neg one]
    split at failed
    case h_1 => rfl
    case h_2 paths _ =>
      obtain ⟨-, -, none⟩ | ⟨-, ok⟩ := outputPlan_cases r ((fs.isFileOutput r.output).run s).1
        ((sourcesIn fs s (BundleName.dedup paths)).map findings)
      · exact none
      · cases ok.symm.trans failed

/-- The plan fails for want of messages when everything else is right and no source has any. -/
lemma failure_planIn_iff (r : ExtractRequest) :
    (planIn fs r s).failure = some .noMessages ↔
      ¬(((fs.isFileOutput r.output).run s).1 = true ∧ 1 < r.effectiveLocales.length) ∧
        ∃ paths, ((Glob.files fs r.pattern).run s).1 = .ok paths ∧
          ∀ source ∈ sourcesIn fs s (BundleName.dedup paths),
            (findings source).messages = [] := by
  rw [planIn]
  split
  case isTrue several =>
    refine iff_of_false ?_ fun h => absurd several h.1
    rintro ⟨⟩
  case isFalse one =>
    cases found : ((Glob.files fs r.pattern).run s).1 with
    | error e =>
      constructor
      · rintro ⟨⟩
      · rintro ⟨-, _, ⟨⟩, -⟩
    | ok paths =>
      have either := outputPlan_cases r ((fs.isFileOutput r.output).run s).1
        ((sourcesIn fs s (BundleName.dedup paths)).map findings)
      rw [List.forall_mem_map] at either
      constructor
      · intro failed
        obtain ⟨none, -, -⟩ | ⟨-, ok⟩ := either
        · exact ⟨one, paths, rfl, none⟩
        · cases ok.symm.trans failed
      · rintro ⟨-, _, ⟨rfl⟩, none⟩
        obtain ⟨-, failed, -⟩ | ⟨some, -⟩ := either
        · exact failed
        · exact absurd none some

end Extract

namespace Convert

/-- There is nothing to convert when no file loads. -/
lemma bundles_eq_nil_iff {files : List Loaded} :
    bundles files = [] ↔ ∀ l ∈ files, l.bundle = none := by
  rw [bundles, List.filterMap_eq_nil_iff]
  exact forall₂_congr fun _ _ => Option.map_eq_none_iff

/-- A plan fails when no file loads, and then it writes nothing. -/
lemma plan_cases (r : Request) (isFile : Bool) (sources : List SourceFile) :
    ((∀ source ∈ sources, (load source).bundle = none) ∧
        (plan r isFile sources).failure = some .noFiles ∧
        (plan r isFile sources).targets = []) ∨
      (¬(∀ source ∈ sources, (load source).bundle = none) ∧
        (plan r isFile sources).failure = none) := by
  rw [targets_plan, plan_eq, ← List.forall_mem_map (P := fun l : Loaded => l.bundle = none),
    ← bundles_eq_nil_iff]
  by_cases none : bundles (sources.map load) = []
  · rw [none]
    exact .inl ⟨rfl, rfl, rfl⟩
  · rw [if_neg (by simpa using none)]
    exact .inr ⟨none, rfl⟩

/-- The plan of a command that fails writes nothing. -/
lemma targets_planIn (r : Request) {e : CommandError}
    (failed : (planIn fs r s).failure = some e) : (planIn fs r s).targets = [] := by
  rw [planIn] at failed ⊢
  split at failed
  case isTrue unsupported =>
    rw [if_pos unsupported]
    rfl
  case isFalse supported =>
    rw [if_neg supported]
    split at failed
    case h_1 => rfl
    case h_2 paths _ =>
      obtain ⟨-, -, none⟩ | ⟨-, ok⟩ := plan_cases r ((fs.isFileOutput r.output).run s).1
        (sourcesIn fs s paths)
      · exact none
      · cases ok.symm.trans failed

/-- The plan fails for want of files when everything else is right and no file loads. -/
lemma failure_planIn_iff (r : Request) :
    (planIn fs r s).failure = some .noFiles ↔
      r.format.holdsTarget = true ∧
        ∃ paths, ((Glob.files fs r.pattern).run s).1 = .ok paths ∧
          ∀ source ∈ sourcesIn fs s paths, (load source).bundle = none := by
  rw [planIn]
  split
  case isTrue unsupported =>
    refine iff_of_false ?_ fun h => ?_
    · rintro ⟨⟩
    · cases unsupported.symm.trans h.1
  case isFalse supported =>
    cases found : ((Glob.files fs r.pattern).run s).1 with
    | error e =>
      constructor
      · rintro ⟨⟩
      · rintro ⟨-, _, ⟨⟩, -⟩
    | ok paths =>
      have either := plan_cases r ((fs.isFileOutput r.output).run s).1 (sourcesIn fs s paths)
      constructor
      · intro failed
        obtain ⟨none, -, -⟩ | ⟨-, ok⟩ := either
        · exact ⟨by simpa using supported, paths, rfl, none⟩
        · cases ok.symm.trans failed
      · rintro ⟨-, _, ⟨rfl⟩, none⟩
        obtain ⟨-, failed, -⟩ | ⟨some, -⟩ := either
        · exact failed
        · exact absurd none some

end Convert

/-- When a plan that fails writes nothing, the command fails for the reason of its plan or because
a file cannot be written, and in the first case it changes nothing. -/
lemma of_targets_nil_of_failed {plan : Plan}
    (quiet : ∀ e, plan.failure = some e → plan.targets = []) {e : CommandError}
    (other : ∀ path cause, e ≠ .write path cause) :
    (((plan.execute fs logger).run s).1.result = .error e ↔ plan.failure = some e) ∧
      (((plan.execute fs logger).run s).1.result = .error e →
        ((plan.execute fs logger).run s).2 = s) := by
  have planned : ((plan.execute fs logger).run s).1.result = .error e →
      plan.failure = some e := by
    intro failed
    obtain here | ⟨path, cause, rfl⟩ :=
      Plan.failure_execute (Outcome.result_eq_error_iff.1 failed)
    · exact here
    · exact absurd rfl (other path cause)
  refine ⟨⟨planned, fun failed => ?_⟩, fun failed => ?_⟩
  · have kept := Plan.run_execute_of_targets_nil fs logger s (quiet e failed)
    exact Outcome.result_eq_error_iff.2 (kept.2.trans failed)
  · exact (Plan.run_execute_of_targets_nil fs logger s (quiet e (planned failed))).1

/-- A command that fails, and not on writing a file, leaves everything as it was. The extraction
fails for want of messages exactly when the request and the pattern are right and no source has a
message, and the conversion for want of files exactly when the format and the pattern are right and
no file loads. -/
theorem failed_command_changes_nothing (looks : fs.LooksOnly) (logger : Logger) (s : σ) :
    (∀ r : ExtractRequest,
      let ran := (Extract.run fs logger r).run s
      (∀ e, ran.1.result = .error e → (∀ path cause, e ≠ .write path cause) → ran.2 = s) ∧
        (ran.1.result = .error .noMessages ↔
          ¬(((fs.isFileOutput r.output).run s).1 = true ∧ 1 < r.effectiveLocales.length) ∧
            ∃ paths, ((Glob.files fs r.pattern).run s).1 = .ok paths ∧
              ∀ source ∈ sourcesIn fs s (BundleName.dedup paths),
                (Extract.findings source).messages = [])) ∧
      ∀ r : Request,
        let ran := (Convert.run fs logger r).run s
        (∀ e, ran.1.result = .error e → (∀ path cause, e ≠ .write path cause) → ran.2 = s) ∧
          (ran.1.result = .error .noFiles ↔
            r.format.holdsTarget = true ∧
              ∃ paths, ((Glob.files fs r.pattern).run s).1 = .ok paths ∧
                ∀ source ∈ sourcesIn fs s paths, (Convert.load source).bundle = none) := by
  refine ⟨fun r => ?_, fun r => ?_⟩
  · have quiet : ∀ e, (Extract.planIn fs r s).failure = some e → _ := fun _ =>
      Extract.targets_planIn r
    intro ran
    simp only [ran, Extract.run_eq looks]
    refine ⟨fun e failed other => (of_targets_nil_of_failed quiet other).2 failed, ?_⟩
    have noWrite : ∀ path cause, CommandError.noMessages ≠ .write path cause := nofun
    exact (of_targets_nil_of_failed quiet noWrite).1.trans (Extract.failure_planIn_iff r)
  · have quiet : ∀ e, (Convert.planIn fs r s).failure = some e → _ := fun _ =>
      Convert.targets_planIn r
    intro ran
    simp only [ran, Convert.run_eq looks]
    refine ⟨fun e failed other => (of_targets_nil_of_failed quiet other).2 failed, ?_⟩
    have noWrite : ∀ path cause, CommandError.noFiles ≠ .write path cause := nofun
    exact (of_targets_nil_of_failed quiet noWrite).1.trans (Convert.failure_planIn_iff r)

/-- A bundle without messages, which is no translation file either. -/
def barren : FileTree where
  entries := ⟨[(["a"], .directory), (["a", "m.js"], .file (.text "run();"))]⟩

def vainExtraction : ExtractRequest := ⟨⟨"a/m.js", .xliff1, "out"⟩, ["en", "fr"]⟩

def vainConversion : Request := ⟨"a/m.js", .xtb, "out"⟩

/-- A file holds one locale only. -/
def crowdedExtraction : ExtractRequest := ⟨⟨"a/m.js", .json, "out.json"⟩, ["en", "fr"]⟩

/-- Commands that find nothing to write, and one that is asked for several locales in one file. -/
theorem failed_command_changes_nothing_barren :
    FileTree.fileSystem.LooksOnly ∧
      (((Extract.run FileTree.fileSystem .silent vainExtraction).run barren).1.result =
          .error .noMessages ∧
        ((Extract.run FileTree.fileSystem .silent vainExtraction).run barren).2 = barren ∧
        ∃ paths,
          ((Glob.files FileTree.fileSystem vainExtraction.pattern).run barren).1 = .ok paths ∧
          ∀ source ∈ sourcesIn FileTree.fileSystem barren (BundleName.dedup paths),
            (Extract.findings source).messages = []) ∧
      (((Convert.run FileTree.fileSystem .silent vainConversion).run barren).1.result =
          .error .noFiles ∧
        ((Convert.run FileTree.fileSystem .silent vainConversion).run barren).2 = barren ∧
        ∃ paths,
          ((Glob.files FileTree.fileSystem vainConversion.pattern).run barren).1 = .ok paths ∧
          ∀ source ∈ sourcesIn FileTree.fileSystem barren paths,
            (Convert.load source).bundle = none) ∧
      ((Extract.run FileTree.fileSystem .silent crowdedExtraction).run barren).1.result =
          .error (.multipleLocales ["en", "fr"] "out.json") ∧
        ((Extract.run FileTree.fileSystem .silent crowdedExtraction).run barren).2 = barren := by
  have both := failed_command_changes_nothing FileTree.looksOnly .silent barren
  have noMessages :
      ((Extract.run FileTree.fileSystem .silent vainExtraction).run barren).1.result =
        .error .noMessages := by
    decide +kernel
  have noFiles :
      ((Convert.run FileTree.fileSystem .silent vainConversion).run barren).1.result =
        .error .noFiles := by
    decide +kernel
  have several :
      ((Extract.run FileTree.fileSystem .silent crowdedExtraction).run barren).1.result =
        .error (.multipleLocales ["en", "fr"] "out.json") := by
    decide +kernel
  have extracts := both.1 vainExtraction
  have converts := both.2 vainConversion
  exact ⟨FileTree.looksOnly,
    ⟨noMessages, extracts.1 _ noMessages nofun, (extracts.2.1 noMessages).2⟩,
    ⟨noFiles, converts.1 _ noFiles nofun, (converts.2.1 noFiles).2⟩,
    several, (both.1 crowdedExtraction).1 _ several nofun⟩

end MessageCatalog.Command
