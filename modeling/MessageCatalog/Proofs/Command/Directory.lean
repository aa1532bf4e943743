import Mathlib.Data.List.Basic
import MessageCatalog.Proofs.Command.Prepare

/-!
# Output in a directory

A command that writes to a directory has jobs, one for each file that it wants to write. Several
jobs may have one target. Only the first of them is carried out, whatever the order of the sources
and the locales, and each of the others is an error. So what was written is never written again, and
no job is lost without an error.
-/

namespace MessageCatalog

namespace Path

/-- Paths are the same when they have the same components. -/
lemma same_iff {p q : String} : same p q = true ↔ components p = components q :=
  decide_eq_true_iff

/-- A path is the same as itself. -/
lemma same_self (p : String) : same p p = true := same_iff.2 rfl

/-- It does not matter which of two paths is compared with the other. -/
lemma same_comm (p q : String) : same p q = same q p :=
  Bool.eq_iff_iff.2 (same_iff.trans (eq_comm.trans same_iff.symm))

end Path

namespace Command

/-! ## Jobs -/

/-- A file that a command wants to write for one of its sources. -/
structure Job where
  source : String
  target : String
  contents : String
  deriving DecidableEq, Repr

namespace Job

/-- Whether a path is the target of one of some jobs. -/
def isTaken (earlier : List Job) (path : String) : Bool :=
  (earlier.map target).any (Path.same path)

/-- What is said about a job whose target is taken. -/
def collision (j : Job) : Diagnostic := ⟨.error, BundleName.collisionMessage j.source j.target⟩

/-- An error for each job whose target is that of a job before it; `earlier` are those before all. -/
def collisions (earlier : List Job) : List Job → Diagnostics
  | [] => []
  | j :: rest =>
    (if isTaken earlier j.target then [j.collision] else []) ++ collisions (earlier ++ [j]) rest

/-- A path is taken by one of the earlier or one of the later jobs. -/
lemma isTaken_append (earlier later : List Job) (path : String) :
    isTaken (earlier ++ later) path = (isTaken earlier path || isTaken later path) := by
  rw [isTaken, List.map_append, List.any_append]
  rfl

/-- A single job takes its target. -/
lemma isTaken_singleton (j : Job) (path : String) :
    isTaken [j] path = Path.same path j.target := Bool.or_false _

/-- Whether a path is taken depends on its components only. -/
lemma isTaken_congr {p q : String} (h : Path.same p q = true) (earlier : List Job) :
    isTaken earlier p = isTaken earlier q := by
  rw [isTaken, isTaken]
  congr 1
  funext path
  rw [Path.same, Path.same, Path.same_iff.1 h]

/-- A job whose target is taken takes nothing more. -/
lemma isTaken_append_of_taken {earlier : List Job} {j : Job}
    (taken : isTaken earlier j.target = true) (path : String) :
    isTaken (earlier ++ [j]) path = isTaken earlier path := by
  rw [isTaken_append, isTaken_singleton]
  cases same : Path.same path j.target with
  | false => exact Bool.or_false _
  | true => rw [isTaken_congr same, taken, Bool.or_true]

/-- No job is found for a path that is free. -/
lemma find?_eq_none {jobs : List Job} {path : String} (free : isTaken jobs path = false) :
    jobs.find? (fun j => Path.same path j.target) = none :=
  List.find?_eq_none.2 fun j hj => List.any_eq_false.1 free j.target (List.mem_map_of_mem hj)

/-- The job found for a path is the first that takes it. -/
lemma find?_eq_some {path : String} {front back : List Job} {job : Job}
    (free : isTaken front path = false) (same : Path.same path job.target = true) :
    (front ++ job :: back).find? (fun j => Path.same path j.target) = some job := by
  have here : (job :: back).find? (fun j => Path.same path j.target) = some job :=
    List.find?_cons_of_pos same
  rw [List.find?_append, find?_eq_none free, here]
  rfl

/-- Some paths are taken that are the targets of jobs, if maybe not of all of them. -/
def Covered (taken : List String) (earlier : List Job) : Prop :=
  ∀ path, taken.any (Path.same path) = isTaken earlier path

/-- Nothing is taken before the first job. -/
lemma Covered.nil : Covered [] [] := fun _ => rfl

/-- A job whose target is taken need not be remembered. -/
lemma Covered.skip {taken : List String} {earlier : List Job} {j : Job}
    (covered : Covered taken earlier) (h : isTaken earlier j.target = true) :
    Covered taken (earlier ++ [j]) := by
  intro path
  rw [covered, isTaken_append_of_taken h]

/-- The target of a job that is carried out is taken from then on. -/
lemma Covered.write {taken : List String} {earlier : List Job} (covered : Covered taken earlier)
    (j : Job) : Covered (taken ++ [j.target]) (earlier ++ [j]) := by
  intro path
  rw [List.any_append, covered, isTaken_append]
  rfl

end Job

/-! ## Steps -/

/-- What a command does for its sources in a directory. -/
inductive Step where
  | say (level : LogLevel) (text : String)
  | report (diagnostics : Diagnostics)
  /-- Carry out a job, unless its target is taken. -/
  | write (job : Job)
  deriving DecidableEq, Repr

namespace Step

def job? : Step → Option Job
  | write job => some job
  | _ => none

/-- The jobs of steps, in order. -/
def jobs (steps : List Step) : List Job := steps.filterMap job?

/-- What a step reports that is not about a target. -/
def reports : Step → Diagnostics
  | report ds => ds
  | _ => []

/-- What is done about a job. -/
def jobAction (earlier : List Job) (j : Job) : Action :=
  if Job.isTaken earlier j.target then .report [j.collision] else .generate j.target j.contents

/-- The actions of a plan with these steps. -/
def actions (earlier : List Job) : List Step → List Action
  | [] => []
  | say level text :: rest => .say level text :: actions earlier rest
  | report ds :: rest => .report ds :: actions earlier rest
  | write j :: rest => jobAction earlier j :: actions (earlier ++ [j]) rest

variable {earlier : List Job}

/-- Jobs are listed step by step. -/
lemma jobs_append (first later : List Step) : jobs (first ++ later) = jobs first ++ jobs later :=
  List.filterMap_append

/-- The jobs of steps that only carry out jobs are these. -/
lemma jobs_map_write (js : List Job) : jobs (js.map write) = js := by
  induction js with
  | nil => rfl
  | cons j js ih => exact congrArg (j :: ·) ih

/-- Reporting is no job. -/
lemma jobs_map_report (ds : List Diagnostics) : jobs (ds.map report) = [] :=
  List.filterMap_eq_nil_iff.2 fun step h => by
    obtain ⟨_, -, rfl⟩ := List.mem_map.1 h
    rfl

/-- What is reported is reported whatever is taken. -/
lemma actions_map_report (earlier : List Job) (ds : List Diagnostics) :
    actions earlier (ds.map report) = ds.map .report := by
  induction ds with
  | nil => rfl
  | cons d ds ih => exact congrArg (_ :: ·) ih

/-- Steps that report give their diagnostics one after the other. -/
lemma reports_map_report (ds : List Diagnostics) : (ds.map report).flatMap reports = ds.flatten :=
  (List.flatMap_map ..).trans List.flatMap_id

/-- Carrying out jobs reports nothing but what is about their targets. -/
lemma reports_map_write (js : List Job) : (js.map write).flatMap reports = [] :=
  List.flatMap_eq_nil_iff.2 fun step h => by
    obtain ⟨_, -, rfl⟩ := List.mem_map.1 h
    rfl

/-- The later steps are carried out with the jobs of the first ones behind them. -/
lemma actions_append (earlier : List Job) (first later : List Step) :
    actions earlier (first ++ later) =
      actions earlier first ++ actions (earlier ++ jobs first) later := by
  induction first generalizing earlier with
  | nil => rw [jobs, List.filterMap_nil, List.append_nil]; rfl
  | cons step first ih =>
    cases step with
    | say level text => exact congrArg (_ :: ·) (ih earlier)
    | report ds => exact congrArg (_ :: ·) (ih earlier)
    | write j =>
      have later := ih (earlier ++ [j])
      rw [List.append_assoc] at later
      exact congrArg (_ :: ·) later

/-- The actions report what the steps report and the collisions. -/
lemma reported_actions_perm (earlier : List Job) (steps : List Step) :
    ((actions earlier steps).flatMap Action.reported).Perm
      (steps.flatMap reports ++ Job.collisions earlier (jobs steps)) := by
  induction steps generalizing earlier with
  | nil => exact .nil
  | cons step rest ih =>
    cases step with
    | say level text => exact ih earlier
    | report ds =>
      have later := (ih earlier).append_left ds
      rw [← List.append_assoc] at later
      exact later
    | write j =>
      have here : (jobAction earlier j).reported =
          if Job.isTaken earlier j.target then [j.collision] else [] := by
        rw [jobAction]
        split <;> rfl
      rw [actions, List.flatMap_cons, here]
      exact ((ih (earlier ++ [j])).append_left _).trans (List.perm_append_comm_assoc _ _ _)

/-- The files that are written are the first ones with their targets. -/
lemma targets_actions (earlier : List Job) (steps : List Step) :
    (actions earlier steps).filterMap Action.target? =
      (((jobs steps).map Job.target).filter fun path => !Job.isTaken earlier path).eraseDupsBy
        Path.same := by
  induction steps generalizing earlier with
  | nil => rfl
  | cons step rest ih =>
    cases step with
    | say level text => exact ih earlier
    | report ds => exact ih earlier
    | write j =>
      have wanted : (jobs (write j :: rest)).map Job.target =
          j.target :: (jobs rest).map Job.target := rfl
      rw [wanted, actions, jobAction]
      cases taken : Job.isTaken earlier j.target with
      | true =>
        have skipped := ih (earlier ++ [j])
        simp only [Job.isTaken_append_of_taken taken] at skipped
        rw [List.filter_cons_of_neg (by simp [taken])]
        exact skipped
      | false =>
        rw [List.filter_cons_of_pos (by simp [taken]), List.eraseDupsBy_cons, List.filter_filter]
        refine congrArg (j.target :: ·) ((ih (earlier ++ [j])).trans ?_)
        congr 2
        funext path
        rw [Job.isTaken_append, Job.isTaken_singleton]
        cases Job.isTaken earlier path <;> cases Path.same path j.target <;> rfl

/-- Of several jobs with one target only the first is carried out. -/
lemma targets_actions_nil (steps : List Step) :
    (actions [] steps).filterMap Action.target? =
      ((jobs steps).map Job.target).eraseDupsBy Path.same := by
  rw [targets_actions]
  exact congrArg (List.eraseDupsBy Path.same) (List.filter_eq_self.2 fun _ _ => rfl)

/-- Each job is either carried out or reported. -/
lemma length_targets_add_length_collisions (earlier : List Job) (steps : List Step) :
    ((actions earlier steps).filterMap Action.target?).length +
      (Job.collisions earlier (jobs steps)).length = (jobs steps).length := by
  induction steps generalizing earlier with
  | nil => rfl
  | cons step rest ih =>
    cases step with
    | say level text => exact ih earlier
    | report ds => exact ih earlier
    | write j =>
      have wanted : jobs (write j :: rest) = j :: jobs rest := rfl
      have later := ih (earlier ++ [j])
      rw [wanted, actions, jobAction, Job.collisions, List.length_cons, List.length_append]
      split
      case isTrue =>
        rw [List.filterMap_cons_none rfl, List.length_singleton]
        omega
      case isFalse =>
        have kept (rest : List Action) :
            (Action.generate j.target j.contents :: rest).filterMap Action.target? =
              j.target :: rest.filterMap Action.target? := rfl
        rw [kept, List.length_cons, List.length_nil]
        omega

/-- At a path that no job before has for its target, the first job that has it decides what the
file there holds. -/
lemma foldl_change_actions (files : String → Option ByteArray) (earlier : List Job)
    (steps : List Step) (path : String) :
    (actions earlier steps).foldl Action.change files path =
      if Job.isTaken earlier path then files path
      else ((jobs steps).find? fun j => Path.same path j.target).elim (files path) fun j =>
        some j.contents.toUTF8 := by
  induction steps generalizing earlier files with
  | nil => exact (ite_self _).symm
  | cons step rest ih =>
    cases step with
    | say level text => exact ih files earlier
    | report ds => exact ih files earlier
    | write j =>
      have wanted : jobs (write j :: rest) = j :: jobs rest := rfl
      rw [wanted, actions, List.foldl_cons, ih, Job.isTaken_append, Job.isTaken_singleton,
        jobAction]
      cases same : Path.same path j.target with
      | false =>
        -- The job is about another path: it neither changes this file nor takes its path.
        have kept : Action.change files (jobAction earlier j) path = files path := by
          rw [jobAction]
          split
          case isTrue => rfl
          case isFalse => exact if_neg (by rw [Path.same_comm, same]; exact Bool.false_ne_true)
        rw [jobAction] at kept
        rw [kept, Bool.or_false, List.find?_cons_of_neg (by rw [same]; exact Bool.false_ne_true)]
      | true =>
        have first : (j :: jobs rest).find? (fun j => Path.same path j.target) = some j :=
          List.find?_cons_of_pos same
        rw [Bool.or_true, if_pos rfl, first, Job.isTaken_congr same]
        split
        case isTrue => rfl
        case isFalse => exact if_pos (by rw [Path.same_comm, same])

end Step

/-! ## What is written -/

variable {σ : Type} {fs : FileSystem (StateM σ)} {logger : Logger} {s : σ}
  {files : σ → String → Option ByteArray}

/-- What a command has done that had some jobs in a directory, and for its sources had to report
what is in `own`: the state was `s` and is `t`. -/
structure FirstJobsDone (files : σ → String → Option ByteArray) (s t : σ) (p : Progress)
    (own : Diagnostics) (jobs : List Job) : Prop where
  /-- The targets were written, each once, in the order of the first jobs that have them. -/
  generated : p.generated = (jobs.map Job.target).eraseDupsBy Path.same
  /-- A file holds what the first job with its path has for it. -/
  contents : ∀ front job back, jobs = front ++ job :: back →
    Job.isTaken front job.target = false → files t job.target = some job.contents.toUTF8
  /-- The other files are as they were. -/
  untouched : ∀ path, Job.isTaken jobs path = false → files t path = files s path
  /-- Each job whose target is that of a job before it is an error. -/
  diagnostics : p.diagnostics.Perm (own ++ Job.collisions [] jobs)
  count : p.generated.length + (Job.collisions [] jobs).length = jobs.length

/-- A plan that is made of steps does the first jobs. -/
lemma firstJobsDone_of_steps (flat : fs.Flat files) {plan : Plan} {steps : List Step}
    (h : plan.actions = Step.actions [] steps)
    (ok : ((plan.execute fs logger).run s).1.failure = none) :
    FirstJobsDone files s ((plan.execute fs logger).run s).2
      ((plan.execute fs logger).run s).1.progress (steps.flatMap Step.reports)
      (Step.jobs steps) := by
  obtain ⟨-, generated, diagnostics, changed⟩ := Plan.of_run_execute flat ok
  have targets : plan.targets =
      ((Step.jobs steps).map Job.target).eraseDupsBy Path.same := by
    rw [Plan.targets, h, Step.targets_actions_nil]
  have holds := Step.foldl_change_actions (files s) [] steps
  rw [← h, ← changed] at holds
  refine ⟨generated.trans targets, ?_, ?_, ?_, ?_⟩
  · intro front job back split free
    rw [holds, split, Job.find?_eq_some free (Path.same_self _)]
    rfl
  · intro path free
    rw [holds, Job.find?_eq_none free]
    rfl
  · rw [diagnostics, Plan.reported, h]
    exact Step.reported_actions_perm [] steps
  · rw [generated, Plan.targets, h]
    exact Step.length_targets_add_length_collisions [] steps

/-! ## Both commands -/

namespace Extract

/-- The file for the messages of a source in a locale. -/
def job (r : ExtractRequest) (f : Findings) (locale : String) : Job where
  source := f.path
  target := target r f.path locale
  contents := r.format.render f.messages locale false

/-- The files for sources: for each source with messages one in each locale. -/
def jobs (r : ExtractRequest) (found : List Findings) : List Job :=
  (found.filter fun f => !f.messages.isEmpty).flatMap fun f => r.effectiveLocales.map (job r f)

/-- What is done for a source. -/
def steps (r : ExtractRequest) (f : Findings) : List Step :=
  .say .info ("Extracting translations from \"" ++ f.path ++ "\"") :: .report f.diagnostics ::
    (jobs r [f]).map .write

/-- The jobs of the first source come first. -/
lemma jobs_cons (r : ExtractRequest) (f : Findings) (rest : List Findings) :
    jobs r (f :: rest) = jobs r [f] ++ jobs r rest := by
  rw [jobs, jobs, jobs, ← List.flatMap_append, ← List.filter_append, List.singleton_append]

/-- The steps for all sources have all jobs of the extraction in their order. -/
lemma jobs_steps (r : ExtractRequest) (found : List Findings) :
    Step.jobs (found.flatMap (steps r)) = jobs r found := by
  induction found with
  | nil => rfl
  | cons f rest ih =>
    rw [List.flatMap_cons, Step.jobs_append, ih, jobs_cons]
    exact congrArg (· ++ jobs r rest) (Step.jobs_map_write _)

/-- The steps for all sources report what is wrong with each source. -/
lemma reports_steps (r : ExtractRequest) (found : List Findings) :
    (found.flatMap (steps r)).flatMap Step.reports = found.flatMap Findings.diagnostics := by
  rw [List.flatMap_assoc]
  refine List.flatMap_congr fun f _ => ?_
  rw [steps, List.flatMap_cons, List.flatMap_cons, Step.reports_map_write]
  exact List.append_nil _

/-- The locales of one source are written unless their targets are taken, and then those are taken,
too. -/
lemma localeActions_eq (r : ExtractRequest) (f : Findings) {taken : List String}
    {earlier : List Job} (covered : Job.Covered taken earlier) (locales : List String) :
    (localeActions r f taken locales).1 =
        Step.actions earlier ((locales.map (job r f)).map .write) ∧
      Job.Covered (localeActions r f taken locales).2 (earlier ++ locales.map (job r f)) := by
  induction locales generalizing taken earlier with
  | nil => exact ⟨rfl, by rwa [List.map_nil, List.append_nil]⟩
  | cons locale rest ih =>
    have here : isTaken taken (job r f locale).target =
        Job.isTaken earlier (job r f locale).target := by
      rw [isTaken, covered]
    have path : target r f.path locale = (job r f locale).target := by rw [job]
    rw [localeActions, path, here, List.map_cons, List.map_cons, Step.actions, Step.jobAction]
    split
    case isTrue taken =>
      obtain ⟨actions, later⟩ := ih (covered.skip taken)
      rw [List.append_assoc] at later
      exact ⟨congrArg (_ :: ·) actions, later⟩
    case isFalse =>
      obtain ⟨actions, later⟩ := ih (covered.write (job r f locale))
      rw [List.append_assoc] at later
      exact ⟨congrArg (_ :: ·) actions, later⟩

/-- The command carries out its steps. -/
lemma directoryActions_eq (r : ExtractRequest) {taken : List String} {earlier : List Job}
    (covered : Job.Covered taken earlier) (found : List Findings) :
    directoryActions r taken found = Step.actions earlier (found.flatMap (steps r)) := by
  induction found generalizing taken earlier with
  | nil => rfl
  | cons f rest ih =>
    rw [directoryActions, List.flatMap_cons, Step.actions_append]
    by_cases empty : f.messages.isEmpty = true
    · have none : jobs r [f] = [] := by
        rw [jobs, List.filter_cons_of_neg (by simp [empty])]
        rfl
      have idle : Step.jobs (steps r f) = [] := by
        rw [steps, none]
        rfl
      rw [if_pos empty, ih covered, idle, List.append_nil, steps, none]
      rfl
    · have all : jobs r [f] = r.effectiveLocales.map (job r f) := by
        rw [jobs, List.filter_cons_of_pos (by simp [empty])]
        exact List.append_nil _
      have busy : Step.jobs (steps r f) = r.effectiveLocales.map (job r f) := by
        rw [← all]
        exact Step.jobs_map_write _
      obtain ⟨actions, later⟩ := localeActions_eq r f covered r.effectiveLocales
      rw [if_neg empty, busy, steps, all]
      dsimp only
      rw [actions, ih later]
      rfl

/-- The actions of a plan for a directory are those for its sources. -/
lemma actions_directoryPlan (r : ExtractRequest) (found : List Findings) :
    (directoryPlan r found).actions = directoryActions r [] found := by
  rw [directoryPlan]
  split <;> rfl

/-- A plan for a directory is made of the steps for the sources. -/
lemma actions_plan_directory (r : ExtractRequest) (sources : List SourceFile) :
    ∃ text, (plan r false sources).actions =
      Step.actions [] (.say .debug text :: (sources.map findings).flatMap (steps r)) := by
  rw [plan, outputPlan, if_neg Bool.false_ne_true, actions_directoryPlan,
    directoryActions_eq r Job.Covered.nil]
  exact ⟨_, rfl⟩

/-- What was done when messages were written to a directory. -/
lemma firstJobsDone (flat : fs.Flat files) {r : ExtractRequest}
    (directory : ((fs.isFileOutput r.output).run s).1 = false)
    (ok : ((run fs logger r).run s).1.failure = none) :
    ∃ paths, ((Glob.files fs r.pattern).run s).1 = .ok paths ∧
      let found := (sourcesIn fs s (BundleName.dedup paths)).map findings
      FirstJobsDone files s ((run fs logger r).run s).2 ((run fs logger r).run s).1.progress
        (found.flatMap Findings.diagnostics) (jobs r found) := by
  rw [run_eq flat.toLooksOnly] at ok ⊢
  obtain ⟨paths, glob, made⟩ := exists_of_failure_planIn_eq_none (Plan.of_run_execute flat ok).1
  rw [directory] at made
  obtain ⟨text, actions⟩ := actions_plan_directory r (sourcesIn fs s (BundleName.dedup paths))
  rw [← made] at actions
  have done := firstJobsDone_of_steps flat actions ok
  refine ⟨paths, glob, ?_⟩
  intro found
  rw [← jobs_steps, ← reports_steps r]
  exact done

end Extract

namespace Convert

/-- The file for a source that was loaded. -/
def job (r : Request) (source : String × Bundle) : Job where
  source := source.1
  target := target r source.1
  contents := r.format.render source.2.messages (localeOf source.2) true

/-- Each bundle is written unless its target is taken. -/
lemma directoryActions_eq (r : Request) {taken : List String} {earlier : List Job}
    (covered : Job.Covered taken earlier) (bs : List (String × Bundle)) :
    directoryActions r taken bs = Step.actions earlier ((bs.map (job r)).map .write) := by
  induction bs generalizing taken earlier with
  | nil => rfl
  | cons source rest ih =>
    have path : target r source.1 = (job r source).target := by rw [job]
    rw [directoryActions, path, covered, List.map_cons, List.map_cons, Step.actions,
      Step.jobAction]
    split
    case isTrue taken => exact congrArg (_ :: ·) (ih (covered.skip taken))
    case isFalse => exact congrArg (_ :: ·) (ih (covered.write (job r source)))

/-- The steps for files, of which some were loaded. -/
def steps (r : Request) (files : List Loaded) (first count : String) : List Step :=
  .say .info first :: (files.map Loaded.diagnostics).map .report ++
    .say .debug count :: ((bundles files).map (job r)).map .write

/-- The steps of a conversion have a job for each file that loads. -/
lemma jobs_steps (r : Request) (files : List Loaded) (first count : String) :
    Step.jobs (steps r files first count) = (bundles files).map (job r) := by
  have none : Step.jobs (.say .info first :: (files.map Loaded.diagnostics).map .report) = [] :=
    Step.jobs_map_report _
  rw [steps, Step.jobs_append, none]
  exact Step.jobs_map_write _

/-- The steps of a conversion report what is wrong with each file. -/
lemma reports_steps (r : Request) (files : List Loaded) (first count : String) :
    (steps r files first count).flatMap Step.reports = files.flatMap Loaded.diagnostics := by
  rw [steps, List.flatMap_append, List.flatMap_cons, List.flatMap_cons, Step.reports_map_report,
    Step.reports_map_write]
  exact List.append_nil _

/-- A plan for a directory that does not fail is made of the steps for the files. -/
lemma actions_plan_directory (r : Request) {sources : List SourceFile}
    (made : (plan r false sources).failure = none) :
    ∃ first count, (plan r false sources).actions =
      Step.actions [] (steps r (sources.map load) first count) := by
  rw [plan_eq] at made ⊢
  by_cases none : (bundles (sources.map load)).isEmpty = true
  · rw [if_pos none] at made
    cases made
  · have idle : Step.jobs (.say .info (openingLine r) ::
        ((sources.map load).map Loaded.diagnostics).map .report) = [] := Step.jobs_map_report _
    refine ⟨openingLine r,
      "Loaded " ++ toString (bundles (sources.map load)).length ++ " translation file(s)", ?_⟩
    rw [closing, if_neg none, steps, Step.actions_append, idle, Step.actions,
      Step.actions_map_report, Step.actions, outputActions, if_neg Bool.false_ne_true,
      directoryActions_eq r Job.Covered.nil, opening, List.map_map (l := sources.map load)]
    rfl

/-- What was done when translations were written to a directory. -/
lemma firstJobsDone (flat : fs.Flat files) {r : Request}
    (directory : ((fs.isFileOutput r.output).run s).1 = false)
    (ok : ((run fs logger r).run s).1.failure = none) :
    ∃ paths, ((Glob.files fs r.pattern).run s).1 = .ok paths ∧
      let loaded := (sourcesIn fs s paths).map load
      FirstJobsDone files s ((run fs logger r).run s).2 ((run fs logger r).run s).1.progress
        (loaded.flatMap Loaded.diagnostics) ((bundles loaded).map (job r)) := by
  rw [run_eq flat.toLooksOnly] at ok ⊢
  have made := (Plan.of_run_execute flat ok).1
  obtain ⟨paths, glob, eq⟩ := exists_of_failure_planIn_eq_none made
  rw [directory] at eq
  rw [eq] at made
  obtain ⟨opening, count, actions⟩ := actions_plan_directory r made
  rw [← eq] at actions
  have done := firstJobsDone_of_steps flat actions ok
  rw [jobs_steps, reports_steps] at done
  exact ⟨paths, glob, done⟩

end Convert

/-- Both commands write a directory in the same way: of the files that they want to write, each
target is written for the first one only, the targets are returned in that order, and each later
file for the same target is an error. No other file changes. -/
theorem directory_writes_first_jobs (flat : fs.Flat files) (logger : Logger) (s : σ) :
    (∀ (r : ExtractRequest) (generated : List String),
      ((fs.isFileOutput r.output).run s).1 = false →
      ((Extract.run fs logger r).run s).1.result = .ok generated →
      ∃ paths, ((Glob.files fs r.pattern).run s).1 = .ok paths ∧
        let found := (sourcesIn fs s (BundleName.dedup paths)).map Extract.findings
        let ran := (Extract.run fs logger r).run s
        ran.1.progress.generated = generated ∧
          FirstJobsDone files s ran.2 ran.1.progress
            (found.flatMap Extract.Findings.diagnostics) (Extract.jobs r found)) ∧
      ∀ (r : Request) (generated : List String),
        ((fs.isFileOutput r.output).run s).1 = false →
        ((Convert.run fs logger r).run s).1.result = .ok generated →
        ∃ paths, ((Glob.files fs r.pattern).run s).1 = .ok paths ∧
          let loaded := (sourcesIn fs s paths).map Convert.load
          let ran := (Convert.run fs logger r).run s
          ran.1.progress.generated = generated ∧
            FirstJobsDone files s ran.2 ran.1.progress
              (loaded.flatMap Convert.Loaded.diagnostics)
              ((Convert.bundles loaded).map (Convert.job r)) := by
  refine ⟨fun r generated directory ok => ?_, fun r generated directory ok => ?_⟩
  · obtain ⟨succeeded, returned⟩ := Outcome.result_eq_ok_iff.1 ok
    obtain ⟨paths, glob, done⟩ := Extract.firstJobsDone flat directory succeeded
    exact ⟨paths, glob, returned, done⟩
  · obtain ⟨succeeded, returned⟩ := Outcome.result_eq_ok_iff.1 ok
    obtain ⟨paths, glob, done⟩ := Convert.firstJobsDone flat directory succeeded
    exact ⟨paths, glob, returned, done⟩

/-- A bundle and a translation file. -/
def workspace : FileMap where
  entries := ⟨[([.name "a", .name "m.js"], "$localize`Hi`;".toUTF8),
    ([.name "a", .name "m.json"],
      "\x7b\"locale\":\"fr\",\"translations\":\x7b\"1\":\"Oui\"\x7d\x7d".toUTF8)]⟩

/-- One locale is asked for twice. -/
def extraction : ExtractRequest := ⟨⟨"a/m.js", .xliff1, "out"⟩, ["en", "fr", "en"]⟩

def conversion : Request := ⟨"a/m.json", .xtb, "out"⟩

/-- A workspace in which a locale is given twice and two files are converted to one target. -/
theorem directory_writes_first_jobs_workspace :
    FileMap.fileSystem.Flat FileMap.bytes? ∧
      (((FileMap.fileSystem.isFileOutput extraction.output).run workspace).1 = false ∧
        ((Extract.run FileMap.fileSystem .silent extraction).run workspace).1.result =
          .ok ["out/m.en.xlf", "out/m.fr.xlf"] ∧
        ∃ paths, ((Glob.files FileMap.fileSystem extraction.pattern).run workspace).1 = .ok paths ∧
          let found :=
            (sourcesIn FileMap.fileSystem workspace (BundleName.dedup paths)).map Extract.findings
          let ran := (Extract.run FileMap.fileSystem .silent extraction).run workspace
          ran.1.progress.generated = ["out/m.en.xlf", "out/m.fr.xlf"] ∧
            FirstJobsDone FileMap.bytes? workspace ran.2 ran.1.progress
              (found.flatMap Extract.Findings.diagnostics) (Extract.jobs extraction found)) ∧
      ((FileMap.fileSystem.isFileOutput conversion.output).run workspace).1 = false ∧
        ((Convert.run FileMap.fileSystem .silent conversion).run workspace).1.result =
          .ok ["out/m.xtb"] ∧
        ∃ paths, ((Glob.files FileMap.fileSystem conversion.pattern).run workspace).1 = .ok paths ∧
          let loaded := (sourcesIn FileMap.fileSystem workspace paths).map Convert.load
          let ran := (Convert.run FileMap.fileSystem .silent conversion).run workspace
          ran.1.progress.generated = ["out/m.xtb"] ∧
            FirstJobsDone FileMap.bytes? workspace ran.2 ran.1.progress
              (loaded.flatMap Convert.Loaded.diagnostics)
              ((Convert.bundles loaded).map (Convert.job conversion)) := by
  have both := directory_writes_first_jobs FileMap.flat .silent workspace
  have extracts :
      ((FileMap.fileSystem.isFileOutput extraction.output).run workspace).1 = false ∧
        ((Extract.run FileMap.fileSystem .silent extraction).run workspace).1.result =
          .ok ["out/m.en.xlf", "out/m.fr.xlf"] := by
    decide +kernel
  have converts :
      ((FileMap.fileSystem.isFileOutput conversion.output).run workspace).1 = false ∧
        ((Convert.run FileMap.fileSystem .silent conversion).run workspace).1.result =
          .ok ["out/m.xtb"] := by
    decide +kernel
  exact ⟨FileMap.flat,
    ⟨extracts.1, extracts.2, both.1 extraction _ extracts.1 extracts.2⟩,
    converts.1, converts.2, both.2 conversion _ converts.1 converts.2⟩

end Command

end MessageCatalog
