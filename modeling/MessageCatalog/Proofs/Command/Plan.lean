import MessageCatalog.Command.Plan
import MessageCatalog.Proofs.FileSystem

/-!
# Carrying out plans

A plan only adds to what has come of it: lines, reports and written files, in the order of its steps.
It fails only where a file cannot be written, and only steps that write change the file system. So a
plan without such steps leaves the file system as it was.
-/

namespace MessageCatalog.Command

/-- What a step reports. -/
def Action.reported : Action → Diagnostics
  | .report ds => ds
  | _ => []

/-- What the steps of a plan report, in order. -/
def Plan.reported (p : Plan) : Diagnostics :=
  p.actions.flatMap Action.reported

/-- The files after a step, if it succeeds. -/
def Action.change (files : String → Option ByteArray) : Action → String → Option ByteArray
  | .generate path contents => fun other =>
    if Path.same path other then some contents.toUTF8 else files other
  | _ => files

variable {σ : Type} {fs : FileSystem (StateM σ)} {logger : Logger} {s t : σ}

/-! ## Steps -/

/-- A plan that says something goes on with that in its log. -/
lemma run_perform_say (p : Progress) (level : LogLevel) (text : String) (rest : List Action) :
    (perform fs logger p (.say level text :: rest)).run s =
      (perform fs logger (p.say logger level text) rest).run s := rfl

/-- A plan that reports something goes on with that among its diagnostics. -/
lemma run_perform_report (p : Progress) (ds : Diagnostics) (rest : List Action) :
    (perform fs logger p (.report ds :: rest)).run s =
      (perform fs logger (p.report ds) rest).run s := rfl

/-- A file that is written is noted; one that cannot be written ends the plan. -/
lemma run_perform_generate (p : Progress) (path contents : String) (rest : List Action) :
    (perform fs logger p (.generate path contents :: rest)).run s =
      match (fs.writeFile path contents).run s with
      | (.ok (), t) => (perform fs logger (p.generate logger path) rest).run t
      | (.error e, t) => ((p, some (.write path e)), t) := by
  rw [perform, Action.perform, StateT.run_bind, StateT.run_bind]
  obtain ⟨written, t, run⟩ : ∃ written t, (fs.writeFile path contents).run s = (written, t) :=
    ⟨_, _, rfl⟩
  rw [run]
  cases written <;> rfl

/-! ## Plans -/

/-- A plan fails on its way only where a file cannot be written. -/
lemma exists_write_of_perform {actions : List Action} {p q : Progress} {e : CommandError}
    (run : (perform fs logger p actions).run s = ((q, some e), t)) :
    ∃ path cause, e = .write path cause := by
  induction actions generalizing p s with
  | nil => cases run
  | cons action rest ih =>
    cases action with
    | say level text => exact ih run
    | report ds => exact ih run
    | generate path contents =>
      rw [run_perform_generate] at run
      split at run
      case h_1 => exact ih run
      case h_2 cause _ _ =>
        cases run
        exact ⟨path, cause, rfl⟩

/-- Steps that write nothing leave the state to the steps after them. -/
lemma exists_perform_append (fs : FileSystem (StateM σ)) (logger : Logger) {front : List Action}
    (quiet : front.filterMap Action.target? = []) (p : Progress) :
    ∃ q : Progress, q.generated = p.generated ∧
      q.diagnostics = p.diagnostics ++ front.flatMap Action.reported ∧
      ∀ s rest, (perform fs logger p (front ++ rest)).run s = (perform fs logger q rest).run s := by
  induction front generalizing p with
  | nil => exact ⟨p, rfl, (List.append_nil _).symm, fun _ _ => rfl⟩
  | cons action front ih =>
    cases action with
    | say level text => exact ih quiet (p.say logger level text)
    | report ds =>
      obtain ⟨q, generated, diagnostics, run⟩ := ih quiet (p.report ds)
      refine ⟨q, generated, ?_, run⟩
      rw [diagnostics, List.flatMap_cons, ← List.append_assoc]
      rfl
    | generate path contents => cases quiet

/-- What has come of a plan whose steps succeed. -/
lemma of_run_perform {files : σ → String → Option ByteArray} (flat : fs.Flat files)
    {actions : List Action} {p q : Progress}
    (run : (perform fs logger p actions).run s = ((q, none), t)) :
    q.generated = p.generated ++ actions.filterMap Action.target? ∧
      q.diagnostics = p.diagnostics ++ actions.flatMap Action.reported ∧
      files t = actions.foldl Action.change (files s) := by
  induction actions generalizing p s with
  | nil =>
    cases run
    exact ⟨(List.append_nil _).symm, (List.append_nil _).symm, rfl⟩
  | cons action rest ih =>
    cases action with
    | say level text =>
      rw [run_perform_say] at run
      obtain ⟨generated, diagnostics, changed⟩ := ih run
      exact ⟨generated, diagnostics, changed⟩
    | report ds =>
      rw [run_perform_report] at run
      obtain ⟨generated, diagnostics, changed⟩ := ih run
      refine ⟨generated, ?_, changed⟩
      rw [diagnostics, List.flatMap_cons, ← List.append_assoc]
      rfl
    | generate path contents =>
      rw [run_perform_generate] at run
      split at run
      -- a file that cannot be written ends the plan with a failure, and there was none
      case h_2 => cases run
      case h_1 between written =>
        obtain ⟨generated, diagnostics, changed⟩ := ih run
        refine ⟨?_, diagnostics, ?_⟩
        · rw [generated]
          exact List.append_assoc _ _ _
        · have writes := flat.writeFile (congrArg Prod.fst written)
          rw [written] at writes
          rw [changed, writes]
          rfl

/-! ## Reading -/

/-- The files at some paths, as they can be read in a state. -/
def sourcesIn (fs : FileSystem (StateM σ)) (s : σ) (paths : List String) : List SourceFile :=
  paths.map fun path => ⟨path, ((fs.readText path).run s).1⟩

/-- Sources are read file by file. -/
lemma sourcesIn_append {front back : List String} :
    sourcesIn fs s (front ++ back) = sourcesIn fs s front ++ sourcesIn fs s back :=
  List.map_append

/-- A file more is a source more at the same place. -/
lemma sourcesIn_insert {front back : List String} {path : String} :
    sourcesIn fs s (front ++ path :: back) =
      sourcesIn fs s front ++ ⟨path, ((fs.readText path).run s).1⟩ :: sourcesIn fs s back :=
  List.map_append

/-- Reading files changes nothing. -/
lemma run_readAll (looks : fs.LooksOnly) (paths : List String) (s : σ) :
    (readAll fs paths).run s = (sourcesIn fs s paths, s) := by
  induction paths with
  | nil => rfl
  | cons path rest ih =>
    rw [readAll, (looks.readText path).run_bind, StateT.run_bind, ih]
    rfl

/-- Reading files changes nothing. -/
lemma keeps_readAll (looks : fs.LooksOnly) (paths : List String) : Keeps id (readAll fs paths) :=
  fun s => congrArg Prod.snd (run_readAll looks paths s)

/-! ## Outcomes -/

namespace Plan

variable {plan : Plan}

/-- A plan fails for its own reason unless one of its actions fails first. -/
lemma run_execute (plan : Plan) (s : σ) :
    (plan.execute fs logger).run s =
      match (perform fs logger {} plan.actions).run s with
      | ((p, failure), t) => (⟨p, failure <|> plan.failure⟩, t) := rfl

/-- The error of a command is that of its plan, or that of a file that could not be written. -/
lemma failure_execute {e : CommandError}
    (failed : ((plan.execute fs logger).run s).1.failure = some e) :
    plan.failure = some e ∨ ∃ path cause, e = .write path cause := by
  rw [run_execute] at failed
  obtain ⟨p, failure, t, run⟩ : ∃ p failure t,
      (perform fs logger {} plan.actions).run s = ((p, failure), t) := ⟨_, _, _, rfl⟩
  rw [run] at failed
  cases failure with
  | none => exact .inl failed
  | some e' =>
    cases failed
    exact .inr (exists_write_of_perform run)

/-- A plan that writes nothing changes nothing. -/
lemma run_execute_of_targets_nil (fs : FileSystem (StateM σ)) (logger : Logger) (s : σ)
    (quiet : plan.targets = []) :
    ((plan.execute fs logger).run s).2 = s ∧
      ((plan.execute fs logger).run s).1.failure = plan.failure := by
  obtain ⟨p, -, -, run⟩ := exists_perform_append fs logger quiet {}
  rw [run_execute, ← List.append_nil plan.actions, run]
  exact ⟨rfl, rfl⟩

/-- What has come of a plan that does not fail. -/
lemma of_run_execute {files : σ → String → Option ByteArray} (flat : fs.Flat files)
    (ok : ((plan.execute fs logger).run s).1.failure = none) :
    plan.failure = none ∧
      ((plan.execute fs logger).run s).1.progress.generated = plan.targets ∧
      ((plan.execute fs logger).run s).1.progress.diagnostics = plan.reported ∧
      files ((plan.execute fs logger).run s).2 = plan.actions.foldl Action.change (files s) := by
  rw [run_execute] at ok ⊢
  obtain ⟨p, failure, t, run⟩ : ∃ p failure t,
      (perform fs logger {} plan.actions).run s = ((p, failure), t) := ⟨_, _, _, rfl⟩
  rw [run] at ok ⊢
  cases failure with
  | some e => cases ok
  | none => exact ⟨ok, of_run_perform flat run⟩

end Plan

/-- The result of a command is an error if it failed. -/
lemma Outcome.result_eq_error_iff {o : Outcome} {e : CommandError} :
    o.result = .error e ↔ o.failure = some e := by
  rw [Outcome.result]
  cases o.failure <;> simp

/-- A command succeeds with the files that it has written when nothing fails. -/
lemma Outcome.result_eq_ok_iff {o : Outcome} {generated : List String} :
    o.result = .ok generated ↔ o.failure = none ∧ o.progress.generated = generated := by
  rw [Outcome.result]
  cases o.failure <;> simp

end MessageCatalog.Command
