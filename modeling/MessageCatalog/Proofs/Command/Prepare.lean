import MessageCatalog.Command.Convert
import MessageCatalog.Command.Extract
import MessageCatalog.Proofs.Command.Plan

/-!
# Plans of the commands

A command looks at the file system and makes its plan of what it has seen. It has changed nothing
then, so the plan is carried out in the state in which it was made.
-/

namespace MessageCatalog.Command

variable {σ : Type} {fs : FileSystem (StateM σ)} (looks : fs.LooksOnly) (logger : Logger) (s : σ)

namespace Extract

/-- What is said and reported first of sources writes nothing. -/
lemma targets_openingActions (found : List Findings) :
    (found.flatMap openingActions).filterMap Action.target? = [] := by
  rw [List.filterMap_flatMap]
  exact List.flatMap_eq_nil_iff.2 fun _ _ => rfl

/-- The plan that is made in a state. -/
def planIn (fs : FileSystem (StateM σ)) (r : ExtractRequest) (s : σ) : Plan :=
  if ((fs.isFileOutput r.output).run s).1 = true ∧ 1 < r.effectiveLocales.length then
    ⟨[], some (.multipleLocales r.effectiveLocales r.output)⟩
  else
    match ((Glob.files fs r.pattern).run s).1 with
    | .error e => ⟨[], some (.pattern r.pattern e)⟩
    | .ok paths =>
      plan r ((fs.isFileOutput r.output).run s).1 (sourcesIn fs s (BundleName.dedup paths))

/-- A plan that does not fail is made of the files that the pattern stands for. -/
lemma exists_of_failure_planIn_eq_none {r : ExtractRequest} {s : σ}
    (made : (planIn fs r s).failure = none) :
    ∃ paths, ((Glob.files fs r.pattern).run s).1 = .ok paths ∧
      planIn fs r s =
        plan r ((fs.isFileOutput r.output).run s).1 (sourcesIn fs s (BundleName.dedup paths)) := by
  rw [planIn] at made ⊢
  split
  case isTrue several =>
    rw [if_pos several] at made
    cases made
  case isFalse one =>
    rw [if_neg one] at made
    cases found : ((Glob.files fs r.pattern).run s).1 with
    | error e =>
      rw [found] at made
      cases made
    | ok paths => exact ⟨paths, rfl, rfl⟩

include looks

/-- An extraction carries out the plan that is made in the state where it begins. -/
lemma run_eq (r : ExtractRequest) :
    (run fs logger r).run s = ((planIn fs r s).execute fs logger).run s := by
  have prepared : (prepare fs r).run s = (planIn fs r s, s) := by
    rw [prepare, (looks.isFileOutput r.output).run_bind, planIn]
    by_cases several : ((fs.isFileOutput r.output).run s).1 = true ∧
        1 < r.effectiveLocales.length
    · rw [if_pos several, if_pos (by simpa using several)]
      rfl
    · rw [if_neg several, if_neg (by simpa using several),
        (Glob.keeps_files looks r.pattern).run_bind]
      cases ((Glob.files fs r.pattern).run s).1 with
      | error e => rfl
      | ok paths =>
        rw [(keeps_readAll looks _).run_bind, run_readAll looks]
        rfl
  rw [run, StateT.run_bind, prepared]
  rfl

end Extract

namespace Convert

/-- The steps that say what is done and report what is wrong with the files. -/
def opening (r : Request) (sources : List SourceFile) : List Action :=
  .say .info (openingLine r) :: (sources.map load).map fun l => .report l.diagnostics

/-- The steps after the files were loaded. -/
def closing (r : Request) (isFile : Bool) (bs : List (String × Bundle)) : List Action :=
  if bs.isEmpty then []
  else
    .say .debug ("Loaded " ++ toString bs.length ++ " translation file(s)") ::
      outputActions r isFile bs

/-- The steps of a conversion are what it says of the files and what it does with those that load. -/
lemma plan_eq (r : Request) (isFile : Bool) (sources : List SourceFile) :
    plan r isFile sources =
      ⟨opening r sources ++ closing r isFile (bundles (sources.map load)),
        if (bundles (sources.map load)).isEmpty then some .noFiles else none⟩ := by
  rw [plan, opening, closing]
  split
  · rw [List.append_nil]
  · rfl

/-- The opening of a conversion writes nothing. -/
lemma targets_opening (r : Request) (sources : List SourceFile) :
    (opening r sources).filterMap Action.target? = [] :=
  List.filterMap_eq_nil_iff.2 fun action h => by
    obtain rfl | h := List.mem_cons.1 h
    · rfl
    · obtain ⟨_, -, rfl⟩ := List.mem_map.1 h
      rfl

/-- What a conversion writes it writes after its opening. -/
lemma targets_plan (r : Request) (isFile : Bool) (sources : List SourceFile) :
    (plan r isFile sources).targets =
      (closing r isFile (bundles (sources.map load))).filterMap Action.target? := by
  rw [plan_eq, Plan.targets, List.filterMap_append, targets_opening, List.nil_append]

/-- The plan that is made in a state. -/
def planIn (fs : FileSystem (StateM σ)) (r : Request) (s : σ) : Plan :=
  if r.format.holdsTarget = false then ⟨[], some (.unsupportedTarget r.format)⟩
  else
    match ((Glob.files fs r.pattern).run s).1 with
    | .error e => ⟨[.say .info (openingLine r)], some (.pattern r.pattern e)⟩
    | .ok paths => plan r ((fs.isFileOutput r.output).run s).1 (sourcesIn fs s paths)

/-- With a format that holds translations, the plan is made of the files that are found. -/
lemma planIn_of_files {r : Request} {s : σ} {paths : List String}
    (valid : r.format.holdsTarget = true)
    (found : ((Glob.files fs r.pattern).run s).1 = .ok paths) :
    planIn fs r s = plan r ((fs.isFileOutput r.output).run s).1 (sourcesIn fs s paths) := by
  rw [planIn, if_neg (by simp [valid]), found]

/-- A plan that does not fail is made of the files that the pattern stands for. -/
lemma exists_of_failure_planIn_eq_none {r : Request} {s : σ}
    (made : (planIn fs r s).failure = none) :
    ∃ paths, ((Glob.files fs r.pattern).run s).1 = .ok paths ∧
      planIn fs r s = plan r ((fs.isFileOutput r.output).run s).1 (sourcesIn fs s paths) := by
  rw [planIn] at made ⊢
  split
  case isTrue unsupported =>
    rw [if_pos unsupported] at made
    cases made
  case isFalse supported =>
    rw [if_neg supported] at made
    cases found : ((Glob.files fs r.pattern).run s).1 with
    | error e =>
      rw [found] at made
      cases made
    | ok paths => exact ⟨paths, rfl, rfl⟩

include looks

/-- A conversion carries out the plan that is made in the state where it begins. -/
lemma run_eq (r : Request) :
    (run fs logger r).run s = ((planIn fs r s).execute fs logger).run s := by
  have prepared : (prepare fs r).run s = (planIn fs r s, s) := by
    rw [prepare, planIn]
    by_cases unsupported : r.format.holdsTarget = false
    · rw [if_pos unsupported, if_pos (by simpa using unsupported)]
      rfl
    · rw [if_neg unsupported, if_neg (by simpa using unsupported),
        (Glob.keeps_files looks r.pattern).run_bind]
      cases ((Glob.files fs r.pattern).run s).1 with
      | error e => rfl
      | ok paths =>
        rw [(keeps_readAll looks paths).run_bind, (looks.isFileOutput r.output).run_bind,
          run_readAll looks]
        rfl
  rw [run, StateT.run_bind, prepared]
  rfl

end Convert

end MessageCatalog.Command
