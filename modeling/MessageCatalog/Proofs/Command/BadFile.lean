import MessageCatalog.Proofs.Command.Union
import MessageCatalog.Proofs.FileTree
import MessageCatalog.Proofs.LoadErrors

/-!
# Translation files that do not load

A file that does not load adds one error to the diagnostics, at its place among those of the other
files. It has no part in what is written. So a conversion with the file comes to the same result
and leaves the same files, in any file system in which the output can be written as it could without
the file. In a tree that is so as long as the file does not stand where a directory is to be made.
-/

namespace MessageCatalog.Command

/-! ## Plans in two states -/

/-- What has come of a plan, and then of another. -/
def Progress.append (p later : Progress) : Progress where
  generated := p.generated ++ later.generated
  diagnostics := p.diagnostics ++ later.diagnostics
  log := p.log ++ later.log

section Parallel

variable {σ : Type} {fs : FileSystem (StateM σ)} {logger : Logger} {R : σ → σ → Prop} {s s' : σ}

namespace Progress

/-- What comes of three plans does not depend on how they are grouped. -/
lemma append_assoc (p q later : Progress) :
    (p.append q).append later = p.append (q.append later) := by
  rw [append, append, append, append, List.append_assoc, List.append_assoc, List.append_assoc]

/-- A plan of which nothing comes adds nothing. -/
lemma append_empty (p : Progress) : p.append {} = p := by
  rw [append, List.append_nil, List.append_nil, List.append_nil]

/-- Each step adds something to what has come before it. -/
lemma say_eq_append (p : Progress) (level : LogLevel) (text : String) :
    p.say logger level text = p.append (say {} logger level text) := by
  simp [append, say]

/-- What is reported comes behind what was reported before. -/
lemma report_eq_append (p : Progress) (ds : Diagnostics) :
    p.report ds = p.append (report {} ds) := by
  simp [append, report]

/-- A file that is written comes behind those that were written before. -/
lemma generate_eq_append (p : Progress) (path : String) :
    p.generate logger path = p.append (generate {} logger path) := by
  simp [append, generate, say]

end Progress

/-- Steps that write alike in two states do the same in both, whatever has come before them. -/
lemma exists_perform_parallel (logger : Logger) {actions : List Action}
    (writes : ∀ path text, Action.generate path text ∈ actions →
      Parallel R (fs.writeFile path text))
    (joined : R s s') :
    ∃ later failure t t', R t t' ∧ ∀ p : Progress,
      (perform fs logger p actions).run s = ((p.append later, failure), t) ∧
        (perform fs logger p actions).run s' = ((p.append later, failure), t') := by
  -- what has come before the steps is left open, since the two plans differ in just that
  induction actions generalizing s s' with
  | nil =>
    refine ⟨{}, none, s, s', joined, fun p => ?_⟩
    rw [Progress.append_empty]
    exact ⟨rfl, rfl⟩
  | cons action rest ih =>
    have ih {s s' : σ} (joined : R s s') :=
      ih (fun path text h => writes path text (List.mem_cons_of_mem action h)) joined
    cases action with
    | say level text =>
      obtain ⟨later, failure, t, t', joined, run⟩ := ih joined
      refine ⟨(Progress.say {} logger level text).append later, failure, t, t', joined,
        fun p => ?_⟩
      rw [run_perform_say, run_perform_say, Progress.say_eq_append, ← Progress.append_assoc]
      exact run _
    | report ds =>
      obtain ⟨later, failure, t, t', joined, run⟩ := ih joined
      refine ⟨(Progress.report {} ds).append later, failure, t, t', joined, fun p => ?_⟩
      rw [run_perform_report, run_perform_report, Progress.report_eq_append,
        ← Progress.append_assoc]
      exact run _
    | generate path text =>
      obtain ⟨same, between⟩ := writes path text List.mem_cons_self s s' joined
      obtain ⟨answer, u, wrote⟩ : ∃ answer u, (fs.writeFile path text).run s = (answer, u) :=
        ⟨_, _, rfl⟩
      obtain ⟨answer', u', wrote'⟩ : ∃ answer u, (fs.writeFile path text).run s' = (answer, u) :=
        ⟨_, _, rfl⟩
      rw [wrote, wrote'] at same between
      cases same
      cases answer with
      | error e =>
        refine ⟨{}, some (.write path e), u, u', between, fun p => ?_⟩
        rw [run_perform_generate, run_perform_generate, wrote, wrote', Progress.append_empty]
        exact ⟨rfl, rfl⟩
      | ok _ =>
        obtain ⟨later, failure, t, t', joined, run⟩ := ih between
        refine ⟨(Progress.generate {} logger path).append later, failure, t, t', joined,
          fun p => ?_⟩
        rw [run_perform_generate, run_perform_generate, wrote, wrote',
          Progress.generate_eq_append, ← Progress.append_assoc]
        exact run _

/-- Two plans that differ in what they report before they write come to the same result. -/
lemma execute_parallel (logger : Logger) {front front' rest : List Action}
    (failure : Option CommandError)
    (quiet : front.filterMap Action.target? = []) (quiet' : front'.filterMap Action.target? = [])
    (writes : ∀ path text, Action.generate path text ∈ rest → Parallel R (fs.writeFile path text))
    (joined : R s s') :
    let ran := (Plan.execute ⟨front ++ rest, failure⟩ fs logger).run s
    let ran' := (Plan.execute ⟨front' ++ rest, failure⟩ fs logger).run s'
    ran'.1.result = ran.1.result ∧ R ran.2 ran'.2 ∧
      ∃ later, ran.1.progress.diagnostics = front.flatMap Action.reported ++ later ∧
        ran'.1.progress.diagnostics = front'.flatMap Action.reported ++ later := by
  obtain ⟨q, generated, diagnostics, run⟩ := exists_perform_append fs logger quiet {}
  obtain ⟨q', generated', diagnostics', run'⟩ := exists_perform_append fs logger quiet' {}
  obtain ⟨later, stopped, t, t', joined, both⟩ := exists_perform_parallel logger writes joined
  rw [Plan.run_execute, Plan.run_execute, run, run', (both q).1, (both q').2]
  refine ⟨?_, joined, later.diagnostics, ?_, ?_⟩
  · rw [Outcome.result, Outcome.result, Progress.append, Progress.append, generated, generated']
  · exact congrArg (· ++ later.diagnostics) diagnostics
  · exact congrArg (· ++ later.diagnostics) diagnostics'

end Parallel

namespace Convert

/-! ## A file that does not load -/

/-- A file that does not load has one error. -/
lemma exists_diagnostics_load {source : SourceFile} (bad : (load source).bundle = none) :
    ∃ message, (load source).diagnostics = [⟨.error, message⟩] := by
  rw [load] at bad ⊢
  split at bad
  case h_2 e _ => exact ⟨_, rfl⟩
  case h_1 contents _ =>
    have loads := Loader.loads_load ⟨source.path, contents⟩ []
    dsimp only at bad ⊢
    generalize Loader.load ⟨source.path, contents⟩ [] = loaded at loads bad
    cases loads with
    | bundle quiet => cases bad
    | error message => exact ⟨message, rfl⟩

/-- The diagnostics of files are listed file by file. -/
lemma diagnostics_append (front back : List SourceFile) :
    ((front ++ back).map load).flatMap Loaded.diagnostics =
      (front.map load).flatMap Loaded.diagnostics ++
        (back.map load).flatMap Loaded.diagnostics := by
  rw [List.map_append, List.flatMap_append]

/-- The opening of a conversion reports what is wrong with the files. -/
lemma reported_opening (r : Request) (sources : List SourceFile) :
    (opening r sources).flatMap Action.reported =
      (sources.map load).flatMap Loaded.diagnostics := by
  rw [opening, List.flatMap_cons, List.flatMap_map]
  rfl

/-- A file that does not load is none of those that are written. -/
lemma bundles_insert {front back : List SourceFile} {source : SourceFile}
    (bad : (load source).bundle = none) :
    bundles ((front ++ source :: back).map load) = bundles ((front ++ back).map load) := by
  rw [bundles, bundles, List.map_append, List.map_append, List.map_cons, List.filterMap_append,
    List.filterMap_append, List.filterMap_cons_none (by rw [bad]; rfl)]

/-- The plan with a file that does not load comes to the same result as the plan without it, and
has the error of the file at its place. -/
lemma execute_insert {σ : Type} {fs : FileSystem (StateM σ)} {R : σ → σ → Prop} {s s' : σ}
    (logger : Logger) {r : Request} {isFile : Bool} {front back : List SourceFile}
    {source : SourceFile} (bad : (load source).bundle = none)
    (writes : ∀ target ∈ (plan r isFile (front ++ back)).targets, ∀ text,
      Parallel R (fs.writeFile target text))
    (joined : R s s') :
    let ran := ((plan r isFile (front ++ back)).execute fs logger).run s
    let ran' := ((plan r isFile (front ++ source :: back)).execute fs logger).run s'
    ran'.1.result = ran.1.result ∧ R ran.2 ran'.2 ∧
      ∃ message after, (load source).diagnostics = [⟨.error, message⟩] ∧
        ran.1.progress.diagnostics = (front.map load).flatMap Loaded.diagnostics ++ after ∧
        ran'.1.progress.diagnostics =
          (front.map load).flatMap Loaded.diagnostics ++ ⟨.error, message⟩ :: after := by
  have writing : ∀ target text,
      Action.generate target text ∈ closing r isFile (bundles ((front ++ back).map load)) →
      Parallel R (fs.writeFile target text) := fun target text h =>
    writes target (by rw [targets_plan]; exact List.mem_filterMap.2 ⟨_, h, rfl⟩) text
  rw [plan_eq, plan_eq, bundles_insert bad]
  obtain ⟨result, after, later, diagnostics, diagnostics'⟩ :=
    execute_parallel logger _ (targets_opening r (front ++ back))
      (targets_opening r (front ++ source :: back)) writing joined
  obtain ⟨message, one⟩ := exists_diagnostics_load bad
  have error : ((source :: back).map load).flatMap Loaded.diagnostics =
      ⟨.error, message⟩ :: (back.map load).flatMap Loaded.diagnostics := by
    rw [List.map_cons, List.flatMap_cons, one, List.singleton_append]
  rw [reported_opening, diagnostics_append, List.append_assoc] at diagnostics
  rw [reported_opening, diagnostics_append, error, List.append_assoc] at diagnostics'
  exact ⟨result, after, message, _, one, diagnostics, diagnostics'⟩

/-- In the second state a conversion finds one file more than in the first. The others read the
same, and the output is of the same kind. -/
structure FindsMore {σ : Type} (fs : FileSystem (StateM σ)) (r : Request) (front : List String)
    (path : String) (back : List String) (s s' : σ) : Prop where
  found : ((Glob.files fs r.pattern).run s).1 = .ok (front ++ back)
  foundMore : ((Glob.files fs r.pattern).run s').1 = .ok (front ++ path :: back)
  reads : ∀ other ∈ front ++ back, ((fs.readText other).run s').1 = ((fs.readText other).run s).1
  output : ((fs.isFileOutput r.output).run s').1 = ((fs.isFileOutput r.output).run s).1

section Inserted

variable {σ : Type} {fs : FileSystem (StateM σ)} {r : Request} {front back : List String}
  {path : String} {s s' : σ}

/-- The plan in the second state is made of the sources of the first and the file that is more. -/
lemma FindsMore.planIn_eq (more : FindsMore fs r front path back s s')
    (valid : r.format.holdsTarget = true) :
    planIn fs r s' = plan r ((fs.isFileOutput r.output).run s).1
      (sourcesIn fs s front ++ ⟨path, ((fs.readText path).run s').1⟩ :: sourcesIn fs s back) := by
  have sources {paths : List String} (inside : paths ⊆ front ++ back) :
      sourcesIn fs s' paths = sourcesIn fs s paths :=
    List.map_congr_left fun p h => congrArg (SourceFile.mk p) (more.reads p (inside h))
  rw [planIn_of_files valid more.foundMore, more.output, sourcesIn_insert,
    sources (List.subset_append_left _ _), sources (List.subset_append_right _ _)]

/-- With a file more that does not load, a conversion comes to the same result and leaves the states
as far apart as they were, and it has the error of that file at its place. -/
lemma run_insert (looks : fs.LooksOnly) (logger : Logger) {R : σ → σ → Prop}
    (more : FindsMore fs r front path back s s') (valid : r.format.holdsTarget = true)
    (bad : (load ⟨path, ((fs.readText path).run s').1⟩).bundle = none)
    (writes : ∀ target ∈ (planIn fs r s).targets, ∀ text, Parallel R (fs.writeFile target text))
    (joined : R s s') :
    let ran := (run fs logger r).run s
    let ran' := (run fs logger r).run s'
    ran'.1.result = ran.1.result ∧ R ran.2 ran'.2 ∧
      ∃ before message after,
        before = ((sourcesIn fs s front).map load).flatMap Loaded.diagnostics ∧
        (load ⟨path, ((fs.readText path).run s').1⟩).diagnostics = [⟨.error, message⟩] ∧
        ran.1.progress.diagnostics = before ++ after ∧
        ran'.1.progress.diagnostics = before ++ ⟨.error, message⟩ :: after := by
  have planned : planIn fs r s = plan r _ (_ ++ _) :=
    (planIn_of_files valid more.found).trans (congrArg (plan r _) sourcesIn_append)
  rw [run_eq looks, run_eq looks, more.planIn_eq valid]
  rw [planned] at writes ⊢
  obtain ⟨result, left, message, after, one, diagnostics, diagnostics'⟩ :=
    execute_insert logger bad writes joined
  exact ⟨result, left, _, message, after, rfl, one, diagnostics, diagnostics'⟩

end Inserted

/-- A tree with one file more, which is not where the output goes, is such a second state. -/
lemma findsMore_of_oneMore {t t' : FileTree} {r : Request} {place : TreePlace}
    {contents : FileContents} (more : FileTree.OneMore place contents t t') {path : String}
    {front back : List String}
    (found : ((Glob.files FileTree.fileSystem r.pattern).run t).1 = .ok (front ++ back))
    (found' : ((Glob.files FileTree.fileSystem r.pattern).run t').1 = .ok (front ++ path :: back))
    (other : t.place r.output ≠ .ok place) :
    FindsMore FileTree.fileSystem r front path back t t' where
  found := found
  foundMore := found'
  reads _ h := more.readText_eq (Glob.kind?_of_mem_files FileTree.looksOnly found h)
  output := more.isFileOutput_eq other

/-- When the files are written to one file, that is the text of their union. -/
lemma run_file {σ : Type} {fs : FileSystem (StateM σ)} (looks : fs.LooksOnly) (logger : Logger)
    {r : Request} {s : σ} {paths : List String} (valid : r.format.holdsTarget = true)
    (found : ((Glob.files fs r.pattern).run s).1 = .ok paths)
    (file : ((fs.isFileOutput r.output).run s).1 = true)
    (loads : ∃ source ∈ sourcesIn fs s paths, (load source).bundle ≠ none) :
    let written := (fs.writeFile r.output (unionText r (sourcesIn fs s paths))).run s
    let ran := (run fs logger r).run s
    ran.2 = written.2 ∧
      ran.1.result =
        match written.1 with
        | .ok () => .ok [r.output]
        | .error e => .error (.write r.output e) := by
  obtain ⟨source, there, loads⟩ := loads
  have some : loadedBundles (sourcesIn fs s paths) ≠ [] := fun none =>
    loads (List.filterMap_eq_nil_iff.1 none source there)
  rw [run_eq looks, planIn_of_files valid found, file]
  exact run_execute_file some

/-- A conversion to one file writes one message for each id of the files that load, made of the
translation in the first file that has the id, in the locale of the first file. A file that does
not load, for whatever reason, changes nothing of what is written, whatever its place among the
others; it only has its error reported at that place. For this the output has to be written alike
with the file and without it, as it is in a tree when the file stands neither where the output goes
nor on the way there. -/
theorem conversion_unites_first (logger : Logger) :
    (∀ {σ : Type} {fs : FileSystem (StateM σ)}, fs.LooksOnly →
      ∀ (r : Request) (s : σ) (paths : List String), r.format.holdsTarget = true →
      ((Glob.files fs r.pattern).run s).1 = .ok paths →
      ((fs.isFileOutput r.output).run s).1 = true →
      (∃ source ∈ sourcesIn fs s paths, (load source).bundle ≠ none) →
      let bs := (sourcesIn fs s paths).filterMap fun source => (load source).bundle
      let ran := (run fs logger r).run s
      ∃ messages text, UnitesFirst bs messages ∧
        text = r.format.render messages ((bs.head?.bind Bundle.locale).getD "en") true ∧
        ran.2 = ((fs.writeFile r.output text).run s).2 ∧
        ran.1.result =
          (match ((fs.writeFile r.output text).run s).1 with
          | .ok () => .ok [r.output]
          | .error e => .error (.write r.output e)) ∧
        ∀ files, fs.Flat files → ran.1.result = .ok [r.output] →
          files ran.2 = fun other =>
            if Path.same r.output other then some text.toUTF8 else files s other) ∧
      (∀ {σ : Type} {fs : FileSystem (StateM σ)}, fs.LooksOnly →
      ∀ (R : σ → σ → Prop) (s s' : σ), R s s' →
      ∀ (r : Request) (path : String) (front back : List String), r.format.holdsTarget = true →
      FindsMore fs r front path back s s' →
      (load ⟨path, ((fs.readText path).run s').1⟩).bundle = none →
      (∀ target ∈ (planIn fs r s).targets, ∀ text, Parallel R (fs.writeFile target text)) →
      let ran := (run fs logger r).run s
      let ran' := (run fs logger r).run s'
      ran'.1.result = ran.1.result ∧ R ran.2 ran'.2 ∧
        ∃ before message after,
          before = ((sourcesIn fs s front).map load).flatMap Loaded.diagnostics ∧
          (load ⟨path, ((fs.readText path).run s').1⟩).diagnostics = [⟨.error, message⟩] ∧
          ran.1.progress.diagnostics = before ++ after ∧
          ran'.1.progress.diagnostics = before ++ ⟨.error, message⟩ :: after) ∧
      ∀ (t : FileTree) (place : TreePlace) (contents : FileContents), t.get? place = none →
      let t' := t.put place (.file contents)
      ∀ (r : Request) (path : String) (front back : List String), r.format.holdsTarget = true →
      ((Glob.files FileTree.fileSystem r.pattern).run t).1 = .ok (front ++ back) →
      ((Glob.files FileTree.fileSystem r.pattern).run t').1 = .ok (front ++ path :: back) →
      (load ⟨path, t'.readText path⟩).bundle = none →
      t.place r.output ≠ .ok place →
      (∀ target ∈ (planIn FileTree.fileSystem r t).targets, place ∉ FileTree.way target) →
      let ran := (run FileTree.fileSystem logger r).run t
      let ran' := (run FileTree.fileSystem logger r).run t'
      ran'.1.result = ran.1.result ∧ FileTree.OneMore place contents ran.2 ran'.2 ∧
        ∃ before message after,
          before = ((sourcesIn FileTree.fileSystem t front).map load).flatMap Loaded.diagnostics ∧
          (load ⟨path, t'.readText path⟩).diagnostics = [⟨.error, message⟩] ∧
          ran.1.progress.diagnostics = before ++ after ∧
          ran'.1.progress.diagnostics = before ++ ⟨.error, message⟩ :: after := by
  refine ⟨?_, ?_, ?_⟩
  · intro σ fs looks r s paths valid found file loads bs ran
    obtain ⟨left, result⟩ := run_file looks logger valid found file loads
    refine ⟨_, unionText r (sourcesIn fs s paths), unitesFirst_union bs, rfl, left, result, ?_⟩
    intro files flat ok
    -- the command has succeeded, and it only does so when the output could be written
    have wrote :
        ((fs.writeFile r.output (unionText r (sourcesIn fs s paths))).run s).1 = .ok () := by
      cases answer : ((fs.writeFile r.output (unionText r (sourcesIn fs s paths))).run s).1 with
      | ok _ => rfl
      | error e =>
        rw [answer] at result
        exact nomatch result.symm.trans ok
    change files ((run fs logger r).run s).2 = _
    rw [left, flat.writeFile wrote]
  · intro σ fs looks R s s' joined r path front back valid more bad writes
    exact run_insert looks logger more valid bad writes joined
  · intro t place contents free t' r path front back valid found found' bad other off
    have more : FileTree.OneMore place contents t t' := FileTree.oneMore_put free contents
    exact run_insert FileTree.looksOnly logger (findsMore_of_oneMore more found found' other) valid
      bad (fun target h _ => FileTree.parallel_writeFile (off target h)) more

/-! ## Files beside a translation file -/

/-- A translation file. -/
def shelf : FileTree where
  entries := ⟨[(["fr.json"],
    .file (.text "\x7b\"locale\":\"fr\",\"translations\":\x7b\"1\":\"Oui\"\x7d\x7d"))]⟩

/-- What stands beside the translation file. -/
def scrap : FileContents := .text "none"

def gathering : Request := ⟨"*", .json, "out/all.json"⟩

/-- The star stands for the translation file. -/
lemma files_shelf :
    ((Glob.files FileTree.fileSystem gathering.pattern).run shelf).1 = .ok ["fr.json"] :=
  Glob.files_star FileTree.looksOnly rfl rfl (by decide)

/-- The translation file with notes beside it. -/
abbrev noted : FileTree := shelf.put ["notes.txt"] (.file scrap)

/-- The star stands for the translation file and for the notes. -/
lemma files_noted :
    ((Glob.files FileTree.fileSystem gathering.pattern).run noted).1 =
      .ok ["fr.json", "notes.txt"] :=
  Glob.files_star FileTree.looksOnly rfl rfl (by decide)

/-- The file system of a tree in which the notes must not be read. -/
def guarded : FileSystem (StateM FileTree) :=
  { FileTree.fileSystem with
    readText := fun path =>
      if path = "notes.txt" then
        return .error (.other (FileError.systemText "Permission denied" 13))
      else FileTree.fileSystem.readText path }

/-- What may be read is looked at as in any tree. -/
lemma looksOnly_guarded : guarded.LooksOnly where
  kind? := FileTree.looksOnly.kind?
  names := FileTree.looksOnly.names
  readText path := .ite (.pure _) (FileTree.looksOnly.readText path)

/-- With the notes a conversion finds one file more, though it must not read it. -/
lemma findsMore_guarded : FindsMore guarded gathering ["fr.json"] "notes.txt" [] shelf noted where
  found := Glob.files_star looksOnly_guarded rfl rfl (by decide)
  foundMore := Glob.files_star looksOnly_guarded rfl rfl (by decide)
  reads other h := by
    cases List.mem_singleton.1 h
    decide
  output := rfl

/-- A file that is no translation file, and one that must not be read. -/
theorem conversion_unites_first_noted :
    (FileTree.fileSystem.LooksOnly ∧ gathering.format.holdsTarget = true ∧
      ((Glob.files FileTree.fileSystem gathering.pattern).run noted).1 =
        .ok ["fr.json", "notes.txt"] ∧
      ((FileTree.fileSystem.isFileOutput gathering.output).run noted).1 = true ∧
      (∃ source ∈ sourcesIn FileTree.fileSystem noted ["fr.json", "notes.txt"],
        (load source).bundle ≠ none) ∧
      let bs := (sourcesIn FileTree.fileSystem noted ["fr.json", "notes.txt"]).filterMap
        fun source => (load source).bundle
      let ran := (run FileTree.fileSystem .silent gathering).run noted
      ∃ messages text, UnitesFirst bs messages ∧
        text =
          gathering.format.render messages ((bs.head?.bind Bundle.locale).getD "en") true ∧
        ran.2 = ((FileTree.fileSystem.writeFile gathering.output text).run noted).2) ∧
      (guarded.LooksOnly ∧ FileTree.OneMore ["notes.txt"] scrap shelf noted ∧
        FindsMore guarded gathering ["fr.json"] "notes.txt" [] shelf noted ∧
        (load ⟨"notes.txt", ((guarded.readText "notes.txt").run noted).1⟩).bundle = none ∧
        (∀ target ∈ (planIn guarded gathering shelf).targets, ∀ text,
          Parallel (FileTree.OneMore ["notes.txt"] scrap) (guarded.writeFile target text)) ∧
        let ran := (run guarded .silent gathering).run shelf
        let ran' := (run guarded .silent gathering).run noted
        ran'.1.result = ran.1.result ∧ FileTree.OneMore ["notes.txt"] scrap ran.2 ran'.2) ∧
      shelf.get? ["notes.txt"] = none ∧
      ((Glob.files FileTree.fileSystem gathering.pattern).run shelf).1 = .ok ["fr.json"] ∧
      (load ⟨"notes.txt", noted.readText "notes.txt"⟩).bundle = none ∧
      shelf.place gathering.output ≠ .ok ["notes.txt"] ∧
      (∀ target ∈ (planIn FileTree.fileSystem gathering shelf).targets,
        ["notes.txt"] ∉ FileTree.way target) ∧
      let ran := (run FileTree.fileSystem .silent gathering).run shelf
      let ran' := (run FileTree.fileSystem .silent gathering).run noted
      ran'.1.result = ran.1.result ∧ FileTree.OneMore ["notes.txt"] scrap ran.2 ran'.2 := by
  have file : ((FileTree.fileSystem.isFileOutput gathering.output).run noted).1 = true := rfl
  have loads : ∃ source ∈ sourcesIn FileTree.fileSystem noted ["fr.json", "notes.txt"],
      (load source).bundle ≠ none := ⟨_, List.mem_cons_self, by decide +kernel⟩
  have bad : (load ⟨"notes.txt", noted.readText "notes.txt"⟩).bundle = none := by decide +kernel
  have unread :
      (load ⟨"notes.txt", ((guarded.readText "notes.txt").run noted).1⟩).bundle = none := rfl
  have other : shelf.place gathering.output ≠ .ok ["notes.txt"] := by decide
  have targets : (planIn guarded gathering shelf).targets = ["out/all.json"] := by
    rw [planIn_of_files rfl findsMore_guarded.found]
    decide +kernel
  have off : ∀ target ∈ (planIn FileTree.fileSystem gathering shelf).targets,
      ["notes.txt"] ∉ FileTree.way target := by
    rw [planIn_of_files rfl files_shelf]
    decide +kernel
  have writes : ∀ target ∈ (planIn guarded gathering shelf).targets, ∀ text,
      Parallel (FileTree.OneMore ["notes.txt"] scrap) (guarded.writeFile target text) := by
    intro target h text
    rw [targets] at h
    cases List.mem_singleton.1 h
    have off : ["notes.txt"] ∉ FileTree.way "out/all.json" := by decide
    exact FileTree.parallel_writeFile off
  have more : FileTree.OneMore ["notes.txt"] scrap shelf noted := FileTree.oneMore_put rfl scrap
  obtain ⟨unites, inserts, inTree⟩ := conversion_unites_first .silent
  obtain ⟨messages, text, union, eq, left, -⟩ :=
    unites FileTree.looksOnly gathering noted ["fr.json", "notes.txt"] rfl files_noted file loads
  have hidden := inserts looksOnly_guarded _ shelf noted more gathering "notes.txt" ["fr.json"] []
    rfl findsMore_guarded unread writes
  have kept := inTree shelf ["notes.txt"] scrap rfl gathering "notes.txt" ["fr.json"] [] rfl
    files_shelf files_noted bad other off
  exact ⟨⟨FileTree.looksOnly, rfl, files_noted, file, loads, messages, text, union, eq, left⟩,
    ⟨looksOnly_guarded, more, findsMore_guarded, unread, writes, hidden.1, hidden.2.1⟩,
    rfl, files_shelf, bad, other, off, kept.1, kept.2.1⟩

/-- The translation file with a file where the output is to have its directory. -/
abbrev blocked : FileTree := shelf.put ["out"] (.file scrap)

/-- The star stands for the translation file and for the one in the way. -/
lemma files_blocked :
    ((Glob.files FileTree.fileSystem gathering.pattern).run blocked).1 = .ok ["fr.json", "out"] :=
  Glob.files_star FileTree.looksOnly rfl rfl (by decide)

/-- A file that does not load may stand where the directory for the output is to be made, and then
the output cannot be written. -/
theorem conversion_fails_below_bad_file :
    shelf.get? ["out"] = none ∧ gathering.format.holdsTarget = true ∧
      ((Glob.files FileTree.fileSystem gathering.pattern).run shelf).1 = .ok ["fr.json"] ∧
      ((Glob.files FileTree.fileSystem gathering.pattern).run blocked).1 =
        .ok ["fr.json", "out"] ∧
      (load ⟨"out", blocked.readText "out"⟩).bundle = none ∧
      shelf.place gathering.output ≠ .ok ["out"] ∧
      ((run FileTree.fileSystem .silent gathering).run shelf).1.result = .ok ["out/all.json"] ∧
      ((run FileTree.fileSystem .silent gathering).run blocked).1.result =
        .error (.write "out/all.json" .exists) := by
  rw [run_eq FileTree.looksOnly, run_eq FileTree.looksOnly, planIn_of_files rfl files_shelf,
    planIn_of_files rfl files_blocked]
  refine ⟨rfl, rfl, files_shelf, files_blocked, ?_⟩
  decide +kernel

end Convert

end MessageCatalog.Command
