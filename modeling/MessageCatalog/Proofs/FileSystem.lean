import Mathlib.Tactic.Lemma
import MessageCatalog.FileSystem.Tree
import MessageCatalog.Glob.Search
import MessageCatalog.Proofs.OrderedMap

/-!
# Looking at files and writing them

A command looks at a file system before it writes to it. Looking leaves everything as it is, and so
does a search by a pattern, which only looks. Where files are kept by their paths, making
directories changes no file and writing a file changes no other one.
-/

namespace MessageCatalog

variable {σ τ α β : Type}

/-- A step after which `view` shows of the state what it showed before. -/
def Keeps (view : σ → τ) (x : StateM σ α) : Prop := ∀ s, view (x.run s).2 = view s

namespace Keeps

variable {view : σ → τ} {x : StateM σ α} {f : α → StateM σ β}

/-- Answering without a step keeps what is seen of the state. -/
lemma pure (a : α) : Keeps view (Pure.pure a : StateM σ α) := fun _ => rfl

/-- Steps that keep what is seen keep it one after the other. -/
lemma bind (hx : Keeps view x) (hf : ∀ a, Keeps view (f a)) : Keeps view (x >>= f) := by
  intro s
  have first := hx s
  have later := hf (x.run s).1 (x.run s).2
  exact later.trans first

/-- A choice between two steps keeps what both of them keep. -/
lemma ite {c : Prop} [Decidable c] {y : StateM σ α} (hx : Keeps view x) (hy : Keeps view y) :
    Keeps view (if c then x else y) := by
  split
  · exact hx
  · exact hy

/-- Picking by a test keeps what the test keeps. -/
lemma filterM {p : α → StateM σ Bool} (hp : ∀ a, Keeps view (p a)) (as : List α) :
    Keeps view (as.filterM p) := by
  have loop : ∀ kept, Keeps view (List.filterAuxM p as kept) := by
    induction as with
    | nil => exact pure
    | cons a as ih =>
      intro kept
      exact (hp a).bind fun _ => ih _
  exact (loop []).bind fun _ => pure _

/-- What comes after a step that keeps the whole state begins where that step began. -/
lemma run_bind (hx : Keeps id x) (f : α → StateM σ β) (s : σ) :
    (x >>= f).run s = (f (x.run s).1).run s := by
  change (f (x.run s).1).run (id (x.run s).2) = _
  rw [hx]
  rfl

/-- A test that keeps the whole state picks out what passes it in that state. -/
lemma run_filterM {p : α → StateM σ Bool} (hp : ∀ a, Keeps id (p a)) (as : List α) (s : σ) :
    ((as.filterM p).run s).1 = as.filter fun a => ((p a).run s).1 := by
  have loop : ∀ kept, ((List.filterAuxM p as kept).run s).1 =
      (as.filter fun a => ((p a).run s).1).reverse ++ kept := by
    induction as with
    | nil => exact fun _ => rfl
    | cons a as ih =>
      intro kept
      rw [List.filterAuxM, (hp a).run_bind, ih, List.filter_cons]
      cases ((p a).run s).1 with
      | true => rw [if_pos rfl, List.reverse_cons, List.append_assoc]; rfl
      | false => rfl
  have all : ((as.filterM p).run s).1 = ((List.filterAuxM p as []).run s).1.reverse := rfl
  rw [all, loop, List.append_nil, List.reverse_reverse]

end Keeps

/-- What stands in the file system is looked at without changing it. -/
structure FileSystem.LooksOnly (fs : FileSystem (StateM σ)) : Prop where
  kind? : ∀ path, Keeps id (fs.kind? path)
  names : ∀ path, Keeps id (fs.names path)
  readText : ∀ path, Keeps id (fs.readText path)

namespace FileSystem.LooksOnly

variable {fs : FileSystem (StateM σ)} (looks : fs.LooksOnly)

include looks

/-- Asking whether a path is that of a file changes nothing. -/
lemma isFile (path : String) : Keeps id (fs.isFile path) :=
  (looks.kind? path).bind fun _ => .pure _

/-- Asking whether a path is that of a directory changes nothing. -/
lemma isDirectory (path : String) : Keeps id (fs.isDirectory path) :=
  (looks.kind? path).bind fun _ => .pure _

/-- Asking whether the output is a file changes nothing. -/
lemma isFileOutput (path : String) : Keeps id (fs.isFileOutput path) := by
  refine (looks.kind? path).bind fun kind => ?_
  cases kind with
  | none => exact .pure _
  | some kind => exact .pure _

end FileSystem.LooksOnly

/-! ## Searching -/

namespace Glob

variable {fs : FileSystem (StateM σ)}

/-- Searches that change nothing change nothing together. -/
lemma keeps_gather {search : α → StateM σ (List String)} (h : ∀ a, Keeps id (search a))
    (as : List α) : Keeps id (gather search as) := by
  induction as with
  | nil => exact .pure _
  | cons a as ih => exact (h a).bind fun _ => ih.bind fun _ => .pure _

/-- Listing a directory changes nothing. -/
lemma keeps_sortedNames (looks : fs.LooksOnly) (directory : String) :
    Keeps id (sortedNames fs directory) :=
  (looks.names directory).bind fun _ => .pure _

/-- The three steps of a search call each other with less fuel, so they keep the state together. -/
lemma keeps_search (looks : fs.LooksOnly) (fuel : Nat) :
    (∀ directory patterns, Keeps id (expand fs fuel directory patterns)) ∧
      (∀ path rest, Keeps id (proceed fs fuel path rest)) ∧
      ∀ path name patterns, Keeps id (visit fs fuel path name patterns) := by
  induction fuel with
  | zero => exact ⟨fun _ _ => .pure _, fun _ _ => .pure _, fun _ _ _ => .pure _⟩
  | succ fuel ih =>
    obtain ⟨expands, proceeds, visits⟩ := ih
    refine ⟨fun directory patterns => ?_, fun path rest => ?_, fun path name patterns => ?_⟩
    · cases patterns with
      | nil => exact .pure _
      | cons pattern rest =>
        rw [expand]
        split
        case h_1 name _ =>
          -- a part without wildcards is looked up instead of being searched for
          extract_lets path goOn
          have goesOn : ∀ isThere, Keeps id (goOn isThere) := fun _ =>
            .ite (proceeds _ _) (.pure _)
          refine .ite ((looks.isDirectory directory).bind goesOn) ?_
          exact (looks.kind? path).bind fun _ => goesOn _
        case h_2 =>
          refine (looks.isDirectory directory).bind fun _ => .ite ?_ (.pure _)
          refine (keeps_gather (fun _ => proceeds _ _) _).bind fun _ => ?_
          refine (keeps_sortedNames looks directory).bind fun _ => ?_
          exact (keeps_gather (fun _ => visits _ _ _) _).bind fun _ => .pure _
    · exact .ite (.pure _) (expands _ _)
    · cases patterns with
      | nil => exact .pure _
      | cons pattern rest =>
        rw [visit]
        refine .ite ?_ (.ite (proceeds _ _) (.pure _))
        refine (looks.isDirectory path).bind fun _ => ?_
        extract_lets goOn
        have goesOn : ∀ below, Keeps id (goOn below) := by
          intro below
          dsimp only [goOn]
          split
          · exact (looks.isDirectory path).bind fun _ => .ite (.pure _) (.pure _)
          · exact (visits _ _ _).bind fun _ => .pure _
        exact .ite ((expands _ _).bind goesOn) (goesOn [])

/-- A search for files changes nothing. -/
theorem keeps_files (looks : fs.LooksOnly) (pattern : String) : Keeps id (files fs pattern) := by
  rw [files]
  split
  case h_1 => exact .pure _
  case h_2 =>
    refine ((keeps_search looks maxDepth).1 _ _).bind fun found => .ite (.pure _) ?_
    exact (Keeps.filterM looks.isFile found).bind fun _ => .pure _

/-- What a search finds are files. -/
lemma kind?_of_mem_files (looks : fs.LooksOnly) {pattern : String} {s : σ} {paths : List String}
    (found : ((files fs pattern).run s).1 = .ok paths) {path : String} (h : path ∈ paths) :
    ((fs.kind? path).run s).1 = some .file := by
  rw [files] at found
  split at found
  case h_1 => cases found
  case h_2 p _ =>
    rw [((keeps_search looks maxDepth).1 p.start p.parts).run_bind] at found
    split at found
    case isTrue =>
      cases found
      cases h
    case isFalse =>
      cases found
      change path ∈ ((List.filterM fs.isFile _).run s).1 at h
      rw [Keeps.run_filterM looks.isFile] at h
      exact of_decide_eq_true (List.mem_filter.1 h).2

/-- Searches that change nothing find all that each of them finds. -/
lemma run_gather {search : α → StateM σ (List String)} (h : ∀ a, Keeps id (search a))
    (as : List α) (s : σ) :
    ((gather search as).run s).1 = as.flatMap fun a => ((search a).run s).1 := by
  induction as with
  | nil => rfl
  | cons a as ih =>
    rw [gather, (h a).run_bind, (keeps_gather h as).run_bind, ih]
    rfl

/-- A star alone stands for any name. -/
lemma accepts_anySequence (name : List Char) : Pattern.accepts [.anySequence] name = true := by
  have some : ∃ rest ∈ Pattern.suffixes name, Pattern.accepts [] rest = true := by
    induction name with
    | nil => exact ⟨[], List.mem_singleton.2 rfl, rfl⟩
    | cons c name ih =>
      obtain ⟨rest, there, accepted⟩ := ih
      exact ⟨rest, List.mem_cons_of_mem _ there, accepted⟩
  exact List.any_eq_true.2 some

/-- A star finds each name where a search begins. -/
lemma run_expand_star (looks : fs.LooksOnly) {s : σ} (fuel : Nat)
    (here : ((fs.isDirectory ".").run s).1 = true) :
    ((expand fs (fuel + 3) "." [[.anySequence]]).run s).1 = ((sortedNames fs ".").run s).1 := by
  have wild : Pattern.literal? [.anySequence] = none := rfl
  have dots : dotNames [.anySequence] = [] := rfl
  have visits : ∀ name, (visit fs (fuel + 2) (inside "." name) name [[.anySequence]]).run s =
      ([name], s) := by
    intro name
    rw [visit, if_neg (by decide), if_pos (accepts_anySequence _), inside, if_pos rfl]
    rfl
  have keeps := (keeps_search looks (fuel + 2)).2.2
  rw [expand, wild]
  dsimp only
  rw [(looks.isDirectory ".").run_bind, here, if_pos rfl, dots, gather, pure_bind,
    (keeps_sortedNames looks ".").run_bind, (keeps_gather (fun _ => keeps _ _ _) _).run_bind,
    run_gather fun _ => keeps _ _ _]
  simp only [visits, List.flatMap_singleton']
  rfl

/-- A star stands for the files where a search begins, in the order of their names. -/
lemma files_star (looks : fs.LooksOnly) {s : σ} {names : List String}
    (here : ((fs.isDirectory ".").run s).1 = true) (listed : ((fs.names ".").run s).1 = names)
    (ordered : names.Pairwise fun a b => !decide (b < a)) :
    ((files fs "*").run s).1 = .ok (names.filter fun name => ((fs.isFile name).run s).1) := by
  have pattern : PathPattern.read "*" = .ok ⟨".", [[.anySequence]], false⟩ := rfl
  have sorted : ((sortedNames fs ".").run s).1 = names := by
    rw [sortedNames, (looks.names ".").run_bind, listed]
    exact List.mergeSort_of_pairwise ordered
  have expanded := run_expand_star looks (maxDepth - 3) here
  rw [files, pattern]
  dsimp only
  rw [((keeps_search looks maxDepth).1 _ _).run_bind]
  change ((expand fs maxDepth "." _).run s).1 = _ at expanded
  rw [expanded, sorted, if_neg Bool.false_ne_true]
  exact congrArg Except.ok (Keeps.run_filterM looks.isFile names s)

end Glob

/-! ## Files by their paths -/

/-- A file system in which different paths are different files: `files` says what bytes stand in the
file at a path. Making a directory leaves the files as they are, and a file that was written is the
only one that changes. -/
structure FileSystem.Flat (fs : FileSystem (StateM σ))
    (files : σ → String → Option ByteArray) : Prop extends fs.LooksOnly where
  makeDirectory : ∀ path, Keeps files (fs.makeDirectory path)
  writeText : ∀ path contents s, ((fs.writeText path contents).run s).1 = .ok () →
    files ((fs.writeText path contents).run s).2 =
      fun other => if Path.same path other then some contents.toUTF8 else files s other

namespace FileSystem.Flat

variable {fs : FileSystem (StateM σ)} {files : σ → String → Option ByteArray}

/-- Asking whether a path is that of a directory changes no file. -/
lemma isDirectory (flat : fs.Flat files) (path : String) : Keeps files (fs.isDirectory path) :=
  fun s => congrArg files (flat.toLooksOnly.isDirectory path s)

/-- Making a directory, or keeping the one that is there, changes no file. -/
lemma makeOrKeep (flat : fs.Flat files) (path : String) : Keeps files (fs.makeOrKeep path) := by
  refine (flat.makeDirectory path).bind fun made => ?_
  cases made with
  | ok _ => exact .pure _
  | error e => exact (flat.isDirectory path).bind fun _ => .ite (.pure _) (.pure _)

/-- Making directories changes no file. -/
lemma makeDirectories (flat : fs.Flat files) (paths : List String) :
    Keeps files (fs.makeDirectories paths) := by
  induction paths with
  | nil => exact .pure _
  | cons path above ih =>
    rw [FileSystem.makeDirectories]
    refine .ite (.pure _) ((flat.makeDirectory path).bind fun made => ?_)
    split
    case h_1 => exact .pure _
    case h_2 =>
      refine ih.bind fun around => ?_
      cases around with
      | ok _ => exact flat.makeOrKeep path
      | error e => exact .pure _
    case h_3 => exact (flat.isDirectory path).bind fun _ => .ite (.pure _) (.pure _)

/-- Writing a file makes the directories around it first. -/
lemma writeFile_eq (fs : FileSystem (StateM σ)) (path contents : String) :
    fs.writeFile path contents =
      ((Path.parent? path).elim (pure (.ok ())) fun parent =>
        fs.makeDirectories (Path.ancestors parent)) >>= fun made =>
          match made with
          | .ok () => fs.writeText path contents
          | .error e => pure (.error e) := by
  rw [FileSystem.writeFile]
  cases Path.parent? path <;> rfl

/-- A file that was written holds what was written, and the other files are as they were. -/
theorem writeFile (flat : fs.Flat files) {path contents : String} {s : σ}
    (ok : ((fs.writeFile path contents).run s).1 = .ok ()) :
    files ((fs.writeFile path contents).run s).2 =
      fun other => if Path.same path other then some contents.toUTF8 else files s other := by
  rw [writeFile_eq] at ok ⊢
  generalize around : ((Path.parent? path).elim (pure (.ok ())) fun parent =>
    fs.makeDirectories (Path.ancestors parent)) = make at ok ⊢
  have keeps : Keeps files make := by
    rw [← around]
    cases Path.parent? path with
    | none => exact .pure _
    | some parent => exact flat.makeDirectories _
  obtain ⟨made, between, run⟩ : ∃ made between, make.run s = (made, between) := ⟨_, _, rfl⟩
  have same : files between = files s := by
    have := keeps s
    rwa [run] at this
  rw [StateT.run_bind, run] at ok ⊢
  cases made with
  | error e => cases ok
  | ok _ =>
    rw [← same]
    exact flat.writeText path contents between ok

end FileSystem.Flat

/-! ## Trees and maps of files -/

/-- A tree of files is looked at without changing it. -/
lemma FileTree.looksOnly : FileTree.fileSystem.LooksOnly where
  kind? _ _ := rfl
  names _ _ := rfl
  readText _ _ := rfl

/-- Files by the components of their paths. Whatever files lie below is a directory. -/
structure FileMap where
  entries : OrderedMap (List Path.Component) ByteArray := ∅

namespace FileMap

/-- The bytes of the file at a path. -/
def bytes? (m : FileMap) (path : String) : Option ByteArray :=
  m.entries.get? (Path.components path)

/-- The components of a directory, of which the one that all paths begin at has none. -/
def directory (path : String) : List Path.Component :=
  (Path.components path).filter (· ≠ .here)

/-- What the paths of the files below a directory have behind it. -/
def below (m : FileMap) (path : String) : List (List Path.Component) :=
  m.entries.keys.filterMap fun file =>
    if directory path <+: file then some (file.drop (directory path).length) else none

def kind? (m : FileMap) (path : String) : Option EntryKind :=
  if (m.bytes? path).isSome then some .file
  else if (m.below path).isEmpty then none
  else some .directory

/-- The names in a directory. -/
def names (m : FileMap) (path : String) : List String :=
  ((m.below path).filterMap fun
    | .name value :: _ => some value
    | _ => none).eraseDups

def readText (m : FileMap) (path : String) : Except FileError String :=
  match m.bytes? path with
  | none => .error .notFound
  | some bytes =>
    match String.fromUTF8? bytes with
    | some contents => .ok contents
    | none => .error .invalidText

/-- Directories need not be made. -/
def makeDirectory (m : FileMap) (path : String) : Except FileError Unit :=
  if (m.kind? path).isSome then .error .exists else .ok ()

def writeText (m : FileMap) (path contents : String) : Except FileError FileMap :=
  if m.kind? path = some .directory then .error .isDirectory
  else .ok ⟨m.entries.insert (Path.components path) contents.toUTF8⟩

/-- The operations of a map of files. -/
def fileSystem : FileSystem (StateM FileMap) where
  kind? path := return (← get).kind? path
  names path := return (← get).names path
  readText path := return (← get).readText path
  makeDirectory path := return (← get).makeDirectory path
  writeText path contents := do
    match (← get).writeText path contents with
    | .ok m =>
      set m
      return .ok ()
    | .error e => return .error e

/-- Text that cannot be written leaves the map as it is. -/
lemma run_writeText (m : FileMap) (path contents : String) :
    (fileSystem.writeText path contents).run m =
      match m.writeText path contents with
      | .ok changed => (.ok (), changed)
      | .error e => (.error e, m) := by
  change StateT.run (match m.writeText path contents with | .ok _ => _ | .error _ => _) m = _
  cases m.writeText path contents <;> rfl

/-- In a map of files different paths are different files. -/
lemma flat : fileSystem.Flat bytes? where
  kind? _ _ := rfl
  names _ _ := rfl
  readText _ _ := rfl
  makeDirectory _ _ := rfl
  writeText path contents m ok := by
    rw [run_writeText, writeText] at ok ⊢
    by_cases taken : m.kind? path = some .directory
    · rw [if_pos taken] at ok
      cases ok
    · rw [if_neg taken]
      funext other
      change OrderedMap.get? (OrderedMap.insert _ _ _) _ = _
      rw [OrderedMap.get?_insert, Path.same]
      by_cases same : Path.components path = Path.components other
      · rw [if_pos same, if_pos (decide_eq_true same)]
      · rw [if_neg same, if_neg (by simpa using same)]
        rfl

end FileMap

end MessageCatalog
