import Mathlib.Data.List.Basic
import MessageCatalog.Proofs.Parallel
import MessageCatalog.Proofs.Text

/-!
# A tree with one file more

Two trees that differ only in a file that one of them has more look alike at every other path. As
long as the file does not stand where a path leads through, a file can be written at the path in
both trees alike, and afterwards they still differ only in that one file, if it is still there.
-/

namespace MessageCatalog

/-! ## Paths above a path -/

/-- The first piece ends at the first separating character, if there is one. -/
lemma Text.exists_of_pieces_eq_cons {separator : Char} {text piece : List Char}
    {rest : List (List Char)} (h : pieces separator text = piece :: rest) :
    separator ∉ piece ∧
      (text = piece ∧ rest = [] ∨
        ∃ later, text = piece ++ separator :: later ∧ pieces separator later = rest) := by
  induction text generalizing piece with
  | nil =>
    cases h
    exact ⟨List.not_mem_nil, .inl ⟨rfl, rfl⟩⟩
  | cons c text ih =>
    rw [pieces] at h
    split at h
    case isTrue here =>
      cases h
      exact ⟨List.not_mem_nil, .inr ⟨text, by rw [here, List.nil_append], rfl⟩⟩
    case isFalse other =>
      split at h
      case h_1 none => exact absurd none (pieces_ne_nil separator text)
      case h_2 first more eq =>
        cases h
        obtain ⟨absent, found⟩ := ih eq
        refine ⟨fun m => (List.mem_cons.1 m).elim (fun e => other e.symm) absent, ?_⟩
        obtain ⟨rfl, none⟩ | ⟨later, rfl, behind⟩ := found
        · exact .inl ⟨rfl, none⟩
        · exact .inr ⟨later, rfl, behind⟩

namespace Path

/-- The text up to the end of a component has the pieces up to there. -/
lemma exists_of_componentsOfPieces {atStart : Bool} {position : Nat} {text : List Char}
    {front later : List (Component × Nat)} {c : Component} {stop : Nat}
    (h : componentsOfPieces atStart (pieceEnds position (Text.pieces '/' text)) =
      front ++ (c, stop) :: later) :
    ∃ count before after, stop = position + count ∧
      Text.pieces '/' text = before ++ after ∧ Text.pieces '/' (text.take count) = before ∧
      later = componentsOfPieces false (pieceEnds (stop + 1) after) := by
  generalize eq : Text.pieces '/' text = ps at h
  induction ps generalizing atStart position text front with
  | nil => cases front <;> cases h
  | cons piece rest ih =>
    obtain ⟨absent, found⟩ := Text.exists_of_pieces_eq_cons eq
    -- When the component is not that of the first piece, it is one of the pieces after it.
    have further {front : List (Component × Nat)}
        (h : componentsOfPieces false (pieceEnds (position + piece.length + 1) rest) =
          front ++ (c, stop) :: later) :
        ∃ count before after, stop = position + count ∧ piece :: rest = before ++ after ∧
          Text.pieces '/' (text.take count) = before ∧
          later = componentsOfPieces false (pieceEnds (stop + 1) after) := by
      obtain ⟨rfl, rfl⟩ | ⟨text', rfl, behind⟩ := found
      · cases front <;> cases h
      · obtain ⟨count, before, after, rfl, split, cut, last⟩ := ih behind h
        refine ⟨piece.length + 1 + count, piece :: before, after, ?_, ?_, ?_, ?_⟩
        · omega
        · rw [split, List.cons_append]
        · rw [Nat.add_assoc, List.take_length_add_append, Nat.add_comm 1, List.take_succ_cons,
            Text.pieces_append absent, cut]
        · exact last
    rw [pieceEnds, componentsOfPieces] at h
    split at h
    case h_2 => exact further h
    case h_1 first _ =>
      cases front with
      | cons _ front =>
        rw [List.cons_append] at h
        exact further (List.cons.inj h).2
      | nil =>
        obtain ⟨⟨⟩, rfl⟩ := List.cons.inj h
        refine ⟨piece.length, [piece], rest, rfl, rfl, ?_, rfl⟩
        obtain ⟨rfl, -⟩ | ⟨later, rfl, -⟩ := found
        · rw [List.take_length, Text.pieces_of_not_mem absent]
        · rw [List.take_left, Text.pieces_of_not_mem absent]

/-- Pieces with a component are not all empty. -/
lemma filter_ne_nil_of_componentsOfPieces {atStart : Bool} {position : Nat}
    {pieces : List (List Char)} (h : componentsOfPieces atStart (pieceEnds position pieces) ≠ []) :
    pieces.filter (!·.isEmpty) ≠ [] := by
  induction pieces generalizing atStart position with
  | nil => exact absurd rfl h
  | cons piece rest ih =>
    cases piece with
    | nil => exact ih h
    | cons c piece => exact List.cons_ne_nil _ _

/-- A path with a component behind a place has parts behind that place. -/
lemma parts_of_componentsOfPieces {atStart : Bool} {path : String}
    {front : List (Component × Nat)} {c : Component} {stop : Nat} {last : Component × Nat}
    (h : componentsOfPieces atStart (pieceEnds 0 (Text.pieces '/' path.toList)) =
      front ++ [(c, stop), last]) :
    ∃ part rest, FileTree.parts path =
      FileTree.parts (String.ofList (path.toList.take stop)) ++ part :: rest := by
  obtain ⟨count, before, after, rfl, split, cut, behind⟩ := exists_of_componentsOfPieces h
  have some : after.filter (!·.isEmpty) ≠ [] :=
    filter_ne_nil_of_componentsOfPieces (behind ▸ List.cons_ne_nil last [])
  obtain ⟨piece, rest, eq⟩ := List.exists_cons_of_ne_nil some
  refine ⟨String.ofList piece, rest.map String.ofList, ?_⟩
  rw [FileTree.parts, FileTree.parts, String.toList_ofList, Nat.zero_add, cut, split,
    List.filter_append, List.map_append, eq, List.map_cons]

/-- A path with a component has a part. -/
lemma parts_ne_nil {atStart : Bool} {path : String}
    (h : componentsOfPieces atStart (pieceEnds 0 (Text.pieces '/' path.toList)) ≠ []) :
    ∃ part rest, FileTree.parts path = part :: rest := by
  obtain ⟨piece, rest, eq⟩ := List.exists_cons_of_ne_nil (filter_ne_nil_of_componentsOfPieces h)
  exact ⟨_, _, by rw [FileTree.parts, eq, List.map_cons]⟩

/-- The parts of a path begin with those of the path above it. -/
lemma exists_parts_of_parent {path above : String} (h : parent? path = some above) :
    ∃ part rest, FileTree.parts path = FileTree.parts above ++ part :: rest := by
  rw [parent?] at h
  split at h
  case h_1 | h_2 => cases h
  case h_3 last notRoot eq =>
    cases h
    rw [List.reverse_eq_iff, List.reverse_singleton, componentEnds] at eq
    split at eq
    -- the only component of an absolute path is the root, above which there is nothing
    case isTrue =>
      obtain ⟨rfl, -⟩ := List.cons.inj eq
      exact absurd rfl (notRoot 1)
    case isFalse =>
      have some := List.cons_ne_nil last []
      rw [← eq] at some
      exact parts_ne_nil some
  case h_4 last c stop front notRoot eq =>
    cases h
    rw [List.reverse_eq_iff, List.reverse_cons, List.reverse_cons, List.append_assoc,
      List.singleton_append, componentEnds] at eq
    split at eq
    case isFalse => exact parts_of_componentsOfPieces eq
    case isTrue absolute =>
      cases back : front.reverse with
      | cons _ front =>
        rw [back, List.cons_append] at eq
        exact parts_of_componentsOfPieces (List.cons.inj eq).2
      | nil =>
        rw [back, List.nil_append] at eq
        obtain ⟨root, eq⟩ := List.cons.inj eq
        have some := List.cons_ne_nil last []
        rw [← eq] at some
        -- above a part right below the root is the root itself, which has no parts
        have none : FileTree.parts (String.ofList (path.toList.take stop)) = [] := by
          obtain ⟨rest, chars⟩ := List.head?_eq_some_iff.1 absolute
          rw [← (Prod.mk.inj root).2, chars, FileTree.parts, String.toList_ofList]
          rfl
        rw [none]
        exact parts_ne_nil some

/-- The parts of a path begin with those of any path above it. -/
lemma exists_parts_of_mem_ancestorsUpTo {count : Nat} {path above : String}
    (h : above ∈ ancestorsUpTo count path) :
    ∃ rest, FileTree.parts path = FileTree.parts above ++ rest := by
  induction count generalizing path with
  | zero => cases h
  | succ count ih =>
    rw [ancestorsUpTo] at h
    split at h
    case h_1 =>
      cases List.mem_singleton.1 h
      exact ⟨[], (List.append_nil _).symm⟩
    case h_2 parent up =>
      obtain rfl | further := List.mem_cons.1 h
      · exact ⟨[], (List.append_nil _).symm⟩
      · obtain ⟨part, rest, eq⟩ := exists_parts_of_parent up
        obtain ⟨more, eq'⟩ := ih further
        exact ⟨more ++ part :: rest, by rw [eq, eq', List.append_assoc]⟩

end Path

namespace FileTree

/-! ## Where a path leads through -/

/-- The places that some parts lead through from a place, without the one where they end. -/
def wayFrom (place : TreePlace) : List String → List TreePlace
  | [] => []
  | part :: rest => place :: wayFrom (stepTo place part) rest

/-- The places that a path leads through. -/
def way (path : String) : List TreePlace := wayFrom [] (parts path)

/-- The place that a path leads to when there are directories on its way. -/
def destination (path : String) : TreePlace := (parts path).foldl stepTo []

/-- Behind some parts a path leads on from where they lead. -/
lemma wayFrom_append (place : TreePlace) (front rest : List String) :
    wayFrom place (front ++ rest) =
      wayFrom place front ++ wayFrom (front.foldl stepTo place) rest := by
  induction front generalizing place with
  | nil => rfl
  | cons part front ih =>
    rw [List.cons_append, wayFrom, ih, wayFrom, List.cons_append, List.foldl_cons]

/-- A walk ends where its parts lead. -/
lemma eq_foldl_of_walk {t : FileTree} {q r : TreePlace} {parts : List String}
    (reached : t.walk q parts = .ok r) : r = parts.foldl stepTo q := by
  induction parts generalizing q with
  | nil =>
    cases reached
    rfl
  | cons part rest ih =>
    rw [walk] at reached
    split at reached
    case h_1 | h_2 => cases reached
    case h_3 => exact ih reached

/-- A path that is reached is reached where its parts lead. -/
lemma eq_destination_of_place {t : FileTree} {path : String} {q : TreePlace}
    (reached : t.place path = .ok q) : q = destination path := by
  rw [place] at reached
  split at reached
  case isTrue => cases reached
  case isFalse =>
    split at reached
    case isTrue => cases reached
    case isFalse => exact eq_foldl_of_walk reached

/-- A path leads through the places where the paths above it lead. -/
lemma way_of_mem_ancestors {path parent above : String} (up : Path.parent? path = some parent)
    (h : above ∈ Path.ancestors parent) : way above ⊆ way path ∧ destination above ∈ way path := by
  obtain ⟨part, rest, eq⟩ := Path.exists_parts_of_parent up
  obtain ⟨more, eq'⟩ := Path.exists_parts_of_mem_ancestorsUpTo h
  obtain ⟨next, later, further⟩ : ∃ next later, parts path = parts above ++ next :: later := by
    rw [eq, eq', List.append_assoc]
    cases more with
    | nil => exact ⟨part, rest, rfl⟩
    | cons next more => exact ⟨next, more ++ part :: rest, rfl⟩
  rw [way, way, further, wayFrom_append, wayFrom, destination]
  exact ⟨List.subset_append_left _ _, List.mem_append_right _ List.mem_cons_self⟩

/-! ## One file more -/

/-- An entry is found where it was put, and the others are as they were. -/
lemma get?_put (t : FileTree) (q : TreePlace) (e : TreeEntry) (x : TreePlace) :
    (t.put q e).get? x = if isOutside x = false ∧ q = x then some e else t.get? x := by
  rw [get?, get?, put]
  dsimp only
  rw [OrderedMap.get?_insert]
  cases isOutside x <;> simp

/-- What is found at a path is what stands at its place, and only a directory has a slash behind
it. -/
lemma find_of_place {t : FileTree} {path : String} {q : TreePlace}
    (reached : t.place path = .ok q) :
    t.find path =
      match t.get? q with
      | none => .error .notFound
      | some (.file contents) =>
        if endsWithSlash path then .error .notDirectory else .ok (.file contents)
      | some .directory => .ok .directory := by
  rw [find, reached]
  rfl

/-- The second tree is the first with a file at a place, unless something stands there already. -/
def OneMore (place : TreePlace) (contents : FileContents) (t t' : FileTree) : Prop :=
  ∀ q, t'.get? q = (t.get? q).or (if q = place then some (.file contents) else none)

/-- Putting a file where nothing stands gives a tree with one file more. -/
lemma oneMore_put {t : FileTree} {place : TreePlace} (free : t.get? place = none)
    (contents : FileContents) : OneMore place contents t (t.put place (.file contents)) := by
  intro q
  rw [get?_put]
  by_cases here : q = place
  · have inside : isOutside place = false := by
      rw [get?] at free
      split at free
      case isTrue => cases free
      case isFalse h => exact Bool.eq_false_iff.2 h
    rw [here, if_pos ⟨inside, rfl⟩, free, if_pos rfl, Option.none_or]
  · rw [if_neg fun h => here h.2.symm, if_neg here, Option.or_none]

namespace OneMore

variable {place : TreePlace} {contents : FileContents} {t t' : FileTree}
  (more : OneMore place contents t t')

include more

/-- At any other place the same stands in both trees. -/
lemma get?_eq {q : TreePlace} (other : q ≠ place) : t'.get? q = t.get? q := by
  rw [more q, if_neg other, Option.or_none]

/-- Whatever stands in the first tree stands in the second. -/
lemma get?_eq_some {q : TreePlace} {e : TreeEntry} (there : t.get? q = some e) :
    t'.get? q = some e := by
  rw [more q, there, Option.some_or]

/-- The trees have the same directories. -/
lemma get?_eq_directory_iff {q : TreePlace} :
    t'.get? q = some .directory ↔ t.get? q = some .directory := by
  rw [more q]
  cases t.get? q with
  | some e => rw [Option.some_or]
  | none =>
    rw [Option.none_or]
    split <;> simp

/-- So a path leads to the same place in both, if it leads to one. -/
lemma walk_eq_ok_iff {q r : TreePlace} {parts : List String} :
    t'.walk q parts = .ok r ↔ t.walk q parts = .ok r := by
  induction parts generalizing q with
  | nil => rfl
  | cons part rest ih =>
    have inside (u : FileTree) : u.walk q (part :: rest) = .ok r ↔
        u.get? q = some .directory ∧ u.walk (stepTo q part) rest = .ok r := by
      rw [walk]
      split <;> simp_all
    rw [inside, inside, more.get?_eq_directory_iff, ih]

/-- A path is that of the same place in both, if it is that of a place in one. -/
lemma place_eq_ok_iff {path : String} {q : TreePlace} :
    t'.place path = .ok q ↔ t.place path = .ok q := by
  rw [FileTree.place, FileTree.place]
  split
  · rfl
  · split
    · rfl
    · exact more.walk_eq_ok_iff

/-- What stands at a path in the first tree stands there in the second. -/
lemma find_eq_ok {path : String} {e : TreeEntry} (found : t.find path = .ok e) :
    t'.find path = .ok e := by
  cases reached : t.place path with
  | error fault =>
    rw [find, reached] at found
    cases found
  | ok q =>
    rw [find_of_place reached] at found
    rw [find_of_place (more.place_eq_ok_iff.2 reached)]
    cases there : t.get? q with
    | none =>
      rw [there] at found
      cases found
    | some standing =>
      rw [there] at found
      rw [more.get?_eq_some there]
      exact found

/-- A path that does not lead to the file shows the same in both. -/
lemma kind?_eq {path : String} (other : t.place path ≠ .ok place) :
    t'.kind? path = t.kind? path := by
  cases reached : t.place path with
  | ok q =>
    have same : q ≠ place := fun e => other (e ▸ reached)
    rw [kind?, kind?, find_of_place reached, find_of_place (more.place_eq_ok_iff.2 reached),
      more.get?_eq same]
  | error fault =>
    have unreached : ∀ q, t'.place path ≠ .ok q := fun q reached' =>
      nomatch reached.symm.trans (more.place_eq_ok_iff.1 reached')
    cases reached' : t'.place path with
    | ok q => exact absurd reached' (unreached q)
    | error fault' =>
      rw [kind?, kind?, find, find, reached, reached']
      rfl

/-- Output that does not go to the file is output of the same kind in both. -/
lemma isFileOutput_eq {path : String} (other : t.place path ≠ .ok place) :
    ((fileSystem.isFileOutput path).run t').1 = ((fileSystem.isFileOutput path).run t).1 := by
  have decided (u : FileTree) : ((fileSystem.isFileOutput path).run u).1 =
      (u.kind? path).elim (Path.extension? path).isSome (· = .file) := by
    have looked : ((fileSystem.kind? path).run u).1 = u.kind? path := rfl
    rw [FileSystem.isFileOutput, (looksOnly.kind? path).run_bind, looked]
    cases u.kind? path <;> rfl
  rw [decided, decided, more.kind?_eq other]

/-- A file of the first tree reads the same in the second. -/
lemma readText_eq {path : String} (file : t.kind? path = some .file) :
    t'.readText path = t.readText path := by
  rw [kind?] at file
  split at file
  case h_1 => cases file
  case h_2 contents found => rw [readText, readText, found, more.find_eq_ok found]
  case h_3 => cases file

/-! ### Paths off the file -/

/-- A walk that does not lead through the place of the file is the same in both. -/
lemma walk_eq {q : TreePlace} {parts : List String} (off : place ∉ wayFrom q parts) :
    t'.walk q parts = t.walk q parts := by
  induction parts generalizing q with
  | nil => rfl
  | cons part rest ih =>
    rw [wayFrom, List.mem_cons, not_or] at off
    rw [walk, walk, more.get?_eq (Ne.symm off.1), ih off.2]

/-- A path that does not lead through the place of the file is that of the same place in both. -/
lemma place_eq {path : String} (off : place ∉ way path) : t'.place path = t.place path := by
  rw [FileTree.place, FileTree.place, more.walk_eq off]

/-- Putting the same at a place of both trees keeps them alike. -/
lemma put (q : TreePlace) (e : TreeEntry) :
    OneMore place contents (t.put q e) (t'.put q e) := by
  intro x
  rw [get?_put, get?_put, more x]
  split
  · rw [Option.some_or]
  · rfl

end OneMore

/-! ### Writing -/

/-- A change that fails leaves the tree as it is. -/
lemma run_change (next : FileTree → Except FileError FileTree) (t : FileTree) :
    (change next).run t =
      match next t with
      | .ok changed => (.ok (), changed)
      | .error e => (.error e, t) := by
  change StateT.run (match next t with | .ok _ => _ | .error _ => _) t = _
  cases next t <;> rfl

section Writing

variable {place : TreePlace} {contents : FileContents}

/-- A change at the place of a path runs alike if it fails alike or puts the same there. -/
lemma parallel_change {path : String} (off : place ∉ way path)
    {step : FileTree → TreePlace → Except FileError FileTree}
    (alike : ∀ t t', OneMore place contents t t' → ∀ q, q = destination path →
      (∃ e, step t q = .error e ∧ step t' q = .error e) ∨
        ∃ entry, step t q = .ok (t.put q entry) ∧ step t' q = .ok (t'.put q entry)) :
    Parallel (OneMore place contents) (change fun t => t.place path >>= step t) := by
  intro t t' more
  rw [run_change, run_change, more.place_eq off]
  cases reached : t.place path with
  | error e => exact ⟨rfl, more⟩
  | ok q =>
    have goesOn (u : FileTree) : (Except.ok q >>= step u : Except FileError FileTree) = step u q :=
      rfl
    rw [goesOn, goesOn]
    obtain ⟨e, fails, fails'⟩ | ⟨entry, puts, puts'⟩ :=
      alike t t' more q (eq_destination_of_place reached)
    · rw [fails, fails']
      exact ⟨rfl, more⟩
    · rw [puts, puts']
      exact ⟨rfl, more.put q entry⟩

/-- What stands at a path that does not lead to the file is seen alike in both. -/
lemma parallel_kind? {path : String} (other : destination path ≠ place) :
    Parallel (OneMore place contents) (fileSystem.kind? path) := by
  intro t t' more
  refine ⟨more.kind?_eq fun reached => other ?_, more⟩
  exact (eq_destination_of_place reached).symm

/-- A directory is made alike in both off the way of the file. -/
lemma parallel_makeDirectory {path : String} (off : place ∉ way path)
    (other : destination path ≠ place) :
    Parallel (OneMore place contents) (fileSystem.makeDirectory path) := by
  refine parallel_change off fun t t' more q there => ?_
  rw [more.get?_eq (there ▸ other)]
  cases t.get? q with
  | some _ => exact .inl ⟨_, rfl, rfl⟩
  | none => exact .inr ⟨_, rfl, rfl⟩

/-- Text is written alike in both off the way of the file. -/
lemma parallel_writeText {path text : String} (off : place ∉ way path) :
    Parallel (OneMore place contents) (fileSystem.writeText path text) := by
  refine parallel_change off fun t t' more q there => ?_
  have directory : (t'.get? q = some .directory) = (t.get? q = some .directory) :=
    propext more.get?_eq_directory_iff
  simp only [directory]
  split
  · exact .inl ⟨_, rfl, rfl⟩
  · exact .inr ⟨_, rfl, rfl⟩

/-- A file is written alike in trees of which one has a file more that is not on its way. -/
lemma parallel_writeFile {path text : String} (off : place ∉ way path) :
    Parallel (OneMore place contents) (fileSystem.writeFile path text) := by
  refine FileSystem.parallel_writeFile (fun parent up above h => ?_) (fun parent up above h => ?_)
    (parallel_writeText off)
  all_goals
    obtain ⟨ways, there⟩ := way_of_mem_ancestors up h
    have other : destination above ≠ place := fun e => off (e ▸ there)
  · exact parallel_kind? other
  · exact parallel_makeDirectory (fun m => off (ways m)) other

end Writing

end FileTree

end MessageCatalog
