import MessageCatalog.Proofs.FileTree

/-!
# Paths inside a directory

The path of what lies in a directory has the components of the directory and, behind them, its own.
So the file name and the place of the directory are found again in the path of a file, however the
directory is spelled.
-/

namespace MessageCatalog

namespace Path

/-! ## Components of pieces -/

/-- The components of pieces; only the first can be at the start of a path. -/
def ofPieces (atStart : Bool) : List (List Char) → List Component
  | [] => []
  | piece :: rest => (componentOf? atStart piece).toList ++ rest.filterMap (componentOf? false)

/-- Behind the start of a path each piece is a component or none. -/
lemma ofPieces_false (pieces : List (List Char)) :
    ofPieces false pieces = pieces.filterMap (componentOf? false) := by
  cases pieces with
  | nil => rfl
  | cons piece rest =>
    rw [ofPieces, List.filterMap_cons]
    cases componentOf? false piece <;> rfl

/-- Only the pieces in front are at the start of the path. -/
lemma ofPieces_append {pieces : List (List Char)} (h : pieces ≠ []) (atStart : Bool)
    (later : List (List Char)) :
    ofPieces atStart (pieces ++ later) = ofPieces atStart pieces ++ ofPieces false later := by
  cases pieces with
  | nil => exact absurd rfl h
  | cons piece rest =>
    rw [List.cons_append, ofPieces, ofPieces, List.filterMap_append, List.append_assoc,
      ofPieces_false]

/-- The components do not depend on where the pieces end. -/
lemma map_fst_componentsOfPieces (atStart : Bool) (position : Nat) (pieces : List (List Char)) :
    (componentsOfPieces atStart (pieceEnds position pieces)).map Prod.fst =
      ofPieces atStart pieces := by
  induction pieces generalizing atStart position with
  | nil => rfl
  | cons piece rest ih =>
    rw [pieceEnds, componentsOfPieces, ofPieces, ← ofPieces_false]
    cases componentOf? atStart piece with
    | none => exact ih false _
    | some c => exact congrArg (c :: ·) (ih false _)

/-- A path from the root has the root as its first component. -/
lemma components_eq (path : String) :
    components path =
      if path.toList.head? = some '/' then .root :: ofPieces false (Text.pieces '/' path.toList)
      else ofPieces true (Text.pieces '/' path.toList) := by
  rw [components, componentEnds]
  split
  case isTrue => rw [List.map_cons, map_fst_componentsOfPieces]
  case isFalse => rw [map_fst_componentsOfPieces]

/-! ## The path above a path -/

/-- A text up to the end of a component has the components up to there. -/
lemma ofPieces_take {atStart : Bool} {text : List Char} {front later : List (Component × Nat)}
    {c : Component} {stop : Nat}
    (h : componentsOfPieces atStart (pieceEnds 0 (Text.pieces '/' text)) =
      front ++ (c, stop) :: later) :
    ofPieces atStart (Text.pieces '/' (text.take stop)) = front.map Prod.fst ++ [c] := by
  obtain ⟨count, before, after, rfl, split, cut, behind⟩ := exists_of_componentsOfPieces h
  have all := map_fst_componentsOfPieces atStart 0 (Text.pieces '/' text)
  have rest := map_fst_componentsOfPieces false (0 + count + 1) after
  have some : before ≠ [] := cut ▸ Text.pieces_ne_nil _ _
  rw [h, split, ofPieces_append some, List.map_append, List.map_cons, behind, rest,
    List.append_cons] at all
  rw [Nat.zero_add, cut]
  exact (List.append_cancel_right all).symm

/-- The text up to the end of a component has the components up to there. -/
lemma components_take {path : String} {front : List (Component × Nat)} {c : Component}
    {stop : Nat} {last : Component × Nat} (h : componentEnds path = front ++ [(c, stop), last]) :
    components (String.ofList (path.toList.take stop)) = front.map Prod.fst ++ [c] := by
  rw [componentEnds] at h
  rw [components_eq, String.toList_ofList, List.head?_take]
  split at h
  case isFalse relative =>
    rw [if_neg, ofPieces_take h]
    split
    · exact (Option.some_ne_none '/').symm
    · exact relative
  case isTrue absolute =>
    cases front with
    | nil =>
      obtain ⟨root, -⟩ := List.cons.inj h
      obtain ⟨rfl, rfl⟩ := Prod.mk.inj root
      obtain ⟨rest, chars⟩ := List.head?_eq_some_iff.1 absolute
      rw [chars]
      rfl
    | cons first front =>
      rw [List.cons_append] at h
      obtain ⟨rfl, later⟩ := List.cons.inj h
      have behind := ofPieces_take later
      have some : stop ≠ 0 := by
        rintro rfl
        exact List.append_ne_nil_of_right_ne_nil _ (List.cons_ne_nil c []) behind.symm
      rw [if_neg some, if_pos absolute, behind]
      rfl

/-- The path above a path has its components but for the last. -/
lemma components_of_parent? {path above : String} (h : parent? path = some above) :
    components above = (components path).dropLast := by
  rw [parent?] at h
  split at h
  case h_1 | h_2 => cases h
  case h_3 last _ eq =>
    cases h
    rw [List.reverse_eq_iff, List.reverse_singleton] at eq
    rw [components, components, eq]
    rfl
  case h_4 last c stop front _ eq =>
    cases h
    rw [List.reverse_eq_iff, List.reverse_cons, List.reverse_cons, List.append_assoc,
      List.singleton_append] at eq
    rw [components_take eq, components, eq]
    simp

/-- There is a path above one that ends in a name. -/
lemma exists_parent? {path name : String} {front : List Component}
    (h : components path = front ++ [.name name]) :
    ∃ above, parent? path = some above ∧ components above = front := by
  have some : ∃ above, parent? path = some above := by
    rw [components, List.map_eq_append_iff] at h
    obtain ⟨ends, last, split, -, ending⟩ := h
    obtain ⟨stop, rfl⟩ : ∃ stop, last = [(.name name, stop)] := by
      obtain ⟨⟨c, stop⟩, rfl, eq⟩ := List.map_eq_singleton_iff.1 ending
      cases eq
      exact ⟨stop, rfl⟩
    rw [parent?, split, List.reverse_append, List.reverse_singleton, List.singleton_append]
    cases ends.reverse with
    | nil => exact ⟨_, rfl⟩
    | cons _ _ => exact ⟨_, rfl⟩
  obtain ⟨above, up⟩ := some
  refine ⟨above, up, ?_⟩
  rw [components_of_parent? up, h, List.dropLast_concat]

/-! ## Names in a directory -/

/-- A text that is the name of a file by itself. -/
structure IsFileName (name : String) : Prop where
  ne_empty : name ≠ ""
  ne_here : name ≠ "."
  ne_up : name ≠ ".."
  separator_not_mem : '/' ∉ name.toList

/-- A file name is one component, wherever it stands. -/
lemma IsFileName.componentOf? {name : String} (h : IsFileName name) (atStart : Bool) :
    componentOf? atStart name.toList = some (.name name) := by
  have empty : name.toList.isEmpty ≠ true := fun e =>
    h.ne_empty (String.toList_eq_nil_iff.1 (List.isEmpty_iff.1 e))
  have here : name.toList ≠ ['.'] := fun e => h.ne_here (String.toList_inj.1 e)
  have up : name.toList ≠ ['.', '.'] := fun e => h.ne_up (String.toList_inj.1 e)
  rw [Path.componentOf?, if_neg empty, if_neg here, if_neg up, String.ofList_toList]

/-- Different pieces are different components, unless they are empty. -/
lemma componentOf?_inj {atStart : Bool} {p q : List Char} (hp : p ≠ []) (hq : q ≠ [])
    (h : componentOf? atStart p = componentOf? atStart q) : p = q := by
  have some (piece : List Char) (h : piece ≠ []) : componentOf? atStart piece =
      if piece = ['.'] then if atStart then some .here else none
      else if piece = ['.', '.'] then some .up
      else some (Component.name (String.ofList piece)) := by
    exact if_neg fun empty => h (List.isEmpty_iff.1 empty)
  rw [some p hp, some q hq] at h
  have name {p q : List Char} (same : String.ofList p = String.ofList q) : p = q :=
    String.ofList_injective same
  cases atStart <;> grind

/-- A directory as it is written in front of what lies in it. -/
def lead (directory : String) : String := join directory ""

variable {directory name : String}

/-- What leads into a directory is its path with a slash behind it, if it needs one. -/
lemma lead_eq (directory : String) :
    lead directory =
      if directory.isEmpty then ""
      else if directory.toList.getLast? = some '/' then directory
      else directory ++ "/" := by
  rw [lead, join, if_neg (by simp)]
  simp only [String.append_empty]

/-- A name without a slash in front is joined to what leads into the directory. -/
lemma join_eq (h : name.toList.head? ≠ some '/') :
    join directory name = lead directory ++ name := by
  rw [join, if_neg h, lead_eq]
  split
  · exact (String.empty_append).symm
  · split <;> rfl

/-- A directory is written with a separator at its end in front of what lies in it, unless it is
the one whose text is empty. -/
lemma lead_cases (directory : String) :
    directory = "" ∧ lead directory = "" ∨
      directory.isEmpty = false ∧ ∃ front, (lead directory).toList = front ++ ['/'] := by
  rw [lead_eq]
  split
  case isTrue empty => exact .inl ⟨String.isEmpty_iff.1 empty, rfl⟩
  case isFalse some =>
    refine .inr ⟨Bool.eq_false_iff.2 some, ?_⟩
    split
    case isTrue closed => exact List.getLast?_eq_some_iff.1 closed
    case isFalse => exact ⟨directory.toList, String.toList_append⟩

/-- A separator at its end does not change what a path means. -/
lemma components_append_separator {path : String} (some : path.isEmpty = false) :
    components (path ++ "/") = components path := by
  have head : (path ++ "/").toList.head? = path.toList.head? := by
    rw [String.toList_append]
    cases chars : path.toList with
    | nil =>
      rw [String.toList_eq_nil_iff.1 chars] at some
      cases some
    | cons c rest => rfl
  have pieces : Text.pieces '/' (path ++ "/").toList = Text.pieces '/' path.toList ++ [[]] := by
    rw [String.toList_append]
    exact Text.pieces_append_cons '/' path.toList []
  have same (atStart : Bool) :
      ofPieces atStart (Text.pieces '/' path.toList ++ [[]]) =
        ofPieces atStart (Text.pieces '/' path.toList) := by
    rw [ofPieces_append (Text.pieces_ne_nil _ _)]
    exact List.append_nil _
  rw [components_eq, components_eq, head, pieces, same, same]

/-- A slash behind a path adds no component. -/
lemma components_lead (directory : String) :
    components (lead directory) = components directory := by
  rw [lead_eq]
  split
  case isTrue empty => rw [String.isEmpty_iff.1 empty]
  case isFalse some =>
    split
    case isTrue => rfl
    case isFalse => exact components_append_separator (Bool.eq_false_iff.2 some)

/-- What stands behind a separator has components of its own. -/
lemma components_ofList_append (front below : List Char) :
    components (String.ofList (front ++ '/' :: below)) =
      components (String.ofList (front ++ ['/'])) ++ ofPieces false (Text.pieces '/' below) := by
  have head : (front ++ '/' :: below).head? = (front ++ ['/']).head? := by
    cases front <;> rfl
  have pieces (atStart : Bool) (rest : List (List Char)) :
      ofPieces atStart (Text.pieces '/' front ++ rest) =
        ofPieces atStart (Text.pieces '/' front) ++ ofPieces false rest :=
    ofPieces_append (Text.pieces_ne_nil _ _) atStart rest
  have none : ofPieces false (Text.pieces '/' []) = [] := rfl
  rw [components_eq, components_eq, String.toList_ofList, String.toList_ofList, head,
    Text.pieces_append_cons, Text.pieces_append_cons, pieces, pieces, pieces, pieces, none,
    List.append_nil, List.append_nil]
  split <;> rfl

/-- What lies in a directory has the components of the directory and then its own. -/
lemma components_lead_append (directory : String) {below : String}
    (h : below.toList.head? ≠ some '/') :
    components (lead directory ++ below) =
      components directory ++ ofPieces directory.isEmpty (Text.pieces '/' below.toList) := by
  obtain ⟨rfl, none⟩ | ⟨some, front, chars⟩ := lead_cases directory
  · rw [none, String.empty_append, components_eq, if_neg h]
    rfl
  · have whole : lead directory ++ below = String.ofList (front ++ '/' :: below.toList) := by
      rw [← String.toList_inj, String.toList_append, chars, String.toList_ofList,
        List.append_assoc, List.singleton_append]
    have above : lead directory = String.ofList (front ++ ['/']) := by
      rw [← chars, String.ofList_toList]
    rw [whole, components_ofList_append, ← above, components_lead, some]

/-- A file name does not begin with a slash. -/
lemma IsFileName.head?_ne (h : IsFileName name) : name.toList.head? ≠ some '/' := by
  intro absolute
  exact h.separator_not_mem (List.mem_of_mem_head? absolute)

/-- A file name is joined to what leads into its directory. -/
lemma IsFileName.join_eq (h : IsFileName name) (directory : String) :
    join directory name = lead directory ++ name :=
  Path.join_eq h.head?_ne

/-- A file has the components of its directory and its name. -/
lemma components_join (h : IsFileName name) (directory : String) :
    components (join directory name) = components directory ++ [.name name] := by
  rw [h.join_eq, components_lead_append directory h.head?_ne,
    Text.pieces_of_not_mem h.separator_not_mem, ofPieces, h.componentOf?]
  rfl

/-- The name of a file is found in its path. -/
lemma fileName?_join (h : IsFileName name) (directory : String) :
    fileName? (join directory name) = some name := by
  rw [fileName?, components_join h, List.getLast?_concat]

/-- The directory of a file is found in its path. -/
lemma parent?_join (h : IsFileName name) (directory : String) :
    (parent? (join directory name)).map components = some (components directory) := by
  obtain ⟨above, up, same⟩ := exists_parent? (components_join h directory)
  rw [up, ← same]
  rfl

/-- What a directory ends with in front of what lies in it has a separator. -/
lemma separator_mem_of_lead {front back : List Char} (h : (lead directory).toList = front ++ back)
    (some : back ≠ []) : '/' ∈ back := by
  obtain ⟨-, none⟩ | ⟨-, before, chars⟩ := lead_cases directory
  · rw [none] at h
    exact absurd (List.append_eq_nil_iff.1 h.symm).2 some
  · have last := congrArg List.getLast? (chars.symm.trans h)
    rw [List.getLast?_concat, List.getLast?_append_of_ne_nil _ some] at last
    exact List.mem_of_getLast? last.symm

/-- A path is cut in one way into a directory and what lies in it. -/
lemma lead_append_inj {directory' below below' : String} (h : '/' ∉ below.toList)
    (h' : '/' ∉ below'.toList) :
    lead directory ++ below = lead directory' ++ below' ↔
      lead directory = lead directory' ∧ below = below' := by
  constructor
  · intro same
    have chars := congrArg String.toList same
    rw [String.toList_append, String.toList_append, List.append_eq_append_iff] at chars
    have none : (lead directory).toList = (lead directory').toList := by
      obtain ⟨between, longer, rest⟩ | ⟨between, longer, rest⟩ := chars
      · by_cases empty : between = []
        · rw [longer, empty, List.append_nil]
        · rw [rest] at h
          exact absurd (List.mem_append_left _ (separator_mem_of_lead longer empty)) h
      · by_cases empty : between = []
        · rw [longer, empty, List.append_nil]
        · rw [rest] at h'
          exact absurd (List.mem_append_left _ (separator_mem_of_lead longer empty)) h'
    rw [String.toList_inj] at none
    rw [none, String.append_right_inj] at same
    exact ⟨none, same⟩
  · rintro ⟨same, rfl⟩
    rw [same]

end Path

end MessageCatalog
