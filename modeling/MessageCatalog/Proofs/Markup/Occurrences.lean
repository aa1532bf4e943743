import Mathlib.Tactic.Lemma
import MessageCatalog.Markup.Tree

/-!
# Elements in document order

All elements below an element in the order of their start tags, each with the tags around it. What
walks a tree from tag to tag, and passes over what is inside elements with a certain name, goes
through this list: the walk is a fold, and each of its steps sees one element and what is around it.
-/

namespace MessageCatalog.Markup

/-- An element of a document and the tags of the elements around it, the innermost first. -/
structure Occurrence where
  around : List Tag
  element : Element
  deriving Repr

mutual

/-- The elements of a node in document order. -/
def Node.occurrences (around : List Tag) : Node → List Occurrence
  | .element tag children =>
    ⟨around, ⟨tag, children⟩⟩ :: occurrencesIn (tag :: around) children
  | _ => []

/-- The elements of nodes in document order. -/
def occurrencesIn (around : List Tag) : List Node → List Occurrence
  | [] => []
  | node :: rest => node.occurrences around ++ occurrencesIn around rest

end

namespace Occurrence

def tag (o : Occurrence) : Tag := o.element.tag

def name (o : Occurrence) : String := o.element.name

/-- Whether an element does not stand inside one with this name. -/
def isOutside (name : String) (o : Occurrence) : Bool := o.around.all (·.name ≠ name)

end Occurrence

namespace Element

/-- All elements below an element, in document order. -/
def descendants (e : Element) : List Occurrence := occurrencesIn [] e.children

/-- The elements below an element that do not stand inside one with this name. -/
def outside (e : Element) (name : String) : List Occurrence :=
  e.descendants.filter (·.isOutside name)

/-- The elements with this name below an element, apart from those inside another one. -/
def outermost (e : Element) (name : String) : List Element :=
  ((e.outside name).filter (·.name = name)).map (·.element)

/-- Whether a tag is that of an element or of one below it. -/
def HasTag (e : Element) (tag : Tag) : Prop := tag = e.tag ∨ ∃ o ∈ e.descendants, o.tag = tag

end Element

/-! ## What is inside an element -/

mutual

/-- What stands around a node stands around all elements in it. -/
lemma Node.around_of_mem (node : Node) {around : List Tag} {o : Occurrence}
    (h : o ∈ node.occurrences around) : around ⊆ o.around := by
  cases node with
  | text | comment | instruction => cases h
  | element tag children =>
    rw [Node.occurrences] at h
    cases h with
    | head => exact List.Subset.refl around
    | tail _ inside =>
      exact List.subset_of_cons_subset (around_of_mem_occurrencesIn children inside)

/-- What stands around nodes stands around all elements in them. -/
lemma around_of_mem_occurrencesIn (nodes : List Node) {around : List Tag} {o : Occurrence}
    (h : o ∈ occurrencesIn around nodes) : around ⊆ o.around := by
  cases nodes with
  | nil => cases h
  | cons node rest =>
    rw [occurrencesIn] at h
    cases List.mem_append.1 h with
    | inl first => exact node.around_of_mem first
    | inr later => exact around_of_mem_occurrencesIn rest later

end

/-- Nothing inside an element with a name stands outside of all such elements. -/
lemma filter_isOutside_of_inside {name : String} {tag : Tag} (h : tag.name = name)
    (around : List Tag) (children : List Node) :
    (occurrencesIn (tag :: around) children).filter (·.isOutside name) = [] := by
  rw [List.filter_eq_nil_iff]
  intro o inside outside
  have there : tag ∈ o.around := around_of_mem_occurrencesIn children inside List.mem_cons_self
  have other : tag.name ≠ name := by simpa using List.all_eq_true.1 outside tag there
  exact other h

mutual

/-- Which elements there are does not depend on what stands around a node. -/
lemma Node.elements_occurrences (node : Node) (around other : List Tag) :
    (node.occurrences around).map (·.element) = (node.occurrences other).map (·.element) := by
  cases node with
  | text | comment | instruction => rfl
  | element tag children =>
    rw [Node.occurrences, Node.occurrences, List.map_cons, List.map_cons,
      elements_occurrencesIn children (tag :: around) (tag :: other)]

/-- Which elements there are does not depend on what stands around nodes. -/
lemma elements_occurrencesIn (nodes : List Node) (around other : List Tag) :
    (occurrencesIn around nodes).map (·.element) = (occurrencesIn other nodes).map (·.element) := by
  cases nodes with
  | nil => rfl
  | cons node rest =>
    rw [occurrencesIn, occurrencesIn, List.map_append, List.map_append,
      node.elements_occurrences around other, elements_occurrencesIn rest around other]

end

/-- The elements of a node are among those of all nodes. -/
lemma mem_occurrencesIn_of_mem {nodes : List Node} {node : Node} (h : node ∈ nodes)
    {around : List Tag} {o : Occurrence} (inside : o ∈ node.occurrences around) :
    o ∈ occurrencesIn around nodes := by
  induction nodes with
  | nil => cases h
  | cons first rest ih =>
    rw [occurrencesIn, List.mem_append]
    cases h with
    | head => exact .inl inside
    | tail _ later => exact .inr (ih later)

/-- The tags of a child are tags of the element. -/
lemma Element.HasTag.of_child {e child : Element} (h : child ∈ e.childElements) {tag : Tag}
    (inside : child.HasTag tag) : e.HasTag tag := by
  obtain ⟨node, hnode, same⟩ := List.mem_filterMap.1 h
  cases node with
  | text | comment | instruction => cases same
  | element childTag children =>
    cases same
    have all : ∀ o ∈ (Node.element childTag children).occurrences [], o ∈ e.descendants :=
      fun o => mem_occurrencesIn_of_mem hnode
    rw [Node.occurrences] at all
    cases inside with
    | inl own => exact .inr ⟨_, all _ List.mem_cons_self, own.symm⟩
    | inr below =>
      obtain ⟨o, ho, rfl⟩ := below
      have there : o.element ∈ (occurrencesIn [childTag] children).map (·.element) := by
        rw [elements_occurrencesIn children [childTag] []]
        exact List.mem_map_of_mem ho
      obtain ⟨o', ho', same⟩ := List.mem_map.1 there
      exact .inr ⟨o', all o' (List.mem_cons_of_mem _ ho'), congrArg Element.tag same⟩

/-! ## Walks -/

section Walk

variable {σ ε : Type} {name : String} {step : σ → Occurrence → Except ε σ}
  {readNode : List Tag → σ → Node → Except ε σ}
  {readNodes : List Tag → σ → List Node → Except ε σ}

/-- What a walk does that passes over the inside of elements with a name: it takes a step at each
element, and then goes on below it unless the element has that name. -/
structure Walks (name : String) (step : σ → Occurrence → Except ε σ)
    (readNode : List Tag → σ → Node → Except ε σ)
    (readNodes : List Tag → σ → List Node → Except ε σ) : Prop where
  nil : ∀ around s, readNodes around s [] = .ok s
  cons : ∀ around s node rest,
    readNodes around s (node :: rest) = readNode around s node >>= (readNodes around · rest)
  other : ∀ around s node, node.element? = none → readNode around s node = .ok s
  passed : ∀ around s tag children, tag.name = name →
    readNode around s (.element tag children) = step s ⟨around, ⟨tag, children⟩⟩
  entered : ∀ around s tag children, tag.name ≠ name →
    readNode around s (.element tag children) =
      step s ⟨around, ⟨tag, children⟩⟩ >>= (readNodes (tag :: around) · children)

mutual

/-- A walk through a node is the fold over the elements in it that it does not pass over. -/
lemma Walks.readNode_eq (h : Walks name step readNode readNodes) (node : Node)
    {around : List Tag} (outside : around.all (·.name ≠ name) = true) (s : σ) :
    readNode around s node =
      ((node.occurrences around).filter (·.isOutside name)).foldlM step s := by
  cases node with
  | text | comment | instruction => exact h.other around s _ rfl
  | element tag children =>
    have here : Occurrence.isOutside name ⟨around, ⟨tag, children⟩⟩ = true := outside
    rw [Node.occurrences, List.filter_cons_of_pos here, List.foldlM_cons]
    by_cases same : tag.name = name
    · rw [filter_isOutside_of_inside same, h.passed around s tag children same]
      exact (bind_pure _).symm
    · have further : (tag :: around).all (·.name ≠ name) = true := by
        rw [List.all_cons, outside, decide_eq_true same]
        rfl
      rw [h.entered around s tag children same]
      exact congrArg (step s ⟨around, ⟨tag, children⟩⟩ >>= ·)
        (funext fun s => h.readNodes_eq children further s)

/-- A walk goes through the elements outside in document order. -/
theorem Walks.readNodes_eq (h : Walks name step readNode readNodes) (nodes : List Node)
    {around : List Tag} (outside : around.all (·.name ≠ name) = true) (s : σ) :
    readNodes around s nodes =
      ((occurrencesIn around nodes).filter (·.isOutside name)).foldlM step s := by
  cases nodes with
  | nil => exact h.nil around s
  | cons node rest =>
    rw [h.cons, occurrencesIn, List.filter_append, List.foldlM_append,
      h.readNode_eq node outside s]
    exact congrArg (_ >>= ·) (funext fun s => h.readNodes_eq rest outside s)

end

end Walk

end MessageCatalog.Markup
