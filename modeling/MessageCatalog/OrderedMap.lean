/-!
# Maps in insertion order

A map is its list of entries. Inserting a key that is already there keeps its place and replaces
its value; a new key goes to the end. The order is part of the value: files are written in it.
-/

namespace MessageCatalog

/-- The entries of a map, in the order of their first insertion. -/
structure OrderedMap (κ ν : Type) where
  entries : List (κ × ν) := []
  deriving DecidableEq, Repr

namespace OrderedMap

variable {κ ν : Type} [DecidableEq κ]

instance : EmptyCollection (OrderedMap κ ν) := ⟨⟨[]⟩⟩

instance : Inhabited (OrderedMap κ ν) := ⟨⟨[]⟩⟩

/-- The keys in order. -/
def keys (m : OrderedMap κ ν) : List κ := m.entries.map Prod.fst

/-- The value of a key. -/
def get? (m : OrderedMap κ ν) (k : κ) : Option ν := m.entries.lookup k

def contains (m : OrderedMap κ ν) (k : κ) : Bool := (m.get? k).isSome

def isEmpty (m : OrderedMap κ ν) : Bool := m.entries.isEmpty

/-- Put `v` at the place of `k`, or at the end when `k` is new. -/
def insertEntry (k : κ) (v : ν) : List (κ × ν) → List (κ × ν)
  | [] => [(k, v)]
  | (k', v') :: rest => if k' = k then (k, v) :: rest else (k', v') :: insertEntry k v rest

/-- Set the value of a key. -/
def insert (m : OrderedMap κ ν) (k : κ) (v : ν) : OrderedMap κ ν :=
  ⟨insertEntry k v m.entries⟩

/-- Add an entry at the end, unless the key is there already. -/
def insertNew (m : OrderedMap κ ν) (k : κ) (v : ν) : OrderedMap κ ν :=
  if m.contains k then m else ⟨m.entries ++ [(k, v)]⟩

/-- The map of a list of pairs: the first place and the last value of each key. -/
def ofList (pairs : List (κ × ν)) : OrderedMap κ ν :=
  pairs.foldl (fun m (k, v) => m.insert k v) ∅

end OrderedMap

end MessageCatalog
