import MessageCatalog.Proofs.FileSystem

/-!
# Running in two states

A computation may run alike in two states that differ: it answers the same, and the states differ
afterwards as they did before. A file is written alike in two states when the directories around it
are looked at and made alike, and the text is written alike.
-/

namespace MessageCatalog

variable {σ α β : Type} {R : σ → σ → Prop}

/-- A computation that answers the same in any two states that `R` joins, and leaves them joined. -/
def Parallel (R : σ → σ → Prop) (x : StateM σ α) : Prop :=
  ∀ s s', R s s' → (x.run s').1 = (x.run s).1 ∧ R (x.run s).2 (x.run s').2

namespace Parallel

variable {x : StateM σ α} {f : α → StateM σ β}

/-- Answering without a step is alike in all states. -/
lemma pure (a : α) : Parallel R (Pure.pure a : StateM σ α) := fun _ _ joined => ⟨rfl, joined⟩

/-- Steps that run alike run alike one after the other. -/
lemma bind (hx : Parallel R x) (hf : ∀ a, Parallel R (f a)) : Parallel R (x >>= f) := by
  intro s s' joined
  obtain ⟨same, between⟩ := hx s s' joined
  have later := hf (x.run s).1 _ _ between
  change ((f (x.run s').1).run (x.run s').2).1 = _ ∧ R _ ((f (x.run s').1).run (x.run s').2).2
  rw [same]
  exact later

/-- A choice between steps that run alike runs alike. -/
lemma ite {c : Prop} [Decidable c] {y : StateM σ α} (hx : Parallel R x) (hy : Parallel R y) :
    Parallel R (if c then x else y) := by
  split
  · exact hx
  · exact hy

end Parallel

namespace FileSystem

variable {fs : FileSystem (StateM σ)}

/-- What is seen alike is found alike to be a directory or not. -/
lemma parallel_isDirectory {path : String} (looks : Parallel R (fs.kind? path)) :
    Parallel R (fs.isDirectory path) :=
  looks.bind fun _ => .pure _

/-- Directories are made alike where each of them is looked at and made alike. -/
lemma parallel_makeDirectories {paths : List String}
    (looks : ∀ path ∈ paths, Parallel R (fs.kind? path))
    (makes : ∀ path ∈ paths, Parallel R (fs.makeDirectory path)) :
    Parallel R (fs.makeDirectories paths) := by
  induction paths with
  | nil => exact .pure _
  | cons path above ih =>
    have isDirectory := parallel_isDirectory (looks path List.mem_cons_self)
    have make := makes path List.mem_cons_self
    have kept : Parallel R (fs.makeOrKeep path) := make.bind fun made => by
      cases made with
      | ok _ => exact .pure _
      | error e => exact isDirectory.bind fun _ => .ite (.pure _) (.pure _)
    rw [makeDirectories]
    refine .ite (.pure _) (make.bind fun made => ?_)
    split
    case h_1 => exact .pure _
    case h_2 =>
      refine Parallel.bind (ih (fun p m => looks p (List.mem_cons_of_mem path m))
        fun p m => makes p (List.mem_cons_of_mem path m)) fun around => ?_
      cases around with
      | ok _ => exact kept
      | error e => exact .pure _
    case h_3 => exact isDirectory.bind fun _ => .ite (.pure _) (.pure _)

/-- A file is written alike where the directories around it are made alike. -/
lemma parallel_writeFile {path contents : String}
    (looks : ∀ parent, Path.parent? path = some parent → ∀ above ∈ Path.ancestors parent,
      Parallel R (fs.kind? above))
    (makes : ∀ parent, Path.parent? path = some parent → ∀ above ∈ Path.ancestors parent,
      Parallel R (fs.makeDirectory above))
    (writes : Parallel R (fs.writeText path contents)) :
    Parallel R (fs.writeFile path contents) := by
  rw [Flat.writeFile_eq]
  refine Parallel.bind ?_ fun made => ?_
  · cases up : Path.parent? path with
    | none => exact .pure _
    | some parent => exact parallel_makeDirectories (looks parent up) (makes parent up)
  · cases made with
    | ok _ => exact writes
    | error e => exact .pure _

end FileSystem

end MessageCatalog
