import Mathlib.Tactic.Lemma
import MessageCatalog.Loader

/-!
# Which reader loads a file

A file is loaded by the first reader that accepts it; the readers before it leave nothing behind.
-/

namespace MessageCatalog

variable {file : FileText} {root : Markup.Element}

/-! ## Analyses -/

/-- Whether an analysis does not accept the file. -/
def Analysis.Rejects (a : Analysis) : Prop := a.accepted = false

/-- A document with the root element and the attributes asked for is accepted. -/
lemma FileText.analyzeMarkup_accept {rootName : String} {attributes : List (String × String)}
    (h : Markup.read file.contents = .ok root) (hname : root.name = rootName)
    (hattributes : ∀ a ∈ attributes, root.attribute? a.1 = some a.2) :
    file.analyzeMarkup rootName attributes = .accept (.markup root) := by
  rw [analyzeMarkup, h]
  dsimp only
  rw [if_neg (not_not_intro hname), List.find?_eq_none.2]
  intro a m
  simp [hattributes a m]

/-- A file that is no document is rejected. -/
lemma FileText.analyzeMarkup_rejectFault {fault : Markup.Fault} {rootName : String}
    {attributes : List (String × String)} (h : Markup.read file.contents = .error fault) :
    (file.analyzeMarkup rootName attributes).Rejects := by
  rw [analyzeMarkup, h]
  rfl

/-- A document with another root element is rejected. -/
lemma FileText.analyzeMarkup_rejectRoot {rootName : String} {attributes : List (String × String)}
    (h : Markup.read file.contents = .ok root) (hname : root.name ≠ rootName) :
    (file.analyzeMarkup rootName attributes).Rejects := by
  rw [analyzeMarkup, h]
  dsimp only
  rw [if_pos hname]
  rfl

/-- A document whose root element has another value for an attribute is rejected. -/
lemma FileText.analyzeMarkup_rejectAttribute {rootName name value : String}
    (h : Markup.read file.contents = .ok root) (hvalue : root.attribute? name ≠ some value) :
    (file.analyzeMarkup rootName [(name, value)]).Rejects := by
  rw [analyzeMarkup, h]
  dsimp only
  split
  · rfl
  · rw [List.find?_cons_of_pos (by exact decide_eq_true hvalue)]
    rfl

/-- The root element is handed on from the analysis. -/
lemma FileText.markupOf_some (format : String) (analyze : FileText → Analysis) :
    file.markupOf format analyze (some (.markup root)) = .ok root := rfl

namespace Loader

variable {ds rejections : Diagnostics}

/-- A file is loaded by the first reader that accepts it. -/
lemma loadWith_of_accept (front : List Reader) (reader : Reader) (rest : List Reader)
    {document : Document} {bundle : Bundle} (hfront : ∀ r ∈ front, (r.analyze file).Rejects)
    (haccept : reader.analyze file = .accept document)
    (hread : reader.read file (some document) = .ok bundle) (hds : bundle.diagnostics = []) :
    loadWith file ds rejections (front ++ reader :: rest) = (some bundle, ds) := by
  -- A reader that rejects the file adds to the reasons, which are dropped in the end.
  induction front generalizing rejections with
  | nil =>
    obtain ⟨locale, translations, sources, diagnostics⟩ := bundle
    cases hds
    rw [List.nil_append, loadWith, haccept]
    change readAccepted reader file (some document) (ds ++ []) = _
    rw [readAccepted, hread, List.append_nil]
    exact congrArg (_, ·) (List.append_nil ds)
  | cons r front ih =>
    have rejects : (r.analyze file).accepted = false := hfront r List.mem_cons_self
    rw [List.cons_append, loadWith]
    dsimp only
    rw [rejects, if_neg Bool.false_ne_true]
    exact ih fun q m => hfront q (List.mem_cons_of_mem r m)

end Loader

end MessageCatalog
