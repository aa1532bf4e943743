import Mathlib.Data.List.Basic
import Mathlib.Tactic.Choose
import MessageCatalog.Proofs.Identity
import MessageCatalog.Proofs.Loader

/-!
# A bundle or one error

A reader accepts a file with the document that it has read and nothing to say, or it rejects the
file with one warning. A bundle that was read has nothing to say either. So loading a file gives a
bundle and adds nothing to the diagnostics, or gives none and adds one error. When all readers
reject the file, the error lists their warnings.
-/

namespace MessageCatalog

variable {file : FileText} {document : Option Document} {bundle : Bundle}

/-! ## Analyses -/

/-- An analysis that accepts with a document or rejects with a reason. -/
inductive Analysis.Settled : Analysis → Prop
  | accept (document : Document) : Settled (.accept document)
  | reject (reason : String) : Settled (.reject reason)

namespace Analysis.Settled

variable {a : Analysis}

/-- A file is accepted when there is a document of it. -/
lemma accepted_iff (h : a.Settled) : a.accepted = true ↔ a.document.isSome = true := by
  cases h with
  | accept document => exact ⟨fun _ => rfl, fun _ => rfl⟩
  | reject reason => exact ⟨nofun, nofun⟩

/-- There is a document when nothing is wrong. -/
lemma document_iff (h : a.Settled) : a.document.isSome = true ↔ a.diagnostics = [] := by
  cases h with
  | accept document => exact ⟨fun _ => rfl, fun _ => rfl⟩
  | reject reason => exact ⟨nofun, nofun⟩

/-- A rejected file is rejected for one reason. -/
lemma exists_reject (h : a.Settled) (rejects : a.accepted = false) :
    ∃ reason, a = .reject reason := by
  cases h with
  | accept document => cases rejects
  | reject reason => exact ⟨reason, rfl⟩

/-- The reason for a rejection is given as a warning. -/
lemma exists_warning (h : a.Settled) (rejects : a.accepted = false) :
    ∃ reason, a.diagnostics = [⟨.warning, reason⟩] := by
  obtain ⟨reason, rfl⟩ := h.exists_reject rejects
  exact ⟨reason, rfl⟩

end Analysis.Settled

open Analysis.Settled

/-- Analyzing a file of markup either gives its document or one reason. -/
lemma FileText.analyzeMarkup_settled (rootName : String) (attributes : List (String × String)) :
    (file.analyzeMarkup rootName attributes).Settled := by
  rw [analyzeMarkup]
  split
  case h_1 => exact reject _
  case h_2 =>
    split
    case isTrue => exact reject _
    case isFalse =>
      split
      case h_1 => exact reject _
      case h_2 => exact accept _

/-- Analyzing a file of JSON either gives its document or one reason. -/
lemma FileFormat.Json.analyze_settled : (FileFormat.Json.analyze file).Settled := by
  rw [FileFormat.Json.analyze]
  split
  case isTrue => exact reject _
  case isFalse =>
    split
    case h_1 => exact reject _
    case h_2 =>
      split
      case h_1 => exact reject _
      case h_2 => exact accept _

/-- Analyzing an XTB file either gives its document or one reason, which may be its extension. -/
lemma FileFormat.Xtb.analyze_settled : (FileFormat.Xtb.analyze file).Settled := by
  rw [FileFormat.Xtb.analyze]
  split
  case h_1 | h_2 => exact FileText.analyzeMarkup_settled _ _
  case h_3 => exact reject _

/-- Every reader either gives a document or one reason. -/
lemma Reader.analyze_settled (reader : Reader) (file : FileText) :
    (reader.analyze file).Settled := by
  cases reader with
  | xliff2 | xliff1 => exact FileText.analyzeMarkup_settled _ _
  | xtb => exact FileFormat.Xtb.analyze_settled
  | json => exact FileFormat.Json.analyze_settled

/-! ## Reading -/

/-- What is read of an XLIFF 2.0 file comes without diagnostics. -/
lemma FileFormat.Xliff2.diagnostics_read (h : FileFormat.Xliff2.read file document = .ok bundle) :
    bundle.diagnostics = [] := by
  obtain ⟨root, -, h⟩ := bind_eq_ok h
  obtain ⟨c, -, h⟩ := bind_eq_ok h
  cases h
  rfl

/-- What is read of an XLIFF 1.2 file comes without diagnostics. -/
lemma FileFormat.Xliff1.diagnostics_read (h : FileFormat.Xliff1.read file document = .ok bundle) :
    bundle.diagnostics = [] := by
  obtain ⟨root, -, h⟩ := bind_eq_ok h
  obtain ⟨c, -, h⟩ := bind_eq_ok h
  cases h
  rfl

/-- What is read of an XTB file comes without diagnostics. -/
lemma FileFormat.Xtb.diagnostics_read (h : FileFormat.Xtb.read file document = .ok bundle) :
    bundle.diagnostics = [] := by
  obtain ⟨root, -, h⟩ := bind_eq_ok h
  obtain ⟨translations, -, h⟩ := bind_eq_ok h
  cases h
  rfl

/-- What is read of a JSON file comes without diagnostics. -/
lemma FileFormat.Json.diagnostics_read (h : FileFormat.Json.read file document = .ok bundle) :
    bundle.diagnostics = [] := by
  rw [FileFormat.Json.read] at h
  split at h
  case h_1 =>
    obtain ⟨translations, -, h⟩ := bind_eq_ok h
    cases h
    rfl
  case h_2 => cases h

/-- What any reader reads comes without diagnostics. -/
lemma Reader.diagnostics_read {reader : Reader} (h : reader.read file document = .ok bundle) :
    bundle.diagnostics = [] := by
  cases reader with
  | xliff2 => exact FileFormat.Xliff2.diagnostics_read h
  | xliff1 => exact FileFormat.Xliff1.diagnostics_read h
  | xtb => exact FileFormat.Xtb.diagnostics_read h
  | json => exact FileFormat.Json.diagnostics_read h

/-! ## Loading -/

/-- A report of warnings lists them under their title. -/
lemma Diagnostics.report_warnings (headline : String) {messages : List String}
    (some : messages ≠ []) :
    report (messages.map fun message => ⟨.warning, message⟩) headline =
      headline ++ "\nWARNINGS:\n" ++ Text.join "\n" (messages.map (" - " ++ ·)) := by
  have errors : items (messages.map fun message => ⟨.warning, message⟩) .error = [] := by
    simp [items]
  have warnings : items (messages.map fun message => ⟨.warning, message⟩) .warning =
      messages.map (" - " ++ ·) := by
    simp [items, List.filter_map, Function.comp_def]
  have title : "\n" ++ "WARNINGS" ++ ":\n" = "\nWARNINGS:\n" := by decide
  rw [report, errors, warnings, listing, if_pos List.isEmpty_nil, listing,
    if_neg (by simpa using some), title, String.append_empty, ← String.append_assoc]

namespace Loader

variable {ds rejections : Diagnostics}

/-- Loading gives a bundle and reports nothing, or gives none and reports an error. -/
inductive Loads (ds : Diagnostics) : Option Bundle × Diagnostics → Prop
  | bundle {b : Bundle} (quiet : b.diagnostics = []) : Loads ds (some b, ds)
  | error (message : String) : Loads ds (none, ds.error message)

/-- An accepted file is read, or the error of its reader is added. -/
lemma loads_readAccepted (reader : Reader) :
    Loads ds (readAccepted reader file document ds) := by
  rw [readAccepted]
  split
  case h_1 bundle read =>
    rw [Reader.diagnostics_read read, List.append_nil]
    exact .bundle rfl
  case h_2 e _ => exact .error e.render

/-- Trying readers one after the other gives a bundle or adds one error. -/
lemma loads_loadWith (readers : List Reader) : Loads ds (loadWith file ds rejections readers) := by
  induction readers generalizing rejections with
  | nil => exact .error _
  | cons reader readers ih =>
    rw [loadWith]
    dsimp only
    split
    case isTrue accepted =>
      -- An analysis that accepts has nothing to add to the diagnostics.
      have settled := reader.analyze_settled file
      rw [settled.document_iff.1 (settled.accepted_iff.1 accepted), List.append_nil]
      exact loads_readAccepted reader
    case isFalse => exact ih

/-- Loading gives a bundle or adds one error. -/
lemma loads_load (file : FileText) (ds : Diagnostics) : Loads ds (load file ds) :=
  loads_loadWith Reader.all

/-- Readers that reject a file leave their reasons to the readers after them. -/
lemma loadWith_append_of_reject (ds rejections : Diagnostics) (front : List Reader)
    {reason : Reader → String} (rejects : ∀ r ∈ front, r.analyze file = .reject (reason r))
    (rest : List Reader) :
    loadWith file ds rejections (front ++ rest) =
      loadWith file ds
        (rejections ++ front.map fun r => (⟨.warning, r.name ++ ": " ++ reason r⟩ : Diagnostic))
        rest := by
  induction front generalizing rejections with
  | nil => rw [List.map_nil, List.append_nil, List.nil_append]
  | cons reader front ih =>
    have rejected : ¬(Analysis.reject (reason reader)).accepted = true := Bool.false_ne_true
    rw [List.cons_append, loadWith, rejects reader List.mem_cons_self]
    dsimp only
    rw [if_neg rejected, ih _ fun r m => rejects r (List.mem_cons_of_mem reader m),
      List.append_assoc]
    rfl

/-- What is said about a file that all readers reject, each for a reason of its own. -/
def rejectionMessage (path : String) (reason : Reader → String) : String :=
  "Unable to parse translation file \"" ++ path ++ "\"" ++ "\nWARNINGS:\n" ++
    Text.join "\n"
      ([.xliff2, .xliff1, .xtb, .json].map fun r : Reader => " - " ++ (r.name ++ ": " ++ reason r))

/-- When all readers reject a file, the one error that is added shows their reasons. -/
lemma load_of_reject {reason : Reader → String}
    (rejects : ∀ r : Reader, r.analyze file = .reject (reason r)) :
    load file ds = (none, ds.error (rejectionMessage file.path reason)) := by
  have some : (Reader.all.map fun r => r.name ++ ": " ++ reason r) ≠ [] := List.cons_ne_nil _ _
  have warnings := Diagnostics.report_warnings
    ("Unable to parse translation file \"" ++ file.path ++ "\"") some
  rw [List.map_map, List.map_map] at warnings
  have ended := loadWith_append_of_reject ds [] Reader.all (fun r _ => rejects r) []
  rw [List.append_nil, List.nil_append] at ended
  exact ended.trans (congrArg (fun text => (none, ds.error text)) warnings)

/-- Load files in order with one collector of diagnostics. -/
def loadAll : (files : List FileText) → (ds : Diagnostics) → List (Option Bundle) × Diagnostics
  | [], ds => ([], ds)
  | file :: rest, ds =>
    let (bundle, ds) := load file ds
    let (bundles, ds) := loadAll rest ds
    (bundle :: bundles, ds)

/-- The number of errors. -/
def errorCount (ds : Diagnostics) : Nat := ds.countP (·.severity = .error)

/-- Of the files that are loaded with one collector, each without a bundle adds an error. -/
lemma errorCount_loadAll (files : List FileText) (ds : Diagnostics) :
    errorCount (loadAll files ds).2 =
      errorCount ds + (loadAll files ds).1.countP Option.isNone := by
  induction files generalizing ds with
  | nil => rfl
  | cons file rest ih =>
    have loads := loads_load file ds
    rw [loadAll]
    generalize load file ds = loaded at loads
    cases loads with
    | bundle quiet => exact ih ds
    | error message =>
      have one : errorCount (ds.error message) = errorCount ds + 1 := by
        simp [errorCount, Diagnostics.error, Diagnostics.add]
      have more : List.countP Option.isNone (none :: (loadAll rest (ds.error message)).1) =
          (loadAll rest (ds.error message)).1.countP Option.isNone + 1 :=
        List.countP_cons_of_pos rfl
      refine (ih _).trans ?_
      rw [one, Nat.add_right_comm, Nat.add_assoc, ← more]

/-- Loading a file gives a bundle and reports nothing, or it gives none and reports one error. A
reader either accepts a file and has read a document, or it rejects the file with one warning; when
all readers do, the error lists their warnings in order. So a batch has an error for each file
without a bundle. -/
theorem load_bundle_or_one_error :
    (∀ (file : FileText) (ds : Diagnostics),
      (∃ bundle, load file ds = (some bundle, ds) ∧ bundle.diagnostics = []) ∨
        ∃ message, load file ds = (none, ds ++ [⟨.error, message⟩])) ∧
      (∀ (reader : Reader) (file : FileText),
        let analysis := reader.analyze file
        (analysis.accepted = true ↔ analysis.document.isSome = true) ∧
          (analysis.document.isSome = true ↔ analysis.diagnostics = []) ∧
          (analysis.accepted = false → ∃ reason, analysis.diagnostics = [⟨.warning, reason⟩])) ∧
      (∀ (file : FileText) (ds : Diagnostics),
        (∀ reader : Reader, (reader.analyze file).accepted = false) →
          ∃ reason : Reader → String,
            (∀ reader : Reader,
              (reader.analyze file).diagnostics = [⟨.warning, reason reader⟩]) ∧
            load file ds = (none, ds ++ [⟨.error, rejectionMessage file.path reason⟩])) ∧
      ∀ (files : List FileText) (ds : Diagnostics),
        errorCount (loadAll files ds).2 =
          errorCount ds + (loadAll files ds).1.countP Option.isNone := by
  refine ⟨fun file ds => ?_, fun reader file => ?_, fun file ds rejects => ?_, errorCount_loadAll⟩
  · have loads := loads_load file ds
    generalize load file ds = loaded at loads
    cases loads with
    | bundle quiet => exact .inl ⟨_, rfl, quiet⟩
    | error message => exact .inr ⟨message, rfl⟩
  · have settled := reader.analyze_settled file
    exact ⟨settled.accepted_iff, settled.document_iff, settled.exists_warning⟩
  · have rejected (reader : Reader) : ∃ reason, reader.analyze file = .reject reason :=
      (reader.analyze_settled file).exists_reject (rejects reader)
    choose reason analyzed using rejected
    refine ⟨reason, fun reader => ?_, load_of_reject analyzed⟩
    rw [analyzed]
    rfl

/-- Text that is no translation file. -/
def note : FileText := ⟨"notes.txt", "Ask for the key."⟩

/-- No reader accepts the note. -/
lemma accepted_analyze_note (reader : Reader) : (reader.analyze note).accepted = false := by
  cases reader <;> decide +kernel

/-- A note is rejected by all readers, and loading it adds one error behind the one that was
there. -/
theorem load_bundle_or_one_error_note :
    (∀ reader : Reader, (reader.analyze note).accepted = false) ∧
      ∃ reason : Reader → String,
        (∀ reader : Reader, (reader.analyze note).diagnostics = [⟨.warning, reason reader⟩]) ∧
        load note [⟨.error, "before"⟩] =
          (none, [⟨.error, "before"⟩, ⟨.error, rejectionMessage note.path reason⟩]) :=
  ⟨accepted_analyze_note,
    load_bundle_or_one_error.2.2.1 note [⟨.error, "before"⟩] accepted_analyze_note⟩

end Loader

end MessageCatalog
