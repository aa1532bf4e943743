import Mathlib.Data.List.TakeWhile
import MessageCatalog.Proofs.Json.Objects
import MessageCatalog.Proofs.LoadErrors
import MessageCatalog.Proofs.Markup.Documents

/-!
# At most one reader accepts a file

The readers of markup ask for different root elements or for different versions. A JSON value
starts, behind white space, with a letter, a quote, a bracket, a sign or a digit; a document of
markup starts there with an angle bracket. So no file is in two formats, and for a file that one of
the readers accepts it does not matter in which order they are tried.
-/

namespace MessageCatalog

variable {file : FileText} {reader reader' : Reader} {root : Markup.Element}

/-! ## The first character of a JSON document -/

namespace Json

/-- Whether a value may start with a character. -/
def startsValue (c : Char) : Bool :=
  c ∈ ['n', 't', 'f', '"', '[', '{', '-'] || c.isDigit

/-- A character that starts a value is none of those that do not. -/
lemma ne_of_startsValue {c d : Char} (hc : startsValue c = true) (hd : startsValue d = false) :
    d ≠ c := by
  rintro rfl
  rw [hc] at hd
  cases hd

namespace Scan

variable {α β : Type} {front text : List Char} {c : Char} {o : Nat}

/-- A step has no result from a place on. -/
def Fails (step : Scan α) (place : Cursor) : Prop :=
  ∃ fault, (step.run place).1 = .error fault

/-- A scan that fails at a place fails there whatever comes behind it. -/
lemma fails_bind {x : Scan α} {place : Cursor} (h : Fails x place) (f : α → Scan β) :
    Fails (x >>= f) place := by
  obtain ⟨fault, h⟩ := h
  refine ⟨fault, ?_⟩
  change (ExceptT.bindCont f (x.run place).1 (x.run place).2).1 = _
  rw [h]
  rfl

/-- Steps in a row have no result if a later one has none where the first one stops. -/
lemma Takes.fails_bind {x : Scan α} {a : α} {f : α → Scan β} (h : Takes x front a text)
    (hf : Fails (f a) ⟨text, o + Text.byteLength front⟩) :
    Fails (x >>= f) ⟨front ++ text, o⟩ := by
  obtain ⟨fault, hf⟩ := hf
  refine ⟨fault, ?_⟩
  change (ExceptT.bindCont f (x.run ⟨front ++ text, o⟩).1 (x.run ⟨front ++ text, o⟩).2).1 = _
  rw [h]
  exact hf

/-- A fault is raised at the place itself. -/
lemma fails_faultNext (cause : Cause) (place : Cursor) :
    Fails (faultNext cause : Scan α) place := ⟨_, rfl⟩

/-- In white space no value is read. -/
lemma fails_valueWith_spaces (care : Care) (list object : Scan Value)
    (hf : ∀ d ∈ front, isSpace d = true) : Fails (valueWith care list object) ⟨front, o⟩ := by
  have looks : Takes next? front none [] := takes_next? hf .nil
  have ends : Fails (nextOr .endInValue) ⟨front ++ [], o⟩ := by
    rw [nextOr]
    exact looks.fails_bind (fails_faultNext _ _)
  rw [List.append_nil] at ends
  exact fails_bind ends _

/-- Where no value starts, none is read. -/
lemma fails_valueWith (care : Care) (list object : Scan Value)
    (hf : ∀ d ∈ front, isSpace d = true) (hspace : isSpace c = false)
    (hc : startsValue c = false) : Fails (valueWith care list object) ⟨front ++ c :: text, o⟩ := by
  have looks : Takes (nextOr .endInValue) front c (c :: text) := takes_nextOr _ hf hspace
  rw [valueWith]
  refine looks.fails_bind ?_
  split
  case h_7 =>
    have noNumber : ¬(c = '-' || c.isDigit) = true := by
      intro h
      rw [startsValue] at hc
      rcases Bool.or_eq_true_iff.1 h with h | h
      · rw [of_decide_eq_true h] at hc
        cases hc
      · rw [h, Bool.or_true] at hc
        cases hc
    rw [if_neg noNumber]
    exact fails_faultNext _ _
  all_goals cases hc

end Scan

/-- A document starts, behind white space, as a value does. -/
theorem exists_start_of_read {contents : String} {value : Value} (h : read contents = .ok value) :
    ∃ front c text, contents.toList = front ++ c :: text ∧
      (∀ d ∈ front, Scan.isSpace d = true) ∧ startsValue c = true := by
  obtain ⟨list, object, valueEq⟩ := Scan.value_eq .wanted Scan.maxDepth
  have succeeds : ¬Scan.Fails (Scan.valueWith .wanted list object) ⟨contents.toList, 0⟩ := by
    intro fails
    rw [← valueEq] at fails
    obtain ⟨fault, e⟩ := Scan.fails_bind fails fun a => do Scan.finish; return a
    rw [read, Scan.runDocument, e] at h
    cases h
  have spaces : ∀ d ∈ contents.toList.takeWhile Scan.isSpace, Scan.isSpace d = true :=
    fun d m => List.mem_takeWhile_imp m
  have cut : contents.toList.takeWhile Scan.isSpace ++ contents.toList.dropWhile Scan.isSpace =
      contents.toList := List.takeWhile_append_dropWhile
  cases left : contents.toList.dropWhile Scan.isSpace with
  | nil =>
    rw [left, List.append_nil] at cut
    rw [← cut] at succeeds
    exact absurd (Scan.fails_valueWith_spaces _ _ _ spaces) succeeds
  | cons c text =>
    rw [left] at cut
    refine ⟨_, c, text, cut.symm, spaces, ?_⟩
    have leaves : Scan.isSpace c = false := by
      have behind := List.head?_dropWhile_not Scan.isSpace contents.toList
      rw [left] at behind
      exact behind
    by_contra noStart
    rw [← cut] at succeeds
    exact succeeds
      (Scan.fails_valueWith _ _ _ spaces leaves (Bool.eq_false_iff.2 noStart))

/-- The white space of both kinds of documents is the same. -/
lemma isSpace_eq (c : Char) : Scan.isSpace c = Markup.isSpace c := by
  simp only [Scan.isSpace, Markup.isSpace]
  ac_rfl

/-- What is read as JSON is no document of markup. -/
theorem exists_fault_of_read {contents : String} {value : Value} (h : read contents = .ok value) :
    ∃ fault, Markup.read contents = .error fault := by
  obtain ⟨front, c, text, e, spaces, starts⟩ := exists_start_of_read h
  have blank : ∀ d ∈ front, Markup.isSpace d = true := by
    intro d m
    rw [← isSpace_eq]
    exact spaces d m
  have noSpace : Markup.isSpace c = false := by
    rw [← isSpace_eq]
    by_contra isBlank
    rw [Bool.not_eq_false] at isBlank
    simp only [Scan.isSpace, Bool.or_eq_true, decide_eq_true_eq] at isBlank
    rcases isBlank with ((rfl | rfl) | rfl) | rfl <;> cases starts
  have noOpen : '<' ≠ c := ne_of_startsValue starts rfl
  have noMark : '\uFEFF' ≠ c := ne_of_startsValue starts rfl
  exact ⟨_, Markup.read_of_front e blank noSpace noOpen noMark⟩

end Json

/-! ## What a reader asks for -/

/-- An accepted file of markup is a document with the root element and the attributes asked for. -/
lemma FileText.exists_root_of_accepted {rootName : String} {attributes : List (String × String)}
    (h : (file.analyzeMarkup rootName attributes).accepted = true) :
    ∃ root, Markup.read file.contents = .ok root ∧ root.name = rootName ∧
      ∀ a ∈ attributes, root.attribute? a.1 = some a.2 := by
  rw [analyzeMarkup] at h
  split at h
  case h_1 => cases h
  case h_2 root read =>
    split at h
    case isTrue => cases h
    case isFalse named =>
      split at h
      case h_1 => cases h
      case h_2 none =>
        refine ⟨root, read, Decidable.of_not_not named, fun a m => ?_⟩
        have given := List.find?_eq_none.1 none a m
        exact Decidable.of_not_not fun other => given (decide_eq_true other)

/-- An accepted file of JSON is a document. -/
lemma FileFormat.Json.exists_value_of_accepted
    (h : (FileFormat.Json.analyze file).accepted = true) :
    ∃ value, MessageCatalog.Json.read file.contents = .ok value := by
  rw [FileFormat.Json.analyze] at h
  split at h
  case isTrue => cases h
  case isFalse =>
    split at h
    case h_1 => cases h
    case h_2 value read => exact ⟨value, read⟩

namespace Reader

/-- What a reader of markup asks the root element for. -/
def AsksFor (root : Markup.Element) : Reader → Prop
  | xliff2 => root.name = "xliff" ∧ root.attribute? "version" = some FileFormat.Xliff2.version
  | xliff1 => root.name = "xliff" ∧ root.attribute? "version" = some FileFormat.Xliff1.version
  | xtb => root.name = FileFormat.Xtb.rootName
  | json => False

/-- No two readers ask for the same. -/
lemma AsksFor.unique (h : reader.AsksFor root) (h' : reader'.AsksFor root) : reader = reader' := by
  have versions : ¬(some FileFormat.Xliff2.version = some FileFormat.Xliff1.version) := by decide
  have names : "xliff" ≠ FileFormat.Xtb.rootName := by decide
  cases reader with
  | xliff2 =>
    cases reader' with
    | xliff2 => rfl
    | xliff1 => exact absurd (h.2.symm.trans h'.2) versions
    | xtb => exact absurd (h.1.symm.trans h') names
    | json => exact h'.elim
  | xliff1 =>
    cases reader' with
    | xliff2 => exact absurd (h'.2.symm.trans h.2) versions
    | xliff1 => rfl
    | xtb => exact absurd (h.1.symm.trans h') names
    | json => exact h'.elim
  | xtb =>
    cases reader' with
    | xliff2 | xliff1 => exact absurd (h'.1.symm.trans h) names
    | xtb => rfl
    | json => exact h'.elim
  | json => exact h.elim

/-- A file that is accepted is a JSON document, or markup with the root element asked for. -/
lemma cases_of_accepted (h : (reader.analyze file).accepted = true) :
    (reader = json ∧ ∃ value, Json.read file.contents = .ok value) ∨
      ∃ root, Markup.read file.contents = .ok root ∧ reader.AsksFor root := by
  cases reader with
  | xliff2 | xliff1 =>
    obtain ⟨root, read, named, version⟩ := FileText.exists_root_of_accepted h
    exact .inr ⟨root, read, named, version _ List.mem_cons_self⟩
  | xtb =>
    change (FileFormat.Xtb.analyze file).accepted = true at h
    rw [FileFormat.Xtb.analyze] at h
    split at h
    case h_1 | h_2 =>
      obtain ⟨root, read, named, -⟩ := FileText.exists_root_of_accepted h
      exact .inr ⟨root, read, named⟩
    case h_3 => cases h
  | json => exact .inl ⟨rfl, FileFormat.Json.exists_value_of_accepted h⟩

/-- At most one reader accepts a file. -/
lemma eq_of_accepted (h : (reader.analyze file).accepted = true)
    (h' : (reader'.analyze file).accepted = true) : reader = reader' := by
  obtain ⟨rfl, value, read⟩ | ⟨root, read, asks⟩ := cases_of_accepted h
  · obtain ⟨rfl, -⟩ | ⟨root, readMarkup, -⟩ := cases_of_accepted h'
    · rfl
    · obtain ⟨fault, e⟩ := Json.exists_fault_of_read read
      rw [e] at readMarkup
      cases readMarkup
  · obtain ⟨rfl, value, readJson⟩ | ⟨root', read', asks'⟩ := cases_of_accepted h'
    · obtain ⟨fault, e⟩ := Json.exists_fault_of_read readJson
      rw [e] at read
      cases read
    · rw [read] at read'
      cases read'
      exact asks.unique asks'

end Reader

/-! ## The order of the readers -/

namespace Loader

/-- What comes of a file that a reader accepts. -/
def readWith (reader : Reader) (file : FileText) (ds : Diagnostics) :
    Option Bundle × Diagnostics :=
  readAccepted reader file (reader.analyze file).document
    (ds ++ (reader.analyze file).diagnostics)

/-- A file that a reader accepts is read by it, wherever it stands among the readers. -/
lemma loadWith_eq_readWith {ds rejections : Diagnostics} {readers : List Reader}
    (accepts : (reader.analyze file).accepted = true) (h : reader ∈ readers) :
    loadWith file ds rejections readers = readWith reader file ds := by
  induction readers generalizing rejections with
  | nil => cases h
  | cons first rest ih =>
    rw [loadWith]
    dsimp only
    split
    case isTrue accepted =>
      have same : first = reader := Reader.eq_of_accepted accepted accepts
      rw [same, readWith]
    case isFalse rejected =>
      rcases List.mem_cons.1 h with rfl | later
      · exact absurd accepts rejected
      · exact ih later

/-- At most one reader accepts a file, and a file that a reader accepts is loaded by that reader,
in whatever order the readers are tried. -/
theorem load_of_any_order :
    (∀ (file : FileText) (reader reader' : Reader), (reader.analyze file).accepted = true →
      (reader'.analyze file).accepted = true → reader = reader') ∧
      ∀ (file : FileText) (reader : Reader), (reader.analyze file).accepted = true →
        ∀ (ds : Diagnostics) (readers : List Reader), readers.Perm Reader.all →
          loadWith file ds [] readers = load file ds ∧
            load file ds = readAccepted reader file (reader.analyze file).document
              (ds ++ (reader.analyze file).diagnostics) := by
  refine ⟨fun file reader reader' => Reader.eq_of_accepted, ?_⟩
  intro file reader accepts ds readers order
  have one : reader ∈ Reader.all := by cases reader <;> decide
  have loads : load file ds = readWith reader file ds := loadWith_eq_readWith accepts one
  have reordered : loadWith file ds [] readers = readWith reader file ds :=
    loadWith_eq_readWith accepts (order.mem_iff.2 one)
  exact ⟨reordered.trans loads.symm, loads⟩

/-- A file of the format that is tried last, with two texts. -/
def phrases : FileText :=
  ⟨"fr.json", " \x7b\"locale\": \"fr\", \"translations\": " ++
    "\x7b\"hi\": \"Salut \x7b$NAME\x7d !\", \"bye\": \"<au revoir>\"\x7d\x7d"⟩

/-- What is loaded of it. -/
def phrasesBundle : Bundle where
  locale := some "fr"
  translations := ⟨[("hi", .ofParts ["Salut ", " !"] ["NAME"]),
    ("bye", .ofParts ["<au revoir>"] [])]⟩

/-- A file with two texts is loaded by its one reader in any order of the readers. -/
theorem load_of_any_order_phrases :
    (Reader.json.analyze phrases).accepted = true ∧
      (∀ reader : Reader, (reader.analyze phrases).accepted = true → reader = .json) ∧
      ∀ readers : List Reader, readers.Perm Reader.all →
        loadWith phrases [] [] readers = (some phrasesBundle, []) := by
  have accepts : (Reader.json.analyze phrases).accepted = true := by decide +kernel
  have loaded : load phrases [] = (some phrasesBundle, []) := by decide +kernel
  refine ⟨accepts, fun reader accepts' => ?_, fun readers order => ?_⟩
  · exact load_of_any_order.1 phrases reader .json accepts' accepts
  · exact (load_of_any_order.2 phrases .json accepts [] readers order).1.trans loaded

end Loader

end MessageCatalog
