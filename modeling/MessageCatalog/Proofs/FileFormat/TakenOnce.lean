import MessageCatalog.FileFormat.Xtb
import MessageCatalog.Proofs.FileFormat.UnitContent
import MessageCatalog.Proofs.Loader
import MessageCatalog.Proofs.OrderedMap

/-!
# Readers that take every unit once

A file in XLIFF 1.2 holds units anywhere, but not inside one another, and an XTB file right below
its root element. Both are read when each unit has an id of its own and content that can be read.
Then there is a translation for each unit, in order; otherwise the file is refused for the first
unit with which something is wrong, and the error is located there.
-/

namespace MessageCatalog.FileFormat

open Markup (Element Occurrence)

namespace Xliff1

/-! ## XLIFF 1.2 -/

variable {file : FileText}

/-- What has been read of a file when these units have been. -/
def contentsOf (locale : Option String) (held : List (String × Translation × Option Translation)) :
    Contents where
  locale
  translations := ⟨held.map fun entry => (entry.1, entry.2.1)⟩
  sources := ⟨held.filterMap fun entry => entry.2.2.map (entry.1, ·)⟩

section

variable {locale : Option String} {held : List (String × Translation × Option Translation)}

/-- The keys of the translations are those of the entries that are held. -/
lemma keys_translations_contentsOf :
    (contentsOf locale held).translations.keys = held.map Prod.fst := by
  rw [OrderedMap.keys, contentsOf, List.map_map]
  rfl

/-- Sources are only held under keys of entries. -/
lemma keys_sources_contentsOf : (contentsOf locale held).sources.keys ⊆ held.map Prod.fst := by
  intro id h
  obtain ⟨⟨_, s⟩, member, rfl⟩ := List.mem_map.1 h
  obtain ⟨entry, there, same⟩ := List.mem_filterMap.1 member
  obtain ⟨s', -, same⟩ := Option.map_eq_some_iff.1 same
  cases same
  exact List.mem_map_of_mem there

/-- A unit with a new id goes to the end. -/
lemma contentsOf_concat {id : String} (new : id ∉ held.map Prod.fst) (t : Translation)
    (source : Option Translation) :
    contentsOf locale (held ++ [(id, t, source)]) =
      { contentsOf locale held with
        translations := (contentsOf locale held).translations.insert id t
        sources :=
          match source with
          | some s => (contentsOf locale held).sources.insert id s
          | none => (contentsOf locale held).sources } := by
  have noTranslation : id ∉ (contentsOf locale held).translations.keys := by
    rw [keys_translations_contentsOf]
    exact new
  have noSource : id ∉ (contentsOf locale held).sources.keys :=
    fun h => new (keys_sources_contentsOf h)
  rw [OrderedMap.insert_of_not_mem noTranslation]
  cases source with
  | none => simp [contentsOf]
  | some s =>
    dsimp only
    rw [OrderedMap.insert_of_not_mem noSource]
    simp [contentsOf]

/-- A unit is read behind others by taking it once. -/
lemma readUnit_contentsOf (u : Element) :
    readUnit file (contentsOf locale held) u =
      (takeUnit file (unitContent file) held u).map (contentsOf locale) := by
  cases given : u.attribute? "id" with
  | none =>
    have tag : u.tag.attribute? "id" = none := given
    rw [takeUnit_noId given, readUnit, FileText.requiredAttribute, tag]
    rfl
  | some id =>
    have tag : u.tag.attribute? "id" = some id := given
    rw [readUnit, FileText.requiredAttribute, tag]
    dsimp only [bind, Except.bind]
    by_cases earlier : id ∈ held.map Prod.fst
    · have there : (contentsOf locale held).translations.contains id = true :=
        OrderedMap.contains_iff.2 (keys_translations_contentsOf ▸ earlier)
      rw [takeUnit_sameId given earlier, there, if_pos rfl]
      rfl
    · have new : (contentsOf locale held).translations.contains id = false :=
        OrderedMap.contains_eq_false (keys_translations_contentsOf ▸ earlier)
      rw [takeUnit_new given earlier, new, if_neg Bool.false_ne_true, unitContent]
      cases u.childElements.foldlM (UnitParts.addChild file) {} with
      | error e => rfl
      | ok parts =>
        dsimp only [bind, Except.bind]
        cases parts.translation? with
        | none => rfl
        | some t => exact congrArg Except.ok (contentsOf_concat earlier t parts.source).symm

end

variable (file) in
/-- What reading does at an element. -/
def step (c : Contents) (o : Occurrence) : Except ReadError Contents :=
  if o.name = "trans-unit" then readUnit file c o.element else .ok (c.enter o.tag)

/-- The reader passes over what is inside a unit and goes through all other elements. -/
lemma walks_step : Markup.Walks "trans-unit" (step file) (fun _ => readNode file)
    (fun _ => readNodes file) where
  nil _ _ := rfl
  cons _ _ _ _ := rfl
  other _ c node h := by
    cases node with
    | element => cases h
    | _ => rfl
  passed around c tag children same := by
    rw [readNode, if_pos same]
    exact (if_pos same).symm
  entered around c tag children other := by
    have enters : step file c ⟨around, ⟨tag, children⟩⟩ = .ok (c.enter tag) := if_neg other
    rw [readNode, if_neg other, enters]
    rfl

/-- The first target language that a file element names, outside of units. -/
def language (occurrences : List Occurrence) : Option String :=
  (occurrences.filter (·.name = "file")).findSome? (·.tag.attribute? "target-language")

/-- The language is that of the first file element that has one. -/
lemma language_cons (o : Occurrence) (rest : List Occurrence) :
    language (o :: rest) =
      (if o.name = "file" then o.tag.attribute? "target-language" else none).or
        (language rest) := by
  rw [language, List.filter_cons]
  by_cases isFile : o.name = "file"
  · rw [if_pos (decide_eq_true isFile), if_pos isFile, List.findSome?_cons, language]
    cases o.tag.attribute? "target-language" <;> rfl
  · rw [if_neg (by simpa using isFile), if_neg isFile, Option.none_or, language]

/-- Entering an element may set the locale, if there is none yet, and holds nothing more. -/
lemma enter_contentsOf (locale : Option String)
    (held : List (String × Translation × Option Translation)) (o : Occurrence) :
    (contentsOf locale held).enter o.tag =
      contentsOf (locale.or
        (if o.name = "file" then o.tag.attribute? "target-language" else none)) held := by
  have name : o.name = o.tag.name := rfl
  rw [Contents.enter, name]
  split
  case isTrue => rfl
  case isFalse => rw [Option.or_none]

/-- Reading goes through the units in order, and the language is not changed by them. -/
lemma foldlM_step (occurrences : List Occurrence) (locale : Option String)
    (held : List (String × Translation × Option Translation)) :
    occurrences.foldlM (step file) (contentsOf locale held) =
      (((occurrences.filter (·.name = "trans-unit")).map (·.element)).foldlM
        (takeUnit file (unitContent file)) held).map
          (contentsOf (locale.or (language occurrences))) := by
  induction occurrences generalizing locale held with
  | nil =>
    have none : locale.or (language []) = locale := Option.or_none
    rw [none]
    rfl
  | cons o rest ih =>
    rw [List.foldlM_cons, step]
    by_cases unit : o.name = "trans-unit"
    · have other : o.name ≠ "file" := by rw [unit]; decide
      rw [if_pos unit, readUnit_contentsOf, language_cons, if_neg other, Option.none_or,
        List.filter_cons_of_pos (by exact decide_eq_true unit), List.map_cons, List.foldlM_cons]
      cases takeUnit file (unitContent file) held o.element with
      | error e => rfl
      | ok held => exact ih locale held
    · rw [if_neg unit, List.filter_cons_of_neg (by simpa using unit), enter_contentsOf,
        language_cons, ← Option.or_assoc]
      exact ih _ held

/-- The bundle of a file in which these units have been read. -/
def bundleOf (locale : Option String) (held : List (String × Translation × Option Translation)) :
    Bundle where
  locale
  translations := (contentsOf locale held).translations
  sources :=
    if (contentsOf locale held).sources.isEmpty then none else some (contentsOf locale held).sources

/-- An XLIFF 1.2 file is read by taking its outermost units one by one. -/
lemma read_eq {document : Option Document} {root : Element}
    (h : file.markupOf "XLIFF 1.2" analyze document = .ok root) :
    read file document =
      ((root.outermost "trans-unit").foldlM (takeUnit file (unitContent file)) []).map
        (bundleOf (language (root.outside "trans-unit"))) := by
  have nodes : readNodes file {} root.children =
      ((root.outermost "trans-unit").foldlM (takeUnit file (unitContent file)) []).map
        (contentsOf (language (root.outside "trans-unit"))) :=
    (walks_step.readNodes_eq root.children rfl {}).trans (foldlM_step _ none [])
  rw [read, h]
  dsimp only [bind, Except.bind]
  rw [nodes]
  cases (root.outermost "trans-unit").foldlM (takeUnit file (unitContent file)) [] <;> rfl

/-- Whether a unit has a source. -/
def hasSource (u : Element) : Bool := (lastNamed "source" u.childElements).isSome

/-- The sources of units are those of the units that have one. -/
lemma sources_of_entries {units : List Element}
    {held : List (String × Translation × Option Translation)}
    (h : List.Forall₂ (IsEntry (unitContent file)) units held) :
    List.Forall₂ (fun u entry => u.attribute? "id" = some entry.1 ∧
        (lastNamed "source" u.childElements).map (Content.read rules file) = some (.ok entry.2))
      (units.filter hasSource) (held.filterMap fun entry => entry.2.2.map (entry.1, ·)) := by
  induction h with
  | nil => exact .nil
  | @cons u entry units held first _ ih =>
    obtain ⟨id, t, source⟩ := entry
    have last := source_of_unitContent first.content
    cases source with
    | none =>
      have noSource : ¬hasSource u = true := by
        rw [hasSource, Option.map_eq_none_iff.1 last]
        exact Bool.false_ne_true
      rw [List.filter_cons_of_neg noSource, List.filterMap_cons_none rfl]
      exact ih
    | some s =>
      obtain ⟨child, there, -⟩ := Option.map_eq_some_iff.1 last
      have given : hasSource u = true := by rw [hasSource, there, Option.isSome_some]
      rw [List.filter_cons_of_pos given]
      exact .cons ⟨first.id, last⟩ ih

/-- What it means that the units of a file are read once: beside its translations, the locale is the
first language that a file element outside the units names, and the sources are those of the units
that have one, the last one of each. -/
structure TakesUnits (file : FileText) (root : Element) (outcome : Except ReadError Bundle) : Prop
    extends TakesOnce file (root.outermost "trans-unit") (IsReadable file) (Fault file)
      (IsValue file) outcome where
  locale : ∀ bundle, outcome = .ok bundle →
    bundle.locale = language (root.outside "trans-unit")
  sources : ∀ bundle, outcome = .ok bundle →
    List.Forall₂ (fun u entry => u.attribute? "id" = some entry.1 ∧
        (lastNamed "source" u.childElements).map (Content.read rules file) = some (.ok entry.2))
      ((root.outermost "trans-unit").filter hasSource)
      (bundle.sources.elim [] OrderedMap.entries)
  sources_ne : ∀ bundle, outcome = .ok bundle → bundle.sources ≠ some ∅

/-- An XLIFF 1.2 file takes its units once each. -/
lemma takesUnits_read {document : Option Document} {root : Element}
    (h : file.markupOf "XLIFF 1.2" analyze document = .ok root) :
    TakesUnits file root (read file document) := by
  have once : TakesOnce file (root.outermost "trans-unit") (IsReadable file) (Fault file)
      (IsValue file) (read file document) := by
    rw [read_eq h]
    exact takesOnce_of_takeUnits exists_unitContent_iff unitContent_eq_error_iff
      isValue_of_unitContent located_of_fault fun held => rfl
  refine { once with locale := ?_, sources := ?_, sources_ne := ?_ }
  -- what is said of a bundle is read off the entries that it is made of
  all_goals
    intro bundle ok
    rw [read_eq h] at ok
    obtain ⟨held, taken, rfl⟩ := map_eq_ok_iff.1 ok
    obtain ⟨entries, -⟩ := takeUnits_eq_ok_iff.1 taken
  · rfl
  · have sources := sources_of_entries entries
    rw [bundleOf, OrderedMap.isEmpty]
    split
    case isTrue empty =>
      have none : (held.filterMap fun entry => entry.2.2.map (entry.1, ·)) = [] :=
        List.isEmpty_iff.1 empty
      exact none ▸ sources
    case isFalse => exact sources
  · rw [bundleOf]
    split
    case isTrue => exact nofun
    case isFalse some =>
      intro empty
      rw [Option.some.inj empty] at some
      exact some rfl

end Xliff1

namespace Xtb

/-! ## XTB -/

variable (file : FileText)

/-- The translation of a message: its content, with the notes that are its attributes. -/
def IsValue (u : Element) (t : Translation) : Prop :=
  ∃ content, Content.read rules file u = .ok content ∧
    t = { content with description := u.attribute? "desc", meaning := u.attribute? "meaning" }

/-- Read the content of a message with its notes. -/
def messageContent (u : Element) : Except ReadError Translation :=
  (Content.read rules file u).map fun t =>
    { t with description := u.attribute? "desc", meaning := u.attribute? "meaning" }

variable {file}

/-- A message is read behind others by taking it once. -/
lemma readMessage_mk (held : List (String × Translation)) (u : Element) :
    readMessage file ⟨held⟩ u = (takeUnit file (messageContent file) held u).map .mk := by
  have keys : (OrderedMap.mk held).keys = held.map Prod.fst := rfl
  cases given : u.attribute? "id" with
  | none =>
    have tag : u.tag.attribute? "id" = none := given
    rw [takeUnit_noId given, readMessage, FileText.requiredAttribute, tag]
    rfl
  | some id =>
    have tag : u.tag.attribute? "id" = some id := given
    rw [readMessage, FileText.requiredAttribute, tag]
    dsimp only [bind, Except.bind]
    by_cases earlier : id ∈ held.map Prod.fst
    · rw [takeUnit_sameId given earlier, OrderedMap.contains_iff.2 (keys ▸ earlier), if_pos rfl]
      rfl
    · rw [takeUnit_new given earlier, OrderedMap.contains_eq_false (keys ▸ earlier),
        if_neg Bool.false_ne_true, messageContent]
      cases Content.read rules file u with
      | error e => rfl
      | ok t => exact congrArg Except.ok (OrderedMap.insert_of_not_mem (keys ▸ earlier) _)

/-- The messages of an XTB file are taken one by one. -/
lemma foldlM_readMessage (units : List Element) (held : List (String × Translation)) :
    units.foldlM (readMessage file) ⟨held⟩ =
      (units.foldlM (takeUnit file (messageContent file)) held).map .mk := by
  induction units generalizing held with
  | nil => rfl
  | cons u units ih =>
    rw [List.foldlM_cons, List.foldlM_cons, readMessage_mk]
    cases takeUnit file (messageContent file) held u with
    | error e => rfl
    | ok held => exact ih held

/-- What it means that the messages of a file are read once. -/
structure TakesMessages (file : FileText) (root : Element) (outcome : Except ReadError Bundle) :
    Prop
    extends TakesOnce file (root.childrenNamed messageName)
      (fun u => ∃ t, Content.read rules file u = .ok t)
      (fun u e => Content.read rules file u = .error e) (IsValue file) outcome where
  locale : ∀ bundle, outcome = .ok bundle → bundle.locale = root.attribute? "lang"
  sources : ∀ bundle, outcome = .ok bundle → bundle.sources = none

/-- An XTB file takes its messages once each. -/
lemma takesMessages_read {document : Option Document} {root : Element}
    (h : file.markupOf "XTB" analyze document = .ok root) :
    TakesMessages file root (read file document) := by
  have read_eq : read file document =
      ((root.childrenNamed messageName).foldlM (takeUnit file (messageContent file)) []).map
        fun held => { locale := root.attribute? "lang", translations := ⟨held⟩ } := by
    rw [read, h]
    dsimp only [bind, Except.bind]
    have start : (∅ : OrderedMap String Translation) = ⟨[]⟩ := rfl
    rw [start, foldlM_readMessage]
    cases (root.childrenNamed messageName).foldlM (takeUnit file (messageContent file)) [] <;> rfl
  have once : TakesOnce file (root.childrenNamed messageName)
      (fun u => ∃ t, Content.read rules file u = .ok t)
      (fun u e => Content.read rules file u = .error e) (IsValue file) (read file document) := by
    have readable (u : Element) : (∃ t, messageContent file u = .ok t) ↔
        ∃ t, Content.read rules file u = .ok t := by
      constructor
      · rintro ⟨t, h⟩
        obtain ⟨content, read, -⟩ := map_eq_ok_iff.1 h
        exact ⟨content, read⟩
      · rintro ⟨content, read⟩
        exact ⟨_, map_eq_ok_iff.2 ⟨content, read, rfl⟩⟩
    have value (u : Element) (t : Translation) (h : messageContent file u = .ok t) :
        IsValue file u (id t) := by
      obtain ⟨content, read, rfl⟩ := map_eq_ok_iff.1 h
      exact ⟨content, read, rfl⟩
    rw [read_eq]
    exact takesOnce_of_takeUnits readable (fun u e => map_eq_error_iff) value
      (fun u e h => Content.located_of_read h) fun held => (List.map_id held).symm
  refine { once with locale := ?_, sources := ?_ }
  all_goals
    intro bundle ok
    rw [read_eq] at ok
    obtain ⟨held, -, rfl⟩ := map_eq_ok_iff.1 ok
    rfl

end Xtb

/-! ## Files -/

/-- Both readers take every unit of a document with their root element once, whether the document
is handed to them or they read it themselves; by itself the second one only reads files with one of
its two extensions. -/
theorem units_taken_once {file : FileText} {root : Element}
    (reads : Markup.read file.contents = .ok root) {document : Option Document}
    (handed : document = none ∨ document = some (.markup root)) :
    (root.name = "xliff" → root.attribute? "version" = some Xliff1.version →
      Xliff1.TakesUnits file root (Xliff1.read file document)) ∧
    (root.name = Xtb.rootName →
      Path.extension? file.path = some "xtb" ∨ Path.extension? file.path = some "xmb" ∨
        document ≠ none →
      Xtb.TakesMessages file root (Xtb.read file document)) := by
  constructor
  · intro name version
    have accepts : Xliff1.analyze file = .accept (.markup root) :=
      FileText.analyzeMarkup_accept reads name (List.forall_mem_singleton.2 version)
    apply Xliff1.takesUnits_read
    obtain rfl | rfl := handed
    · rw [FileText.markupOf, accepts]
      rfl
    · rfl
  · intro name extension
    apply Xtb.takesMessages_read
    obtain rfl | rfl := handed
    · have accepts : Xtb.analyze file = .accept (.markup root) := by
        -- no document is handed over, so the file must have an extension of the format
        have document : file.analyzeMarkup Xtb.rootName [] = .accept (.markup root) :=
          FileText.analyzeMarkup_accept reads name nofun
        rw [Xtb.analyze]
        obtain h | h | h := extension
        · rw [h]
          exact document
        · rw [h]
          exact document
        · exact absurd rfl h
      rw [FileText.markupOf, accepts]
      rfl
    · rfl

/-- A file with a unit that another one is nested in. -/
def nestedUnits : FileText where
  path := "fr.xlf"
  contents :=
    "<xliff version=\"1.2\"><file target-language=\"fr\"><trans-unit id=\"hi\">" ++
    "<target>Salut</target><trans-unit/></trans-unit></file></xliff>"

/-- A file with two messages under one id. -/
def sharedIds : FileText where
  path := "fr.xtb"
  contents :=
    "<translationbundle lang=\"fr\"><translation id=\"hi\">Salut</translation>" ++
    "<translation id=\"hi\">Bonjour</translation></translationbundle>"

/-- A file with a unit inside another one, and one with two messages of one id. -/
theorem units_taken_once_nestedUnits_sharedIds :
    (∃ root, Markup.read nestedUnits.contents = .ok root ∧
      Xliff1.TakesUnits nestedUnits root (Xliff1.read nestedUnits none)) ∧
    ∃ root, Markup.read sharedIds.contents = .ok root ∧
      Xtb.TakesMessages sharedIds root (Xtb.read sharedIds none) := by
  constructor
  · have found : (Markup.read nestedUnits.contents).toOption.any
        (fun root => root.name = "xliff" ∧ root.attribute? "version" = some Xliff1.version) =
          true := by
      decide +kernel
    obtain ⟨root, reads, isRoot⟩ := exists_ok_of_any found
    obtain ⟨name, version⟩ := of_decide_eq_true isRoot
    exact ⟨root, reads, (units_taken_once reads (.inl rfl)).1 name version⟩
  · have found : (Markup.read sharedIds.contents).toOption.any (·.name = Xtb.rootName) = true := by
      decide +kernel
    obtain ⟨root, reads, isRoot⟩ := exists_ok_of_any found
    exact ⟨root, reads, (units_taken_once reads (.inl rfl)).2 (of_decide_eq_true isRoot)
      (.inl (by decide))⟩

end MessageCatalog.FileFormat
