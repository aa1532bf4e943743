import MessageCatalog.Proofs.FileFormat.Json
import MessageCatalog.Proofs.Identity

/-!
# Translations that are read

Whatever a file looks like, a translation that is read of it has one part more than it has names,
and its raw parts are those of its parts: a placeholder that is replayed ends one part, and a text
that is cut is cut into a part for each name and one more. Notes that are added later, and a source
that stands for a target, change nothing about that. Ids are never stored twice.
-/

namespace MessageCatalog

variable {file : FileText} {rules : ContentRules} {document : Option Document} {bundle : Bundle}

/-! ## Reading steps -/

/-- What every step of a fold keeps, the fold keeps. -/
lemma foldlM_keeps {σ α ε : Type} {step : σ → α → Except ε σ} {Inv : σ → Prop} {items : List α}
    {s t : σ} (keeps : ∀ s, ∀ a ∈ items, ∀ t, Inv s → step s a = .ok t → Inv t) (hs : Inv s)
    (h : items.foldlM step s = .ok t) : Inv t := by
  induction items generalizing s with
  | nil =>
    cases h
    exact hs
  | cons a items ih =>
    rw [List.foldlM_cons] at h
    obtain ⟨u, first, later⟩ := bind_eq_ok h
    have hu : Inv u := keeps s a List.mem_cons_self u hs first
    exact ih (fun s b m => keeps s b (List.mem_cons_of_mem a m)) hu later

/-! ## Translations -/

namespace Translation

/-- A translation with a part around each placeholder, and with the raw parts of its parts. -/
structure WellFormed (t : Translation) : Prop where
  length : t.parts.length = t.placeholderNames.length + 1
  rawParts : t.rawParts = t.parts.map rawPart

/-- Parts with as many names between them are well formed. -/
lemma wellFormed_ofParts {parts names : List String} (h : parts.length = names.length + 1) :
    (ofParts parts names).WellFormed := ⟨h, rfl⟩

/-- What is parsed of a text is well formed. -/
lemma wellFormed_parse (text : String) : (parse text).WellFormed := by
  obtain ⟨first, later, e, -⟩ := parse_eq text
  rw [e]
  apply wellFormed_ofParts
  simp

/-- Notes may be added. -/
lemma WellFormed.note {t : Translation} (h : t.WellFormed) (description meaning : Option String) :
    { t with description, meaning }.WellFormed := ⟨h.length, h.rawParts⟩

end Translation

namespace Replay

/-- As many parts as names are finished. -/
def Balanced (r : Replay) : Prop := r.parts.length = r.placeholderNames.length

/-- A step keeps the parts and the names in balance. -/
lemma Balanced.step {r : Replay} (h : r.Balanced) (s : Step) : (r.step s).Balanced := by
  cases s with
  | text content => exact h
  | placeholder name =>
    rw [Replay.step]
    split
    case isTrue => exact h
    case isFalse =>
      rw [Balanced, List.length_append, List.length_append]
      exact congrArg (· + 1) h

/-- A replay in balance is finished to a well-formed translation. -/
lemma Balanced.wellFormed_finish {r : Replay} (h : r.Balanced) : r.finish.WellFormed := by
  apply Translation.wellFormed_ofParts
  rw [List.length_append]
  exact congrArg (· + 1) h

end Replay

/-! ## Content -/

namespace Content

variable {Inv : Replay → Prop}

mutual

/-- What every step keeps, replaying a node keeps. -/
lemma walkNode_keeps (keeps : ∀ r s, Inv r → Inv (r.step s)) (node : Markup.Node) {r r' : Replay}
    (hr : Inv r) (h : walkNode rules file r node = .ok r') : Inv r' := by
  cases node with
  | text value =>
    cases h
    exact keeps r _ hr
  | comment | instruction =>
    cases h
    exact hr
  | element tag children =>
    rw [walkNode] at h
    split at h
    case h_1 =>
      obtain ⟨name, -, h⟩ := bind_eq_ok h
      cases h
      exact keeps r _ hr
    case h_2 =>
      obtain ⟨first, -, h⟩ := bind_eq_ok h
      obtain ⟨last, -, h⟩ := bind_eq_ok h
      obtain ⟨inner, inside, h⟩ := bind_eq_ok h
      cases h
      exact keeps inner _ (walk_keeps keeps children (keeps r _ hr) inside)
    case h_3 => exact walk_keeps keeps children hr h
    case h_4 => cases h

/-- What every step keeps, replaying nodes keeps. -/
lemma walk_keeps (keeps : ∀ r s, Inv r → Inv (r.step s)) (nodes : List Markup.Node)
    {r r' : Replay} (hr : Inv r) (h : walk rules file r nodes = .ok r') : Inv r' := by
  cases nodes with
  | nil =>
    cases h
    exact hr
  | cons node rest =>
    rw [walk] at h
    obtain ⟨middle, first, later⟩ := bind_eq_ok h
    exact walk_keeps keeps rest (walkNode_keeps keeps node hr first) later

end

/-- What is read of the content of an element is well formed. -/
lemma wellFormed_read {e : Markup.Element} {t : Translation} (h : read rules file e = .ok t) :
    t.WellFormed := by
  obtain ⟨r, walked, h⟩ := bind_eq_ok h
  have started : Replay.Balanced {} := rfl
  have balanced : r.Balanced := walk_keeps (fun r s h => h.step s) e.children started walked
  split at h
  case isTrue => cases h
  case isFalse =>
    cases h
    exact balanced.wellFormed_finish

end Content

/-! ## Translations by their ids -/

namespace OrderedMap

variable {κ ν : Type} {P : ν → Prop}

/-- A map of values of a kind, no key of which is there twice. -/
structure Holds (P : ν → Prop) (m : OrderedMap κ ν) : Prop where
  nodup : m.keys.Nodup
  values : ∀ entry ∈ m.entries, P entry.2

/-- Nothing is held by an empty map. -/
lemma Holds.empty : (∅ : OrderedMap κ ν).Holds P := ⟨List.nodup_nil, nofun⟩

variable [DecidableEq κ]

/-- A map holds what it held and what is inserted. -/
lemma Holds.insert {m : OrderedMap κ ν} (h : m.Holds P) (k : κ) {v : ν} (hv : P v) :
    (m.insert k v).Holds P := by
  refine ⟨nodup_keys_insert h.nodup k v, ?_⟩
  intro entry member
  obtain rfl | old := mem_insertEntry member
  · exact hv
  · exact h.values entry old

/-- A map made of pairs holds what all of them do. -/
lemma holds_ofList {pairs : List (κ × ν)} (h : ∀ p ∈ pairs, P p.2) : (ofList pairs).Holds P :=
  ⟨nodup_keys_ofList pairs, fun entry member => h entry (mem_of_mem_ofList member)⟩

end OrderedMap

/-- A bundle whose translations and sources are well formed, each stored under an id of its own. -/
structure Bundle.WellFormed (b : Bundle) : Prop where
  translations : b.translations.Holds Translation.WellFormed
  sources : ∀ sources ∈ b.sources, sources.Holds Translation.WellFormed

namespace FileFormat

namespace Xliff1

variable {Inv : Contents → Prop} {c c' : Contents}

mutual

/-- What every unit and every tag around units keeps, reading a node keeps. -/
lemma readNode_keeps (unit : ∀ c u c', Inv c → readUnit file c u = .ok c' → Inv c')
    (enter : ∀ c tag, Inv c → Inv (c.enter tag)) (node : Markup.Node) {c c' : Contents}
    (hc : Inv c) (h : readNode file c node = .ok c') : Inv c' := by
  cases node with
  | text | comment | instruction =>
    cases h
    exact hc
  | element tag children =>
    rw [readNode] at h
    split at h
    case isTrue => exact unit c _ c' hc h
    case isFalse => exact readNodes_keeps unit enter children (enter c tag hc) h

/-- What every unit and every tag around units keeps, reading nodes keeps. -/
lemma readNodes_keeps (unit : ∀ c u c', Inv c → readUnit file c u = .ok c' → Inv c')
    (enter : ∀ c tag, Inv c → Inv (c.enter tag)) (nodes : List Markup.Node) {c c' : Contents}
    (hc : Inv c) (h : readNodes file c nodes = .ok c') : Inv c' := by
  cases nodes with
  | nil =>
    cases h
    exact hc
  | cons node rest =>
    rw [readNodes] at h
    obtain ⟨middle, first, later⟩ := bind_eq_ok h
    exact readNodes_keeps unit enter rest (readNode_keeps unit enter node hc first) later

end

/-- What has been read of a unit is well formed. -/
structure UnitParts.WellFormed (u : UnitParts) : Prop where
  source : ∀ t ∈ u.source, t.WellFormed
  target : ∀ t ∈ u.target, t.WellFormed

/-- A unit of which nothing was read holds nothing. -/
lemma UnitParts.wellFormed_empty : UnitParts.WellFormed {} := ⟨nofun, nofun⟩

/-- A note of a unit leaves its texts as they are. -/
lemma UnitParts.WellFormed.addNote {u : UnitParts} (h : u.WellFormed) (note : Markup.Element) :
    (u.addNote note).WellFormed := by
  rw [UnitParts.addNote]
  split
  case isTrue => exact h
  case isFalse =>
    split
    case h_1 | h_2 => exact ⟨h.source, h.target⟩
    case h_3 => exact h

/-- A child of a unit adds a well-formed text or none. -/
lemma UnitParts.WellFormed.addChild {u u' : UnitParts} (h : u.WellFormed) {child : Markup.Element}
    (read : u.addChild file child = .ok u') : u'.WellFormed := by
  rw [UnitParts.addChild] at read
  split at read
  case h_1 =>
    obtain ⟨t, content, read⟩ := bind_eq_ok read
    cases read
    refine ⟨h.source, ?_⟩
    rintro _ ⟨⟩
    exact Content.wellFormed_read content
  case h_2 =>
    obtain ⟨t, content, read⟩ := bind_eq_ok read
    cases read
    refine ⟨?_, h.target⟩
    rintro _ ⟨⟩
    exact Content.wellFormed_read content
  case h_3 =>
    cases read
    exact h.addNote child
  case h_4 =>
    cases read
    exact h

/-- A unit gives a well-formed translation if it gives one. -/
lemma UnitParts.WellFormed.translation {u : UnitParts} (h : u.WellFormed) {t : Translation}
    (ht : u.translation? = some t) : t.WellFormed := by
  rw [UnitParts.translation?] at ht
  obtain ⟨content, chosen, rfl⟩ := Option.map_eq_some_iff.1 ht
  apply Translation.WellFormed.note
  obtain target | ⟨-, source⟩ := Option.or_eq_some_iff.1 chosen
  · exact h.target content target
  · exact h.source content source

/-- What has been read of a file is well formed. -/
structure Contents.WellFormed (c : Contents) : Prop where
  translations : c.translations.Holds Translation.WellFormed
  sources : c.sources.Holds Translation.WellFormed

/-- Reading a unit keeps all translations well formed. -/
lemma Contents.WellFormed.readUnit {c c' : Contents} (h : c.WellFormed) {u : Markup.Element}
    (read : readUnit file c u = .ok c') : c'.WellFormed := by
  obtain ⟨id, -, read⟩ := bind_eq_ok read
  split at read
  case isTrue => cases read
  case isFalse =>
    obtain ⟨parts, children, read⟩ := bind_eq_ok read
    have collected : parts.WellFormed :=
      foldlM_keeps (fun u child _ u' h => h.addChild) UnitParts.wellFormed_empty children
    split at read
    case h_1 => cases read
    case h_2 t chosen =>
      cases read
      refine ⟨h.translations.insert id (collected.translation chosen), ?_⟩
      dsimp only
      split
      case h_1 source hsource => exact h.sources.insert id (collected.source source hsource)
      case h_2 => exact h.sources

/-- Entering an element leaves the translations as they are. -/
lemma Contents.WellFormed.enter {c : Contents} (h : c.WellFormed) (tag : Markup.Tag) :
    (c.enter tag).WellFormed := by
  rw [Contents.enter]
  split
  case isTrue => exact ⟨h.translations, h.sources⟩
  case isFalse => exact h

/-- All translations of an XLIFF 1.2 file are well formed. -/
lemma wellFormed_read (h : read file document = .ok bundle) : bundle.WellFormed := by
  obtain ⟨root, -, h⟩ := bind_eq_ok h
  obtain ⟨c, found, h⟩ := bind_eq_ok h
  cases h
  have started : Contents.WellFormed {} := ⟨.empty, .empty⟩
  have collected : c.WellFormed :=
    readNodes_keeps (fun c u c' h => h.readUnit) (fun c tag h => h.enter tag) root.children
      started found
  refine ⟨collected.translations, ?_⟩
  intro sources given
  obtain ⟨-, ⟨⟩⟩ := Option.mem_ite_none_left.1 given
  exact collected.sources

end Xliff1

namespace Xliff2

variable {Inv : Contents → Prop}

mutual

/-- What every segment keeps, reading a node keeps. -/
lemma readNode_keeps (segment : ∀ inside c s c', Inv c → readSegment file c inside s = .ok c' →
    Inv c') (node : Markup.Node) {inside : Option String} {c c' : Contents} (hc : Inv c)
    (h : readNode file inside c node = .ok c') : Inv c' := by
  cases node with
  | text | comment | instruction =>
    cases h
    exact hc
  | element tag children =>
    rw [readNode] at h
    split at h
    case isTrue =>
      obtain ⟨id, -, h⟩ := bind_eq_ok h
      exact readNodes_keeps segment children hc h
    case isFalse =>
      split at h
      case isTrue => exact segment inside c _ c' hc h
      case isFalse => exact readNodes_keeps segment children hc h

/-- What every segment keeps, reading nodes keeps. -/
lemma readNodes_keeps (segment : ∀ inside c s c', Inv c → readSegment file c inside s = .ok c' →
    Inv c') (nodes : List Markup.Node) {inside : Option String} {c c' : Contents} (hc : Inv c)
    (h : readNodes file inside c nodes = .ok c') : Inv c' := by
  cases nodes with
  | nil =>
    cases h
    exact hc
  | cons node rest =>
    rw [readNodes] at h
    obtain ⟨middle, first, later⟩ := bind_eq_ok h
    exact readNodes_keeps segment rest (readNode_keeps segment node hc first) later

end

/-- What has been read of a file is well formed. -/
structure Contents.WellFormed (c : Contents) : Prop where
  translations : c.translations.Holds Translation.WellFormed
  sources : c.sources.Holds Translation.WellFormed

/-- Reading a segment keeps all translations well formed. -/
lemma Contents.WellFormed.readSegment {c c' : Contents} (h : c.WellFormed) {inside : Option String}
    {s : Markup.Element} (read : readSegment file c inside s = .ok c') : c'.WellFormed := by
  unfold Xliff2.readSegment at read
  split at read
  case h_1 | h_2 => cases read
  case h_3 id target _ =>
    dsimp only at read
    split at read
    case h_1 =>
      obtain ⟨source, sourceContent, read⟩ := bind_eq_ok read
      obtain ⟨sources, stored, read⟩ := bind_eq_ok read
      obtain ⟨t, content, read⟩ := bind_eq_ok read
      cases stored
      cases read
      exact ⟨h.translations.insert id (Content.wellFormed_read content),
        h.sources.insert id (Content.wellFormed_read sourceContent)⟩
    case h_2 =>
      obtain ⟨sources, stored, read⟩ := bind_eq_ok read
      obtain ⟨t, content, read⟩ := bind_eq_ok read
      cases stored
      cases read
      exact ⟨h.translations.insert id (Content.wellFormed_read content), h.sources⟩

/-- All translations of an XLIFF 2.0 file are well formed. -/
lemma wellFormed_read (h : read file document = .ok bundle) : bundle.WellFormed := by
  obtain ⟨root, -, h⟩ := bind_eq_ok h
  obtain ⟨c, found, h⟩ := bind_eq_ok h
  cases h
  have started : Contents.WellFormed {} := ⟨.empty, .empty⟩
  have collected : c.WellFormed :=
    readNodes_keeps (fun inside c s c' h => h.readSegment) root.children started found
  refine ⟨collected.translations, ?_⟩
  intro sources given
  obtain ⟨-, ⟨⟩⟩ := Option.mem_ite_none_left.1 given
  exact collected.sources

end Xliff2

namespace Xtb

/-- Reading a message keeps all translations well formed. -/
lemma holds_readMessage {translations translations' : OrderedMap String Translation}
    (h : translations.Holds Translation.WellFormed) {e : Markup.Element}
    (read : readMessage file translations e = .ok translations') :
    translations'.Holds Translation.WellFormed := by
  obtain ⟨id, -, read⟩ := bind_eq_ok read
  split at read
  case isTrue => cases read
  case isFalse =>
    obtain ⟨t, content, read⟩ := bind_eq_ok read
    cases read
    have wellFormed : t.WellFormed := Content.wellFormed_read content
    exact h.insert id (wellFormed.note _ _)

/-- All translations of an XTB file are well formed. -/
lemma wellFormed_read (h : read file document = .ok bundle) : bundle.WellFormed := by
  obtain ⟨root, -, h⟩ := bind_eq_ok h
  obtain ⟨translations, found, h⟩ := bind_eq_ok h
  cases h
  refine ⟨?_, nofun⟩
  exact foldlM_keeps (fun held e _ held' h => holds_readMessage h) .empty found

end Xtb

namespace Json

/-- All translations of a JSON file are well formed. -/
lemma wellFormed_read (h : read file document = .ok bundle) : bundle.WellFormed := by
  rw [read] at h
  split at h
  case h_1 =>
    obtain ⟨translations, found, h⟩ := bind_eq_ok h
    cases h
    have wellFormed : ∀ p ∈ translations, p.2.WellFormed := by
      intro p member
      obtain ⟨text, e⟩ := exists_text_of_translationsOf found p member
      rw [e]
      exact Translation.wellFormed_parse text
    refine ⟨OrderedMap.holds_ofList wellFormed, ?_⟩
    rintro _ ⟨⟩
  case h_2 => cases h

end Json

end FileFormat

/-! ## Loading -/

/-- All translations that any reader reads are well formed. -/
lemma Reader.wellFormed_read {reader : Reader} (h : reader.read file document = .ok bundle) :
    bundle.WellFormed := by
  cases reader with
  | xliff2 => exact FileFormat.Xliff2.wellFormed_read h
  | xliff1 => exact FileFormat.Xliff1.wellFormed_read h
  | xtb => exact FileFormat.Xtb.wellFormed_read h
  | json => exact FileFormat.Json.wellFormed_read h

namespace Loader

/-- A bundle that was loaded was read by a reader. -/
lemma exists_read_of_loadWith {readers : List Reader} {ds rejections ds' : Diagnostics}
    (h : loadWith file ds rejections readers = (some bundle, ds')) :
    ∃ reader ∈ readers, ∃ document read, reader.read file document = .ok read ∧
      bundle = { read with diagnostics := [] } := by
  induction readers generalizing rejections with
  | nil => cases h
  | cons reader rest ih =>
    rw [loadWith] at h
    dsimp only at h
    split at h
    case isTrue =>
      rw [readAccepted] at h
      split at h
      case h_1 read ok =>
        cases h
        exact ⟨reader, List.mem_cons_self, _, read, ok, rfl⟩
      case h_2 => cases h
    case isFalse =>
      obtain ⟨later, member, found⟩ := ih h
      exact ⟨later, List.mem_cons_of_mem reader member, found⟩

/-- A bundle that was loaded is well formed. -/
theorem wellFormed_load {ds ds' : Diagnostics} (h : load file ds = (some bundle, ds')) :
    bundle.WellFormed := by
  obtain ⟨reader, -, document, read, ok, rfl⟩ := exists_read_of_loadWith h
  have wellFormed : read.WellFormed := Reader.wellFormed_read ok
  exact ⟨wellFormed.translations, wellFormed.sources⟩

end Loader

end MessageCatalog
