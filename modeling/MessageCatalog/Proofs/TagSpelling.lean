import MessageCatalog.Proofs.Extraction
import MessageCatalog.Proofs.Text

/-!
# How the tag is written

A file in which the name of the tag does not stand is not read. But a name may be written with
escapes, and then its characters need not stand in the file. The call sites that are passed over so
are those with a tag that is written with an escape, and there are no others.
-/

namespace MessageCatalog

open Script (Node Source Range)

/-! ## Names without escapes -/

namespace Script

namespace Name

/-- What an escape begins with. -/
def escapeLead : List Char := ['\\', 'u']

/-- What is no escape is decoded to itself, unless it is a stray backslash. -/
lemma decodeFrom_cons {c : Char} {rest : List Char} (plain : ¬ escapeLead <+: c :: rest) :
    decodeFrom none (c :: rest) =
      if c = '\\' then none else (decodeFrom none rest).map (c :: ·) := by
  rw [decodeFrom]
  · rintro rest rfl rfl
    exact plain (List.prefix_append escapeLead _)
  · rintro a b c d rest rfl rfl
    exact plain (List.prefix_append escapeLead _)

/-- Characters without an escape stand for themselves. -/
lemma eq_of_decodeFrom {written name : List Char} (h : decodeFrom none written = some name)
    (plain : ¬ escapeLead <:+: written) : name = written := by
  induction written generalizing name with
  | nil =>
    cases h
    rfl
  | cons c rest ih =>
    rw [decodeFrom_cons fun front => plain front.isInfix] at h
    split at h
    case isTrue => cases h
    case isFalse =>
      obtain ⟨later, decoded, rfl⟩ := Option.map_eq_some_iff.1 h
      rw [ih decoded fun occurs => plain (List.infix_cons occurs)]

end Name

/-- A name without escapes is the text that it is written with. -/
lemma Source.slice_eq_of_name? {s : Source} {r : Range} {name : String}
    (h : s.name? r = some name) (plain : ¬ Name.escapeLead <:+: s.slice r) :
    s.slice r = name.toList := by
  rw [Source.name?, Name.decode?] at h
  split at h
  case h_2 => cases h
  case h_1 chars decoded =>
    split at h
    case isFalse => cases h
    case isTrue =>
      cases h
      rw [Name.eq_of_decodeFrom decoded plain, String.toList_ofList]

/-- A slice of a source stands somewhere in it. -/
lemma Source.slice_infix (s : Source) (r : Range) : s.slice r <:+: s :=
  (List.take_prefix _ _).isInfix.trans (List.drop_suffix _ _).isInfix

end Script

namespace CallSite

/-- Where the name of the tag does not stand, the tag can only be written with an escape. -/
lemma escaped_of_name? {s : Source} {r : Range} (absent : Text.contains tagName.toList s = false)
    (h : s.name? r = some tagName) : Script.Name.escapeLead <:+: s.slice r := by
  by_contra plain
  have inside : tagName.toList <:+: s := by
    rw [← s.slice_eq_of_name? h plain]
    exact s.slice_infix r
  rw [Text.contains, Option.isSome_eq_false_iff, Option.isNone_iff_eq_none,
    Text.cutAt?_eq_none_iff] at absent
  exact absent inside

/-! ## The expressions that are looked at -/

mutual

/-- The expressions at a node and below it that are looked at, in the order of the source, each with
whether a scope around it declares the name of the tag. -/
def lookedAt (inChain declared : Bool) (node : Node) : List (Bool × Node) :=
  (if inChain then [] else [(declared, node)]) ++
    match node with
    | .tagged _ tag _ substitutions =>
      lookedAt false declared tag ++ lookedAtInAll declared substitutions
    | .call _ callee arguments =>
      lookedAt false declared callee ++ lookedAtInAll declared arguments
    | .member _ object _ => lookedAt false declared object
    | .element _ parts | .array _ parts _ | .object _ parts _ | .group _ parts =>
      lookedAtInAll declared parts
    | .property _ key value => lookedAtInAll declared key ++ lookedAt false declared value
    | .shorthand _ _ none => []
    | .shorthand _ _ (some initial) => lookedAt false declared initial
    | .spread _ inner | .parenthesized _ inner | .typed _ inner => lookedAt false declared inner
    | .shortcut _ _ left right | .assignment _ _ left right =>
      lookedAt false declared left ++ lookedAt false declared right
    | .chain _ inner => lookedAt true declared inner
    | .scope _ names parts => lookedAtInAll (declared || tagName ∈ names) parts
    | .identifier _ | .string _ _ | .hole => []

/-- The expressions of nodes in order that are looked at. -/
def lookedAtInAll (declared : Bool) : List Node → List (Bool × Node)
  | [] => []
  | node :: rest => lookedAt false declared node ++ lookedAtInAll declared rest

end

mutual

/-- The call sites are found at the expressions that are looked at, in their order. -/
lemma sites_eq (s : Source) (inChain declared : Bool) (node : Node) :
    sites s inChain declared node =
      (lookedAt inChain declared node).filterMap fun p => recognize? s p.1 p.2 := by
  -- the expression right inside a chain is not looked at by itself
  have here : (if inChain then none else recognize? s declared node).toList =
      (if inChain then [] else [(declared, node)]).filterMap fun p => recognize? s p.1 p.2 := by
    cases inChain with
    | true => rfl
    | false => cases h : recognize? s declared node <;> simp [h]
  rw [sites.eq_def, lookedAt.eq_def, here, List.filterMap_append]
  congr 1
  cases node with
  | identifier _ | string _ _ | hole => rfl
  | tagged _ first _ later | call _ first later =>
    rw [List.filterMap_append]
    exact congrArg₂ _ (sites_eq s false declared first) (sitesOfAll_eq s declared later)
  | property _ key value =>
    rw [List.filterMap_append]
    exact congrArg₂ _ (sitesOfAll_eq s declared key) (sites_eq s false declared value)
  | shortcut _ _ left right | assignment _ _ left right =>
    rw [List.filterMap_append]
    exact congrArg₂ _ (sites_eq s false declared left) (sites_eq s false declared right)
  | element _ parts | array _ parts _ | object _ parts _ | group _ parts =>
    exact sitesOfAll_eq s declared parts
  | scope _ names parts => exact sitesOfAll_eq s _ parts
  | member _ inner _ | spread _ inner | parenthesized _ inner | typed _ inner =>
    exact sites_eq s false declared inner
  | chain _ inner => exact sites_eq s true declared inner
  | shorthand _ _ initial =>
    cases initial with
    | none => rfl
    | some initial => exact sites_eq s false declared initial

/-- The sites of nodes are those among the expressions that are looked at which are recognized. -/
lemma sitesOfAll_eq (s : Source) (declared : Bool) (nodes : List Node) :
    sitesOfAll s declared nodes =
      (lookedAtInAll declared nodes).filterMap fun p => recognize? s p.1 p.2 := by
  cases nodes with
  | nil => rfl
  | cons node rest =>
    rw [sitesOfAll, lookedAtInAll, List.filterMap_append, sites_eq, sitesOfAll_eq]

end

/-! ## Their tags -/

/-- Where the name stands that an expression applies to its strings, if it is one that may. -/
def applied? : Node → Option Range
  | .tagged _ (.identifier r) _ _ | .call _ (.identifier r) _ => some r
  | _ => none

/-- Where the tag of an expression is written, if that is a call site. -/
def tagOf? (s : Source) (p : Bool × Node) : Option Range :=
  (applied? p.2).filter fun r => !p.1 && s.name? r = some tagName

/-- Where the tags of the call sites of a script are written. -/
def tags (s : Source) (script : Node) : List Range :=
  (lookedAt false false script).filterMap (tagOf? s)

/-- An identifier of the tag decodes to the name of the tag. -/
lemma name?_of_mem_tags {s : Source} {script : Node} {r : Range} (h : r ∈ tags s script) :
    s.name? r = some tagName := by
  obtain ⟨p, -, here⟩ := List.mem_filterMap.1 h
  have named := (Option.filter_eq_some_iff.1 here).2
  rw [Bool.and_eq_true] at named
  exact of_decide_eq_true named.2

/-- An expression is a call site exactly when it has a tag. -/
lemma isSome_recognize? (s : Source) (p : Bool × Node) :
    (recognize? s p.1 p.2).isSome = (tagOf? s p).isSome := by
  obtain ⟨declared, node⟩ := p
  have tag {e : Node} {r : Range} (h : applied? e = some r) :
      tagOf? s (declared, e) = if isTag s declared (.identifier r) then some r else none := by
    rw [tagOf?, h, Option.filter, isTag]
  cases node with
  | tagged _ name quasis substitutions =>
    cases name with
    | identifier r =>
      rw [recognize?, ofTagged?, tag rfl]
      cases isTag s declared (.identifier r) <;> rfl
    | _ => rfl
  | call _ name arguments =>
    cases name with
    | identifier r =>
      rw [recognize?, ofCall?, tag rfl]
      cases isTag s declared (.identifier r) <;> rfl
    | _ => rfl
  | _ => rfl

/-- Each call site has a tag of its own. -/
lemma length_sites (s : Source) (script : Node) :
    (sites s false false script).length = (tags s script).length := by
  rw [sites_eq, tags, List.length_filterMap_eq_countP, List.length_filterMap_eq_countP]
  simp only [isSome_recognize?]

end CallSite

/-! ## Files that are passed over -/

namespace Extraction

variable {file : FileText} {script : Node}

/-- A file is passed over when the name of the tag does not stand in it. -/
lemma extract_of_absent (absent : mentionsTag file = false) (e : Extraction) (ds : Diagnostics) :
    e.extract file ds = (e, ds) := by
  rw [extract, absent]
  rfl

/-- Scanning a file takes the messages of its script one by one. -/
lemma scan_eq (read : Script.read (.ofPath file.path) file.contents.toList = .ok script)
    (e : Extraction) (ds : Diagnostics) :
    e.scan file ds =
      (CallSite.messages file.contents.toList script).foldl (take file.path) (e, ds) := by
  rw [scan, read]
  rfl

/-- Each call site leaves a message or an error in a new collection. -/
lemma eq_nil_of_foldl_take {path : String} {outcomes : List (Except CallSiteError Message)}
    (h : outcomes.foldl (take path) ({}, []) = ({}, [])) : outcomes = [] := by
  rw [foldl_take, List.nil_append, Prod.mk.injEq] at h
  obtain ⟨nothing, silent⟩ := h
  cases outcomes with
  | nil => rfl
  | cons outcome later =>
    cases outcome with
    | error fault => cases silent
    | ok m =>
      have seen : m.id ∈ (addAll {} (offered (.ok m :: later))).seenIds :=
        mem_seenIds_addAll.2 (.inr List.mem_cons_self)
      rw [nothing] at seen
      cases seen

/-- In a script in which the name of the tag does not stand, every call site has a tag that is
written with an escape. So there is no call site unless there is such a tag; and passing the script
over leaves the same messages and diagnostics as looking at it exactly when there is none. -/
theorem passed_over_alike (absent : mentionsTag file = false)
    (read : Script.read (.ofPath file.path) file.contents.toList = .ok script) :
    let s : Source := file.contents.toList
    let tags := CallSite.tags s script
    (CallSite.sites s false false script).length = tags.length ∧
      (∀ r ∈ tags, s.name? r = some CallSite.tagName ∧ Script.Name.escapeLead <:+: s.slice r) ∧
      ((∀ r ∈ tags, ¬ Script.Name.escapeLead <:+: s.slice r) →
        CallSite.sites s false false script = [] ∧
          ∀ (e : Extraction) (ds : Diagnostics),
            e.extract file ds = e.scan file ds ∧ e.scan file ds = (e, ds)) ∧
      ((∀ (e : Extraction) (ds : Diagnostics), e.extract file ds = e.scan file ds) ↔
        tags = []) := by
  intro s tags
  have each : (CallSite.sites s false false script).length = tags.length :=
    CallSite.length_sites s script
  have escaped : ∀ r ∈ tags,
      s.name? r = some CallSite.tagName ∧ Script.Name.escapeLead <:+: s.slice r := by
    intro r member
    have named := CallSite.name?_of_mem_tags member
    exact ⟨named, CallSite.escaped_of_name? absent named⟩
  have none_of_tags (none : tags = []) : CallSite.sites s false false script = [] := by
    rw [none] at each
    exact List.length_eq_zero_iff.1 each
  have alike (none : tags = []) (e : Extraction) (ds : Diagnostics) : e.scan file ds = (e, ds) := by
    rw [scan_eq read, CallSite.messages, none_of_tags none]
    rfl
  refine ⟨each, escaped, fun plain => ?_, fun same => ?_, fun none e ds => ?_⟩
  · have none : tags = [] := by
      apply List.eq_nil_iff_forall_not_mem.2
      intro r member
      exact plain r member (escaped r member).2
    refine ⟨none_of_tags none, fun e ds => ⟨?_, alike none e ds⟩⟩
    rw [extract_of_absent absent, alike none]
  · have idle := same {} []
    rw [extract_of_absent absent, scan_eq read] at idle
    have outcomes := eq_nil_of_foldl_take idle.symm
    rw [CallSite.messages, List.map_eq_nil_iff] at outcomes
    rw [outcomes] at each
    exact List.length_eq_zero_iff.1 each.symm
  · rw [extract_of_absent absent, alike none]

/-- A script in which another name is written with an escape, and the name of the tag in a string. -/
def escapedElsewhere : FileText :=
  ⟨"main.js", "t\\u0061g`Hi $\x7bx\x7d`; f('\\u0024localize')"⟩

/-- Neither an escape in another name nor the name of the tag in a string makes a call site. -/
theorem passed_over_alike_escapedElsewhere :
    mentionsTag escapedElsewhere = false ∧
      ∃ script,
        Script.read (.ofPath "main.js") escapedElsewhere.contents.toList = .ok script ∧
        (CallSite.lookedAt false false script).filterMap (fun p => CallSite.applied? p.2) =
          [⟨0, 8⟩, ⟨19, 20⟩] ∧
        Source.name? escapedElsewhere.contents.toList ⟨0, 8⟩ = some "tag" ∧
        CallSite.sites escapedElsewhere.contents.toList false false script = [] ∧
          ∀ (e : Extraction) (ds : Diagnostics),
            e.extract escapedElsewhere ds = e.scan escapedElsewhere ds ∧
              e.scan escapedElsewhere ds = (e, ds) := by
  have absent : mentionsTag escapedElsewhere = false := by decide +kernel
  have applied : ((Script.read (.ofPath "main.js") escapedElsewhere.contents.toList).toOption.map
      fun script =>
        ((CallSite.lookedAt false false script).filterMap (fun p => CallSite.applied? p.2),
          CallSite.tags escapedElsewhere.contents.toList script)) =
      some ([⟨0, 8⟩, ⟨19, 20⟩], []) := by
    decide +kernel
  cases read : Script.read (.ofPath "main.js") escapedElsewhere.contents.toList with
  | error refusal =>
    rw [read] at applied
    cases applied
  | ok script =>
    rw [read] at applied
    obtain ⟨names, tags⟩ := Prod.mk.inj (Option.some.inj applied)
    obtain ⟨-, -, alike, -⟩ := passed_over_alike absent read
    have plain : ∀ r ∈ CallSite.tags escapedElsewhere.contents.toList script,
        ¬ Script.Name.escapeLead <:+: Source.slice escapedElsewhere.contents.toList r := by
      rw [tags]
      exact List.forall_mem_nil _
    exact ⟨absent, script, rfl, names, by decide +kernel, alike plain⟩

/-- A script with a tag that is written with an escape. -/
def escapedTag : FileText := ⟨"main.js", "\\u0024localize`Hi`"⟩

/-- The message of such a tag is lost when its script is passed over. -/
theorem not_alike_escapedTag :
    mentionsTag escapedTag = false ∧
      (extract {} escapedTag []).1.messages = [] ∧
      (scan {} escapedTag []).1.messages.map Message.text = ["Hi"] ∧
      extract {} escapedTag [] ≠ scan {} escapedTag [] := by
  have found : (scan {} escapedTag []).1.messages.map Message.text = ["Hi"] := by decide +kernel
  have passed : (extract {} escapedTag []).1.messages = [] := by decide +kernel
  refine ⟨by decide +kernel, passed, found, fun same => ?_⟩
  rw [← same, passed] at found
  cases found

end Extraction

end MessageCatalog
