import Mathlib.Data.List.Forall2
import MessageCatalog.CallSite

/-!
# Templates and the calls they are lowered to

A compiler makes a call of a template with the tag: the strings of the template become the first
argument, and its substitutions the others. The strings are an array, or a call of a helper with two
arrays, or such an expression that is kept in a variable; and there may be parentheses around every
expression of these. The calls of this form, and no others, are read as the template that they were
made of.
-/

namespace MessageCatalog.CallSite

open Script (Node Source Range)

variable {s : Source} {cooked raw strings : List String}

/-! ## The forms -/

/-- An expression in any number of parentheses. -/
inductive Enclosed (inner : Node) : Node → Prop
  | refl : Enclosed inner inner
  | parenthesized (r : Range) {e : Node} :
    Enclosed inner e →
    Enclosed inner (.parenthesized r e)

/-- An array of strings. -/
inductive ArrayOf (strings : List String) : Node → Prop
  | intro (r : Range) (trailingComma : Bool) {items : List Node} :
    List.Forall₂ (fun item value => ∃ r, item = .string r value) items strings →
    ArrayOf strings (.array r items trailingComma)

/-- The name of the helper, by itself or as a property. -/
inductive NamesHelper (s : Source) : Node → Prop
  | name (r : Range) :
    s.name? r = some helperName →
    NamesHelper s (.identifier r)
  | property (r : Range) (object : Node) (r' : Range) :
    s.name? r' = some helperName →
    NamesHelper s (.member r object r')

/-- An expression that stands for the strings of a template. -/
inductive StandsFor (s : Source) (cooked raw : List String) : Node → Prop
  | array {e : Node} :
    raw = cooked →
    ArrayOf cooked e →
    StandsFor s cooked raw e
  | helper (r : Range) {name callee array array' first second : Node} (more : List Node) :
    NamesHelper s name →
    Enclosed name callee →
    ArrayOf cooked array →
    Enclosed array first →
    ArrayOf raw array' →
    Enclosed array' second →
    StandsFor s cooked raw (.call r callee (first :: second :: more))
  | kept (r r' : Range) (isPlain : Bool) (left target : Node) {value right : Node} :
    StandsFor s cooked raw value →
    Enclosed (.assignment r' isPlain target value) right →
    StandsFor s cooked raw (.shortcut r .or left right)
  | parenthesized (r : Range) {e : Node} :
    StandsFor s cooked raw e →
    StandsFor s cooked raw (.parenthesized r e)

/-- The arguments of the tag that a template is lowered to. -/
inductive Lowered (s : Source) (t : Template) : List Node → Prop
  | intro {first : Node} {rest : List Node} :
    StandsFor s t.cooked t.raw first →
    (∀ e ∈ rest, ∀ r inner, e ≠ .spread r inner) →
    sourceTexts s rest = t.substitutions →
    Lowered s t (first :: rest)

/-! ## Parentheses -/

/-- Parentheses around an expression are taken away to the last. -/
lemma withoutParentheses_eq {inner e : Node} (h : Enclosed inner e) :
    e.withoutParentheses = inner.withoutParentheses := by
  induction h with
  | refl => rfl
  | parenthesized r _ ih => exact ih

/-- What is left without parentheses stands in parentheses. -/
lemma enclosed_withoutParentheses (e : Node) : Enclosed e.withoutParentheses e := by
  cases e with
  | parenthesized r inner => exact .parenthesized r (enclosed_withoutParentheses inner)
  | _ => exact .refl

/-! ## Arrays and the helper -/

/-- Expressions have string values when each of them is a string. -/
lemma mapM_stringValue?_iff {items : List Node} :
    items.mapM stringValue? = some strings ↔
      List.Forall₂ (fun item value => ∃ r, item = .string r value) items strings := by
  induction items generalizing strings with
  | nil =>
    rw [List.forall₂_nil_left_iff]
    exact ⟨fun h => (Option.some.inj h).symm, fun h => h ▸ rfl⟩
  | cons item items ih =>
    rw [List.mapM_cons, List.forall₂_cons_left_iff]
    constructor
    · intro h
      obtain ⟨value, first, h⟩ := Option.bind_eq_some_iff.1 h
      obtain ⟨values, later, h⟩ := Option.bind_eq_some_iff.1 h
      cases h
      refine ⟨value, values, ?_, ih.1 later, rfl⟩
      cases item with
      | string r text =>
        cases first
        exact ⟨r, rfl⟩
      | _ => cases first
    · rintro ⟨value, values, ⟨r, rfl⟩, later, rfl⟩
      rw [ih.2 later]
      rfl

/-- The strings of an array are found when it is an array of just these strings. -/
lemma stringArray?_iff {e : Node} : stringArray? e = some strings ↔ ArrayOf strings e := by
  constructor
  · intro h
    cases e with
    | array r items trailingComma => exact .intro r trailingComma (mapM_stringValue?_iff.1 h)
    | _ => cases h
  · rintro ⟨r, trailingComma, all⟩
    exact mapM_stringValue?_iff.2 all

/-- The strings of an array are found through parentheses. -/
lemma stringArray?_of_enclosed {array e : Node} (h : ArrayOf strings array)
    (enclosed : Enclosed array e) : stringArray? e.withoutParentheses = some strings := by
  rw [withoutParentheses_eq enclosed]
  cases h with
  | intro r trailingComma all => exact mapM_stringValue?_iff.2 all

/-- The helper is found by its name. -/
lemma isHelper_iff {callee : Node} :
    isHelper s callee = true ↔ ∃ name, NamesHelper s name ∧ Enclosed name callee := by
  constructor
  · intro h
    refine ⟨callee.withoutParentheses, ?_, enclosed_withoutParentheses callee⟩
    rw [isHelper] at h
    generalize callee.withoutParentheses = name at h ⊢
    cases name with
    | identifier r => exact .name r (of_decide_eq_true h)
    | member r object r' => exact .property r object r' (of_decide_eq_true h)
    | _ => cases h
  · rintro ⟨name, named, enclosed⟩
    rw [isHelper, withoutParentheses_eq enclosed]
    cases named with
    | name r h => exact decide_eq_true h
    | property r object r' h => exact decide_eq_true h

/-! ## What stands for a template -/

mutual

/-- Strings are only read of an expression that stands for them. -/
lemma standsFor_of_callParts? (e : Node) (h : callParts? s e = some (cooked, raw)) :
    StandsFor s cooked raw e := by
  cases e with
  | array r items trailingComma =>
    obtain ⟨strings, all, same⟩ := Option.map_eq_some_iff.1 h
    cases same
    exact .array rfl (stringArray?_iff.1 all)
  | call r callee arguments =>
    match arguments with
    -- a helper is given both lists of strings, and whatever follows is not looked at
    | [] | [_] => cases h
    | first :: second :: more =>
      rw [callParts?] at h
      split at h
      case isFalse => cases h
      case isTrue named =>
        obtain ⟨name, helper, enclosed⟩ := isHelper_iff.1 named
        obtain ⟨cooked', all, h⟩ := Option.bind_eq_some_iff.1 h
        obtain ⟨raw', all', h⟩ := Option.bind_eq_some_iff.1 h
        cases h
        exact .helper r more helper enclosed (stringArray?_iff.1 all)
          (enclosed_withoutParentheses first) (stringArray?_iff.1 all')
          (enclosed_withoutParentheses second)
  | shortcut r operator left right =>
    cases operator with
    | or =>
      obtain ⟨r', isPlain, target, value, enclosed, stands⟩ := exists_of_assignedParts? right h
      exact .kept r r' isPlain left target stands enclosed
    | and | coalesce => cases h
  | parenthesized r inner => exact .parenthesized r (standsFor_of_callParts? inner h)
  | _ => cases h

/-- Behind `||` strings are only read of the value of an assignment. -/
lemma exists_of_assignedParts? (e : Node)
    (h : callParts?.assignedParts? s e = some (cooked, raw)) :
    ∃ r isPlain target value, Enclosed (.assignment r isPlain target value) e ∧
      StandsFor s cooked raw value := by
  cases e with
  | assignment r isPlain target value =>
    exact ⟨r, isPlain, target, value, .refl, standsFor_of_callParts? value h⟩
  | parenthesized r inner =>
    obtain ⟨r', isPlain, target, value, enclosed, stands⟩ := exists_of_assignedParts? inner h
    exact ⟨r', isPlain, target, value, .parenthesized r enclosed, stands⟩
  | _ => cases h

end

/-- The parts of an assignment are those of the value that is assigned. -/
lemma assignedParts?_eq {r : Range} {isPlain : Bool} {target value e : Node}
    (h : Enclosed (.assignment r isPlain target value) e) :
    callParts?.assignedParts? s e = callParts? s value := by
  induction h with
  | refl => rw [callParts?.assignedParts?]
  | parenthesized r' _ ih => rw [callParts?.assignedParts?, ih]

/-- The strings that are read of an expression are those that it stands for. -/
theorem callParts?_iff {e : Node} :
    callParts? s e = some (cooked, raw) ↔ StandsFor s cooked raw e := by
  constructor
  · exact standsFor_of_callParts? e
  · intro h
    induction h with
    | array same all =>
      subst same
      cases all with
      | intro r trailingComma all =>
        rw [callParts?, stringArray?, mapM_stringValue?_iff.2 all]
        rfl
    | helper r more helper enclosed all enclosed' all' enclosed'' =>
      rw [callParts?, if_pos (isHelper_iff.2 ⟨_, helper, enclosed⟩),
        stringArray?_of_enclosed all enclosed', stringArray?_of_enclosed all' enclosed'']
      rfl
    | kept r r' isPlain left target _ enclosed ih =>
      rw [callParts?, assignedParts?_eq enclosed, ih]
    | parenthesized r _ ih => rw [callParts?, ih]

/-! ## Arguments -/

/-- The texts of the arguments are put together one by one, as long as none is spread. -/
lemma substitutionTexts_cons {e : Node} (h : ∀ r inner, e ≠ .spread r inner) (rest : List Node) :
    substitutionTexts s (e :: rest) =
      (substitutionTexts s rest).map (s.text e.range :: ·) := by
  cases e with
  | spread r inner => exact absurd rfl (h r inner)
  | _ =>
    rw [substitutionTexts]
    · cases substitutionTexts s rest <;> rfl
    · nofun

/-- Unless an argument is spread, substitutions are the source texts of the arguments. -/
lemma substitutionTexts_iff {rest : List Node} {texts : List String} :
    substitutionTexts s rest = .ok texts ↔
      (∀ e ∈ rest, ∀ r inner, e ≠ .spread r inner) ∧ sourceTexts s rest = texts := by
  induction rest generalizing texts with
  | nil =>
    rw [substitutionTexts, Except.ok.injEq]
    exact (and_iff_right (List.forall_mem_nil _)).symm
  | cons e rest ih =>
    rw [List.forall_mem_cons]
    by_cases spread : ∃ r inner, e = .spread r inner
    · obtain ⟨r, inner, rfl⟩ := spread
      refine iff_of_false nofun ?_
      rintro ⟨⟨noSpread, -⟩, -⟩
      exact noSpread r inner rfl
    · have noSpread : ∀ r inner, e ≠ .spread r inner :=
        fun r inner same => spread ⟨r, inner, same⟩
      rw [substitutionTexts_cons noSpread]
      constructor
      · intro h
        cases later : substitutionTexts s rest with
        | error fault =>
          rw [later] at h
          cases h
        | ok texts' =>
          rw [later] at h
          cases h
          obtain ⟨others, same⟩ := ih.1 later
          exact ⟨⟨noSpread, others⟩, congrArg (s.text e.range :: ·) same⟩
      · rintro ⟨⟨-, others⟩, rfl⟩
        rw [ih.2 ⟨others, rfl⟩]
        rfl

/-- The template of arguments is the one that they are lowered from. -/
lemma ofArguments_iff {arguments : List Node} {t : Template} :
    ofArguments s arguments = .ok t ↔ Lowered s t arguments := by
  cases arguments with
  | nil => exact iff_of_false nofun nofun
  | cons first rest =>
    rw [ofArguments]
    constructor
    · intro h
      cases parts : callParts? s first with
      | none =>
        rw [parts] at h
        cases h
      | some strings =>
        rw [parts] at h
        cases texts : substitutionTexts s rest with
        | error fault =>
          rw [texts] at h
          cases h
        | ok texts' =>
          rw [texts] at h
          cases h
          obtain ⟨noSpread, same⟩ := substitutionTexts_iff.1 texts
          exact .intro (callParts?_iff.1 parts) noSpread same
    · rintro ⟨stands, noSpread, same⟩
      rw [callParts?_iff.2 stands, substitutionTexts_iff.2 ⟨noSpread, same⟩]
      rfl

/-! ## Templates -/

/-- The literal pieces of a template whose escapes are all well formed, given their cooked and raw
strings. -/
def quasisOf (parts : List (String × String)) : List Script.Quoted.Quasi :=
  parts.map fun (cooked, raw) => ⟨some cooked, raw⟩

/-- The parts of a template are those that its quasis were made of. -/
lemma templateParts_quasisOf (parts : List (String × String)) :
    templateParts (quasisOf parts) = .ok (parts.map Prod.fst, parts.map Prod.snd) := by
  induction parts with
  | nil => rfl
  | cons part rest ih =>
    rw [quasisOf, List.map_cons, templateParts, ← quasisOf, ih]
    rfl

/-- A template with the tag and the calls it is lowered to are one template. Where no scope declares
the tag, in both scripts, the template is read with its cooked and raw strings and the source texts
of its substitutions; a call of the tag is read as the same template exactly when its arguments are
what that template is lowered to; and then both are one message, or have one error. -/
theorem lowered_alike {s s' : Source} {tag tag' : Range} (htag : s.name? tag = some tagName)
    (htag' : s'.name? tag' = some tagName) (parts : List (String × String))
    (substitutions arguments : List Node) (range range' : Range) :
    let t : Template :=
      ⟨parts.map Prod.fst, parts.map Prod.snd, sourceTexts s substitutions⟩
    let tagged := ofTagged? s false (.tagged range (.identifier tag) (quasisOf parts) substitutions)
    let call := ofCall? s' false (.call range' (.identifier tag') arguments)
    tagged = some (.ok t) ∧
      (call = some (.ok t) ↔ Lowered s' t arguments) ∧
      (Lowered s' t arguments →
        call.map message = tagged.map message ∧
          tagged.map message = some ((Message.ofTemplate t).mapError .block)) := by
  intro t tagged call
  have isTag (s : Source) (r : Range) (h : s.name? r = some tagName) :
      isTag s false (.identifier r) = true := by
    rw [CallSite.isTag, h]
    decide
  have template : tagged = some (.ok t) := by
    show ofTagged? s false (.tagged range (.identifier tag) (quasisOf parts) substitutions) = _
    rw [ofTagged?, isTag s tag htag, if_pos rfl, templateParts_quasisOf]
    rfl
  have arguments_iff : call = some (.ok t) ↔ Lowered s' t arguments := by
    show ofCall? s' false (.call range' (.identifier tag') arguments) = _ ↔ _
    rw [ofCall?, isTag s' tag' htag', if_pos rfl, Option.some.injEq]
    exact ofArguments_iff
  refine ⟨template, arguments_iff, fun lowered => ?_⟩
  rw [arguments_iff.2 lowered, template]
  exact ⟨rfl, rfl⟩

/-- A template with an escape. -/
def escapedTemplate : Source := "$localize`a\\n$\x7bx\x7db`".toList

/-- A call that it is lowered to, with its strings kept in two variables. -/
def keptCall : Source :=
  ("$localize((t||(t=u||(u=(h.__makeTemplateObject)" ++
    "([\"a\\n\",\"b\"],([\"a\\\\n\",\"b\"]))))),x)").toList

/-- The arguments of this call. -/
def keptArguments : List Node :=
  let strings : Node := .call ⟨23, 75⟩ (.parenthesized ⟨23, 47⟩
      (.member ⟨24, 46⟩ (.identifier ⟨24, 25⟩) ⟨26, 46⟩))
    [.array ⟨48, 59⟩ [.string ⟨49, 54⟩ "a\n", .string ⟨55, 58⟩ "b"] false,
      .parenthesized ⟨60, 74⟩
        (.array ⟨61, 73⟩ [.string ⟨62, 68⟩ "a\\n", .string ⟨69, 72⟩ "b"] false)]
  let inner : Node := .shortcut ⟨17, 76⟩ .or (.identifier ⟨17, 18⟩)
    (.parenthesized ⟨20, 76⟩ (.assignment ⟨21, 75⟩ true (.identifier ⟨21, 22⟩) strings))
  [.parenthesized ⟨10, 78⟩ (.shortcut ⟨11, 77⟩ .or (.identifier ⟨11, 12⟩)
    (.parenthesized ⟨14, 77⟩ (.assignment ⟨15, 76⟩ true (.identifier ⟨15, 16⟩) inner))),
    .identifier ⟨79, 80⟩]

/-- A template with an escape in its first part, and a call that keeps its strings in a variable. -/
theorem lowered_alike_kept :
    let parts := [("a\n", "a\\n"), ("b", "b")]
    let t : Template := ⟨["a\n", "b"], ["a\\n", "b"], ["x"]⟩
    Source.name? escapedTemplate ⟨0, 9⟩ = some tagName ∧
      Source.name? keptCall ⟨0, 9⟩ = some tagName ∧ Lowered keptCall t keptArguments ∧
      ofTagged? escapedTemplate false
        (.tagged ⟨0, 19⟩ (.identifier ⟨0, 9⟩) (quasisOf parts) [.identifier ⟨15, 16⟩]) =
          some (.ok t) ∧
      ofCall? keptCall false (.call ⟨0, 81⟩ (.identifier ⟨0, 9⟩) keptArguments) =
        some (.ok t) := by
  intro parts t
  have htag : Source.name? escapedTemplate ⟨0, 9⟩ = some tagName := by decide
  have htag' : Source.name? keptCall ⟨0, 9⟩ = some tagName := by decide
  have texts : sourceTexts escapedTemplate [.identifier ⟨15, 16⟩] = ["x"] := by decide
  have lowered : Lowered keptCall t keptArguments := ofArguments_iff.1 rfl
  obtain ⟨template, call, -⟩ := lowered_alike htag htag' parts [.identifier ⟨15, 16⟩]
    keptArguments ⟨0, 19⟩ ⟨0, 81⟩
  rw [texts] at template call
  exact ⟨htag, htag', lowered, template, call.2 lowered⟩

end MessageCatalog.CallSite
