import MessageCatalog.Proofs.Markup.Attributes
import MessageCatalog.Proofs.Markup.Documents
import MessageCatalog.Proofs.OrderedMap

/-!
# Writing markup

What a writer adds to its output is the printed form of elements. At the start of a line it writes
whole elements with their lines (`Writes`), inside a region that preserves white space it writes a
run of characters (`Puts`). Both compose, so each writing function of a format denotes elements and
no proof about a format looks at the output. `Reads` is the other half: what a reader that goes
through elements on lines makes of them, wherever in a file they stand.
-/

namespace MessageCatalog.Markup

/-! ## Tags -/

namespace Writer

/-- An attribute is written with a blank in front of it, if it is written. -/
lemma toList_attributeText (a : String × Option String) :
    (attributeText a).toList = (presentAttribute a).flatMap (' ' :: printAttribute ·) := by
  obtain ⟨name, value⟩ := a
  cases value with
  | none => rfl
  | some value =>
    rw [attributeText, presentAttribute]
    split
    · rfl
    · simp [printAttribute, escape]

/-- Attributes are written one after the other, without those that are not written. -/
lemma toList_attributeTexts (attributes : List (String × Option String)) :
    (String.join (attributes.map attributeText)).toList =
      (presentAttributes attributes).flatMap (' ' :: printAttribute ·) := by
  rw [String.toList_join, List.flatMap_map, presentAttributes, List.flatMap_assoc]
  congr 1
  funext a
  exact toList_attributeText a

/-- The text of a start tag is its printed form. -/
lemma startTagText_eq {attributes : List (String × Option String)}
    (h : (attributes.map Prod.fst).Nodup) (name : String) (style : TagStyle) :
    startTagText name attributes style =
      String.ofList ((WrittenTag.of name attributes).opening ++
        if style.selfClosing then ['/', '>'] else ['>']) := by
  apply String.toList_inj.1
  rw [startTagText, OrderedMap.ofList_of_nodup h, String.toList_ofList]
  simp only [String.toList_append, toList_attributeTexts]
  cases style.selfClosing <;> rfl

/-! ## Characters -/

/-- Markup is written behind markup. -/
lemma raw_raw (w : Writer) (first second : String) :
    (w.raw first).raw second = w.raw (first ++ second) := by
  rw [raw, raw, raw, String.append_assoc]

/-- A writing function that, where white space is preserved, writes these characters. -/
def Puts (f : Writer → Writer) (text : List Char) : Prop :=
  ∀ w, w.preserving = true → f w = w.raw (String.ofList text)

/-- What is put first stands in front of what is put later. -/
lemma Puts.comp {f g : Writer → Writer} {first second : List Char} (hf : Puts f first)
    (hg : Puts g second) : Puts (fun w => g (f w)) (first ++ second) := by
  intro w hw
  have hfirst := hf w hw
  have hsecond := hg (w.raw (String.ofList first)) hw
  rw [String.ofList_append, ← raw_raw, ← hsecond, ← hfirst]

/-- Text is put as escaped characters. -/
lemma puts_text (content : String) : Puts (·.text content) (escapeChars content.toList) :=
  fun _ _ => rfl

/-- Where white space is preserved, an element without content is just its tag. -/
lemma puts_leaf {attributes : List (String × Option String)} (h : (attributes.map Prod.fst).Nodup)
    (name : String) :
    Puts (·.startTag name attributes { selfClosing := true })
      ((WrittenTag.of name attributes).opening ++ ['/', '>']) := by
  intro w hw
  have text := startTagText_eq h name { selfClosing := true }
  cases w with
  | mk output indent stack preserving =>
    cases hw
    simp [startTag, settle, lead, raw, text]

/-! ## Lines -/

end Writer

/-- Content with each element on a line of its own, behind the indent `inner`; `outer` is the indent
of the end tag around it. -/
def Mixed.lines (inner outer : String) : List WrittenElement → Mixed
  | [] => .text ("\n" ++ outer)
  | e :: rest => .branch ("\n" ++ inner) e.tag e.inside (lines inner outer rest)

/-- An element around elements on lines of their own, which depend on their indent. -/
def WrittenElement.block (tag : WrittenTag) (es : String → List WrittenElement) (indent : String) :
    WrittenElement :=
  ⟨tag, .lines (indent ++ Writer.indentStep) indent (es (indent ++ Writer.indentStep))⟩

/-- The line of an element. -/
def WrittenElement.line (indent : String) (e : WrittenElement) : List Char :=
  indent.toList ++ (e.print ++ ['\n'])

/-- Whether a text consists of blanks. -/
def IsIndent (indent : String) : Prop := ∀ c ∈ indent.toList, c = ' '

/-- An indent with a step more is an indent. -/
lemma isIndent_step {indent : String} (h : IsIndent indent) :
    IsIndent (indent ++ Writer.indentStep) := by
  intro c m
  rw [String.toList_append, List.mem_append] at m
  cases m with
  | inl m => exact h c m
  | inr m =>
    rw [show Writer.indentStep.toList = List.replicate 2 ' ' from rfl] at m
    exact List.eq_of_mem_replicate m

/-- There is nothing to escape in the end of a line and an indent. -/
lemma escapeChars_of_isIndent {indent : String} (h : IsIndent indent) :
    escapeChars ("\n" ++ indent).toList = '\n' :: indent.toList := by
  have blanks : ∀ text : List Char, (∀ c ∈ text, c = ' ') → escapeChars text = text := by
    intro text ht
    induction text with
    | nil => rfl
    | cons c text ih =>
      rw [escapeChars_cons, ht c List.mem_cons_self,
        ih fun d m => ht d (List.mem_cons_of_mem c m)]
      rfl
  rw [String.toList_append, show "\n".toList = ['\n'] from rfl, List.singleton_append,
    escapeChars_cons, blanks _ h]
  rfl

/-- Content on lines is printed as these lines. -/
lemma Mixed.print_lines {inner outer : String} (hi : IsIndent inner) (ho : IsIndent outer)
    (es : List WrittenElement) :
    (Mixed.lines inner outer es).print =
      '\n' :: (es.flatMap (WrittenElement.line inner) ++ outer.toList) := by
  induction es with
  | nil => exact escapeChars_of_isIndent ho
  | cons e rest ih =>
    rw [Mixed.lines, Mixed.print, ih, escapeChars_of_isIndent hi]
    simp only [List.flatMap_cons, WrittenElement.line, WrittenElement.print, List.append_assoc,
      List.cons_append, List.nil_append]

namespace Writer

/-- A writer that is about to write a line. -/
structure AtLine (w : Writer) : Prop where
  laidOut : w.preserving = false
  indent : IsIndent w.indent

/-- A writing function that, at the start of a line, writes these elements on lines. -/
def Writes (f : Writer → Writer) (es : String → List WrittenElement) : Prop :=
  ∀ w, w.AtLine →
    f w = w.raw (String.ofList ((es w.indent).flatMap (WrittenElement.line w.indent)))

/-- Writing nothing changes nothing. -/
lemma raw_empty (w : Writer) : w.raw (String.ofList []) = w := by
  rw [raw, String.ofList_nil, String.append_empty]

/-- A function that changes nothing writes no elements. -/
lemma writes_nothing : Writes (fun w => w) fun _ => [] :=
  fun w _ => w.raw_empty.symm

/-- Elements that are written first stand on lines in front of those that are written later. -/
lemma Writes.comp {f g : Writer → Writer} {es fs : String → List WrittenElement} (hf : Writes f es)
    (hg : Writes g fs) : Writes (fun w => g (f w)) fun indent => es indent ++ fs indent := by
  intro w hw
  have hfirst := hf w hw
  have hsecond := hg (w.raw (String.ofList ((es w.indent).flatMap (WrittenElement.line w.indent))))
    ⟨hw.laidOut, hw.indent⟩
  rw [List.flatMap_append, String.ofList_append, ← raw_raw]
  exact (congrArg g hfirst).trans hsecond

/-- Things that are written as an element each, one after the other. -/
lemma writes_foldl {α : Type} {f : Writer → α → Writer} {element : String → α → WrittenElement}
    {as : List α} (h : ∀ a ∈ as, Writes (f · a) fun indent => [element indent a]) :
    Writes (fun w => as.foldl f w) fun indent => as.map (element indent) := by
  induction as with
  | nil => exact writes_nothing
  | cons a rest ih =>
    exact (h a List.mem_cons_self).comp (ih fun b m => h b (List.mem_cons_of_mem a m))

/-- The indent behind an element is the one before it. -/
lemma lessIndent_append (indent : String) : lessIndent (indent ++ indentStep) = indent := by
  have length :
      (indent ++ indentStep).toList.length - indentStep.length = indent.toList.length := by
    rw [String.toList_append, List.length_append, String.length_toList]
    exact Nat.add_sub_cancel _ _
  rw [lessIndent, length, String.toList_append, List.take_left, String.ofList_toList]

/-- A start tag takes a line, and the lines behind it are indented further. -/
lemma startTag_of_atLine {w : Writer} (hw : w.AtLine) {attributes : List (String × Option String)}
    (h : (attributes.map Prod.fst).Nodup) (name : String) :
    w.startTag name attributes =
      { w.raw (w.indent ++
          String.ofList ((WrittenTag.of name attributes).opening ++ ['>', '\n'])) with
        indent := w.indent ++ indentStep
        stack := name :: w.stack } := by
  have text := startTagText_eq h name {}
  obtain ⟨output, indent, stack, preserving⟩ := w
  obtain ⟨rfl, -⟩ := hw
  simp [startTag, settle, lead, raw, text, String.append_assoc]

/-- An end tag takes a line, and the lines behind it are indented as before its start tag. -/
lemma endTag_of_inside {w : Writer} (hw : w.AtLine) (inside : Writer) (tag : WrittenTag)
    (hindent : inside.indent = w.indent ++ indentStep) (hstack : inside.stack = tag.name :: w.stack)
    (hpreserving : inside.preserving = false) :
    inside.endTag tag.name =
      { w with
        output := inside.output ++ (w.indent ++ String.ofList (tag.closing ++ ['\n'])) } := by
  obtain ⟨output, indent, stack, preserving⟩ := w
  obtain ⟨rfl, -⟩ := hw
  simp only [endTag, settle, lead, hindent, hstack, hpreserving, lessIndent_append,
    Option.getD_none, Bool.false_eq_true, if_false, List.drop_one, List.tail_cons]
  congr 1
  apply String.toList_inj.1
  simp [WrittenTag.closing]

/-- An element around what is written on lines. -/
lemma Writes.block {f : Writer → Writer} {es : String → List WrittenElement} (hf : Writes f es)
    {attributes : List (String × Option String)} (h : (attributes.map Prod.fst).Nodup)
    (name : String) :
    Writes (fun w => (f (w.startTag name attributes)).endTag name)
      fun indent => [.block (.of name attributes) es indent] := by
  intro w hw
  have start := startTag_of_atLine hw h name
  have inside := hf (w.startTag name attributes)
    (start ▸ ⟨hw.laidOut, isIndent_step hw.indent⟩)
  -- Writing what is inside changes nothing of the writer but its output.
  have stop := endTag_of_inside hw (f (w.startTag name attributes)) (.of name attributes)
    (by rw [inside, start]; rfl) (by rw [inside, start]; rfl)
    (by rw [inside, start]; exact hw.laidOut)
  have print := Mixed.print_lines (isIndent_step hw.indent) hw.indent (es (w.indent ++ indentStep))
  refine stop.trans ?_
  rw [inside, start, raw, raw]
  congr 1
  apply String.toList_inj.1
  simp [WrittenElement.line, WrittenElement.print, WrittenElement.block, print]

/-- An element around characters. -/
lemma Writes.preserved {f : Writer → Writer} {m : Mixed} (hf : Puts f m.print)
    {attributes : List (String × Option String)} (h : (attributes.map Prod.fst).Nodup)
    (name : String) :
    Writes (fun w => (f (w.startTag name attributes { preserve := some true })).endTag name
        { preserve := some false })
      fun _ => [⟨.of name attributes, m⟩] := by
  intro w hw
  let opened : Writer := { w with
    output := w.output ++
      (w.indent ++ String.ofList ((WrittenTag.of name attributes).opening ++ ['>']))
    indent := w.indent ++ indentStep
    stack := name :: w.stack
    preserving := true }
  have start : w.startTag name attributes { preserve := some true } = opened := by
    have text := startTagText_eq h name { preserve := some true }
    simp [startTag, settle, lead, hw.laidOut, text, opened, String.append_assoc]
  have inside := hf opened rfl
  dsimp only
  rw [start, inside]
  obtain ⟨output, indent, stack, preserving⟩ := w
  obtain ⟨rfl, -⟩ := hw
  simp only [endTag, settle, lead, raw, opened, lessIndent_append, Option.getD_some,
    Bool.false_eq_true, if_false, if_true, List.drop_one, List.tail_cons]
  congr 1
  apply String.toList_inj.1
  simp [WrittenElement.line, WrittenElement.print, WrittenTag.closing, WrittenTag.of]

/-- The output of a writer that writes one element. -/
lemma Writes.output {f : Writer → Writer} {e : String → WrittenElement}
    (hf : Writes f fun indent => [e indent]) (front : String) :
    (f { output := front }).output = front ++ String.ofList ((e "").print ++ ['\n']) := by
  have atLine : AtLine { output := front } := ⟨rfl, fun c m => absurd m List.not_mem_nil⟩
  rw [hf _ atLine, raw, List.flatMap_singleton]
  rfl

end Writer

/-! ## Reading lines -/

/-- The elements on lines at the places where they are read, `lead` being the length of the white
space before each. -/
def placed (lead start : Nat) : List WrittenElement → List Element
  | [] => []
  | e :: rest => e.toElement (start + lead) :: placed lead (e.stop (start + lead)) rest

/-- Each element on lines is one that was written, at some place. -/
lemma mem_placed {lead start : Nat} {es : List WrittenElement} {e : Element}
    (h : e ∈ placed lead start es) : ∃ written ∈ es, ∃ place, e = written.toElement place := by
  induction es generalizing start with
  | nil => cases h
  | cons first rest ih =>
    cases h with
    | head => exact ⟨first, List.mem_cons_self, _, rfl⟩
    | tail _ m =>
      obtain ⟨written, hw, place, e⟩ := ih m
      exact ⟨written, List.mem_cons_of_mem first hw, place, e⟩

/-- Behind lines the elements are read that stand on them. -/
lemma Mixed.elements_lines (inner outer : String) (start : Nat) (es : List WrittenElement) :
    ((Mixed.lines inner outer es).nodes start).filterMap Node.element? =
      placed (Text.byteLength (escapeChars ("\n" ++ inner).toList)) start es := by
  have texts : ∀ indent : String, textNodes ("\n" ++ indent) = [.text ("\n" ++ indent)] := by
    intro indent
    have notEmpty : ("\n" ++ indent).isEmpty = false := by simp
    rw [textNodes, notEmpty, if_neg Bool.false_ne_true]
  induction es generalizing start with
  | nil =>
    rw [Mixed.lines, Mixed.nodes, texts]
    rfl
  | cons e rest ih =>
    rw [Mixed.lines, Mixed.nodes, texts]
    exact congrArg (_ :: ·) (ih _)

/-- Inside an element that was written around lines there are the elements on the lines. -/
lemma childElements_block (tag : WrittenTag) (es : String → List WrittenElement) (indent : String)
    (start : Nat) :
    ∃ lead first, ((WrittenElement.block tag es indent).toElement start).childElements =
      placed lead first (es (indent ++ Writer.indentStep)) := by
  rw [Element.childElements, WrittenElement.toElement, WrittenElement.block, Mixed.elements_lines]
  exact ⟨_, _, rfl⟩

/-- Going through these elements with `step` leads from `s` to `t`, wherever they stand. -/
def Reads {σ ε : Type} (step : σ → Element → Except ε σ) (es : List WrittenElement) (s t : σ) :
    Prop :=
  ∀ lead start, (placed lead start es).foldlM step s = .ok t

namespace Reads

variable {σ ε : Type} {step : σ → Element → Except ε σ} {s t u : σ}

/-- Going through no elements leads nowhere. -/
lemma nil : Reads step [] s s := fun _ _ => rfl

/-- Going through elements is going through the first one and then the others. -/
lemma cons {e : WrittenElement} {es : List WrittenElement}
    (he : ∀ start, step s (e.toElement start) = .ok t) (hes : Reads step es t u) :
    Reads step (e :: es) s u := by
  intro lead start
  rw [placed, List.foldlM_cons, he]
  exact hes _ _

/-- Going through one element is one step. -/
lemma single {e : WrittenElement} (he : ∀ start, step s (e.toElement start) = .ok t) :
    Reads step [e] s t := cons he nil

/-- Going through two rows of elements is going through one after the other. -/
lemma append {es fs : List WrittenElement} (hes : Reads step es s t) (hfs : Reads step fs t u) :
    Reads step (es ++ fs) s u := by
  -- The second elements stand behind the first ones, at places that do not matter.
  have place : ∀ (es : List WrittenElement) (lead start : Nat),
      ∃ last, placed lead start (es ++ fs) = placed lead start es ++ placed lead last fs := by
    intro es
    induction es with
    | nil => exact fun lead start => ⟨start, rfl⟩
    | cons e rest ih =>
      intro lead start
      obtain ⟨last, h⟩ := ih lead (e.stop (start + lead))
      exact ⟨last, congrArg (_ :: ·) h⟩
  intro lead start
  obtain ⟨last, h⟩ := place es lead start
  rw [h, List.foldlM_append, hes]
  exact hfs _ _

/-- The elements inside an element that was written around lines are gone through in order. -/
lemma inside_block {tag : WrittenTag} {es : String → List WrittenElement} {indent : String}
    (h : Reads step (es (indent ++ Writer.indentStep)) s t) (start : Nat) :
    ((WrittenElement.block tag es indent).toElement start).childElements.foldlM step s = .ok t := by
  obtain ⟨lead, first, inside⟩ := childElements_block tag es indent start
  rw [inside]
  exact h lead first

end Reads

/-- Going through these elements with `step` from `s` on ends with an error, wherever they stand. -/
def Stops {σ ε : Type} (step : σ → Element → Except ε σ) (es : List WrittenElement) (s : σ) :
    Prop :=
  ∀ lead start, ∃ e, (placed lead start es).foldlM step s = .error e

namespace Stops

variable {σ ε : Type} {step : σ → Element → Except ε σ} {s : σ}

/-- An error at the first element is the error. -/
lemma first {e : WrittenElement} (he : ∀ start, ∃ error, step s (e.toElement start) = .error error)
    (es : List WrittenElement) : Stops step (e :: es) s := by
  intro lead start
  obtain ⟨error, stops⟩ := he (start + lead)
  rw [placed, List.foldlM_cons, stops]
  exact ⟨error, rfl⟩

/-- An error inside an element on lines is an error among its child elements. -/
lemma inside_block {tag : WrittenTag} {es : String → List WrittenElement} {indent : String}
    (h : Stops step (es (indent ++ Writer.indentStep)) s) (start : Nat) :
    ∃ e, ((WrittenElement.block tag es indent).toElement start).childElements.foldlM step s =
      .error e := by
  obtain ⟨lead, first, inside⟩ := childElements_block tag es indent start
  rw [inside]
  exact h lead first

end Stops

/-- The end of a line and an indent are plain text. -/
lemma isPlainText_of_isIndent {indent : String} (h : IsIndent indent) :
    isPlainText ("\n" ++ indent) = true := by
  rw [isPlainText, List.all_eq_true, String.toList_append]
  intro c m
  cases List.mem_append.1 m with
  | inl m =>
    rw [List.mem_singleton.1 m]
    rfl
  | inr m =>
    rw [h c m]
    rfl

/-- Sound elements on lines are sound content. -/
lemma Mixed.sound_lines {inner outer : String} (hi : IsIndent inner) (ho : IsIndent outer)
    {es : List WrittenElement} (h : ∀ e ∈ es, e.Sound) : (Mixed.lines inner outer es).Sound := by
  induction es with
  | nil => exact isPlainText_of_isIndent ho
  | cons e rest ih =>
    obtain ⟨htag, hinside⟩ := h e List.mem_cons_self
    exact ⟨isPlainText_of_isIndent hi, htag, hinside, ih fun d m => h d (List.mem_cons_of_mem e m)⟩

/-- An element on lines is sound when its tag and the elements in it are. -/
lemma WrittenElement.sound_block {tag : WrittenTag} (ht : tag.Sound)
    {es : String → List WrittenElement} {indent : String} (hi : IsIndent indent)
    (h : ∀ inner, IsIndent inner → ∀ e ∈ es inner, e.Sound) :
    (WrittenElement.block tag es indent).Sound :=
  ⟨ht, Mixed.sound_lines (isIndent_step hi) hi (h _ (isIndent_step hi))⟩

end MessageCatalog.Markup
