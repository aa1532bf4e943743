import MessageCatalog.Proofs.Markup.Escaping

/-!
# Reading printed tags

A printed start tag opens the element that it stands for or, when it closes itself, attaches that
element; a printed end tag closes the innermost element. The builder afterwards is given by three
operations (`openElement`, `addLeaf`, `closeElement`), which cannot fail.
-/

namespace MessageCatalog.Markup

open Text (Leaves)

/-! ## What a tag does to the builder -/

namespace WrittenTag

/-- The namespaces that a start tag declares. -/
def declarations (t : WrittenTag) : List Declaration :=
  (t.attributes.filter isDeclaration).map readDeclaration

end WrittenTag

/-- The attribute that a written one without a prefix is. -/
def WrittenAttribute.resolved (a : WrittenAttribute) : Attribute :=
  { name := a.name, value := a.value }

namespace Builder

/-- The builder behind a start tag from `start` to `stop`. -/
def openElement (b : Builder) (t : WrittenTag) (start stop : Nat) : Builder :=
  { b with
    opened := ⟨t.toTag start stop, "", Namespace.extend b.outerScope t.declarations, []⟩ :: b.opened
    tagName := some ⟨"", t.name, start⟩
    afterText := false
    attributes := []
    declared := [] }

/-- The builder behind a start tag from `start` to `stop` that closes itself. -/
def addLeaf (b : Builder) (t : WrittenTag) (start stop : Nat) : Builder :=
  { b.addNode (.element (t.toTag start stop) []) with
    tagName := some ⟨"", t.name, start⟩
    attributes := []
    declared := [] }

/-- The builder behind an end tag of the innermost element `e`, the others being `outer`. -/
def closeElement (b : Builder) (e : OpenElement) (outer : List OpenElement) (stop : Nat) :
    Builder :=
  { { b with opened := outer }.addNode (.element { e.tag with stop } e.nodes.reverse) with
    attributes := []
    declared := [] }

/-- The builder behind an attribute at `start`. -/
def takeAttribute (b : Builder) (a : String × String) (start : Nat) : Builder :=
  if isDeclaration a then { b with declared := b.declared ++ [readDeclaration a] }
  else { b with attributes := b.attributes ++ [⟨"", a.1, (readAttribute a).value, start⟩] }

/-- The builder behind attributes, the first of them behind a blank at `start`. -/
def takeAttributes (b : Builder) (start : Nat) : List (String × String) → Builder
  | [] => b
  | a :: rest =>
    (b.takeAttribute a (start + 1)).takeAttributes
      (start + Text.byteLength (' ' :: printAttribute a)) rest

/-- An attribute is taken unless it declares one of the two reserved namespaces. -/
lemma addAttribute_eq_takeAttribute {b : Builder} {a : String × String} {start : Nat}
    (h : isDeclaration a = true →
      (readAttribute a).value ≠ Namespace.xml ∧ (readAttribute a).value ≠ Namespace.xmlns) :
    b.addAttribute ⟨"", a.1, (readAttribute a).value, start⟩ = .ok (b.takeAttribute a start) := by
  have noPrefix : ¬ ("" : String) = "xmlns" := by decide
  by_cases hd : isDeclaration a = true
  · obtain ⟨hxml, hxmlns⟩ := h hd
    have hn : a.1 = "xmlns" := of_decide_eq_true hd
    simp only [addAttribute, takeAttribute, hd, hn, if_neg noPrefix, if_true]
    rw [declareDefault, if_neg hxml, if_neg hxmlns]
    rfl
  · have hn : ¬ a.1 = "xmlns" := fun e => hd (decide_eq_true e)
    simp only [addAttribute, takeAttribute, hd, hn, if_neg noPrefix, if_false]
    rfl

/-- Attributes of different names without prefixes are resolved to themselves. -/
lemma resolveAttributes_of_nodup (scope : List Declaration) (done : List Attribute)
    (written : List WrittenAttribute) (hspace : ∀ a ∈ written, a.space = "")
    (hnames : (done.map Attribute.name ++ written.map WrittenAttribute.name).Nodup) :
    resolveAttributes scope done written =
      .ok (done ++ written.map WrittenAttribute.resolved) := by
  -- No name of an attribute that is left may be one of those that are resolved already.
  induction written generalizing done with
  | nil => simp [resolveAttributes]
  | cons a written ih =>
    have ha := hspace a List.mem_cons_self
    have hspace' : ∀ d ∈ written, d.space = "" := fun d m => hspace d (List.mem_cons_of_mem a m)
    have hnew : a.name ∉ done.map Attribute.name := by
      intro m
      exact (List.nodup_append.1 hnames).2.2 _ m _ List.mem_cons_self rfl
    have hdone : (done.any fun d => d.space = none ∧ d.name = a.name) = false := by
      rw [List.any_eq_false]
      intro d m
      have hd : d.name ≠ a.name := fun e => hnew (e ▸ List.mem_map_of_mem m)
      simp [hd]
    have hnames' : ((done ++ [a.resolved]).map Attribute.name ++
        written.map WrittenAttribute.name).Nodup := by
      simpa [WrittenAttribute.resolved] using hnames
    have next := ih (done ++ [a.resolved]) hspace' hnames'
    rw [List.append_assoc] at next
    simp only [resolveAttributes, ha, if_neg (by decide : ¬ ("" : String) = "xml")]
    rw [List.map_cons, ← List.singleton_append, ← next]
    change (if (done.any fun d => d.space = none ∧ d.name = a.name) = true then _ else _) = _
    rw [hdone, if_neg Bool.false_ne_true]
    rfl

/-- What the attributes of a tag add to the builder. -/
lemma takeAttributes_eq (b : Builder) (start : Nat) (attributes : List (String × String)) :
    ∃ written : List WrittenAttribute,
      b.takeAttributes start attributes = { b with
        attributes := b.attributes ++ written
        declared := b.declared ++ (attributes.filter isDeclaration).map readDeclaration } ∧
      written.map WrittenAttribute.resolved =
        (attributes.filter (!isDeclaration ·)).map readAttribute ∧
      ∀ a ∈ written, a.space = "" := by
  -- A declaration goes to one list and any other attribute to another, so both lists grow.
  induction attributes generalizing b start with
  | nil => exact ⟨[], by simp [takeAttributes], rfl, nofun⟩
  | cons a rest ih =>
    obtain ⟨written, hb, hw, hs⟩ := ih (b.takeAttribute a (start + 1))
      (start + Text.byteLength (' ' :: printAttribute a))
    by_cases hd : isDeclaration a = true
    · refine ⟨written, ?_, by simpa [hd] using hw, hs⟩
      rw [takeAttributes, hb]
      simp [takeAttribute, hd]
    · refine ⟨⟨"", a.1, (readAttribute a).value, start + 1⟩ :: written, ?_, ?_, ?_⟩
      · rw [takeAttributes, hb]
        simp [takeAttribute, hd]
      · simp [hd, hw, WrittenAttribute.resolved, readAttribute]
      · simpa using hs

/-- No prefix needs no declaration. -/
lemma resolve_noPrefix (scope : List Declaration) (o : Nat) :
    ∃ space, Namespace.resolve scope "" o = .ok space := by
  unfold Namespace.resolve
  split
  · exact ⟨_, rfl⟩
  · exact ⟨none, rfl⟩

/-- The builder behind the name in a start tag. -/
def beginElement (b : Builder) (t : WrittenTag) (start : Nat) : Builder :=
  { b with tagName := some ⟨"", t.name, start⟩, afterText := false }

/-- What the builder knows of a sound tag when the tag ends: its attributes are resolved, and its
name needs no declaration. -/
lemma resolve_of_sound {b : Builder} (ha : b.attributes = []) (hd : b.declared = [])
    {t : WrittenTag} (ht : t.Sound) (start o : Nat) :
    ∃ written,
      (b.beginElement t start).takeAttributes o t.attributes =
        { b.beginElement t start with attributes := written, declared := t.declarations } ∧
      ∀ scope, resolveAttributes scope [] written = .ok t.readAttributes := by
  obtain ⟨written, hb, hw, hs⟩ := takeAttributes_eq (b.beginElement t start) o t.attributes
  refine ⟨written, ?_, ?_⟩
  · rw [hb]
    simp [beginElement, ha, hd, WrittenTag.declarations]
  · intro scope
    have names : written.map WrittenAttribute.name =
        (t.attributes.filter (!isDeclaration ·)).map Prod.fst := by
      have e := congrArg (List.map Attribute.name) hw
      simpa [Function.comp_def, WrittenAttribute.resolved, readAttribute] using e
    have distinct : (written.map WrittenAttribute.name).Nodup := by
      rw [names]
      exact ht.distinct.sublist (List.filter_sublist.map Prod.fst)
    rw [resolveAttributes_of_nodup scope [] written hs (by simpa using distinct), hw]
    rfl

/-- A sound start tag opens its element. -/
lemma endOpenTag_of_sound {b : Builder} (ha : b.attributes = []) (hd : b.declared = [])
    {t : WrittenTag} (ht : t.Sound) (start o stop : Nat) :
    ((b.beginElement t start).takeAttributes o t.attributes).endOpenTag ⟨"", t.name, start⟩ stop =
      .ok (b.openElement t start stop) := by
  obtain ⟨written, hb, hr⟩ := resolve_of_sound ha hd ht start o
  obtain ⟨space, hspace⟩ := resolve_noPrefix
    (Namespace.extend b.outerScope t.declarations) (start + 1)
  have scope : Namespace.extend
      (outerScope { b.beginElement t start with attributes := written, declared := t.declarations })
      t.declarations = Namespace.extend b.outerScope t.declarations := rfl
  rw [hb, endOpenTag]
  simp only [scope, hr, hspace]
  rfl

/-- A sound start tag that closes itself attaches its element. -/
lemma endEmptyTag_of_sound {b : Builder} (ha : b.attributes = []) (hd : b.declared = [])
    {t : WrittenTag} (ht : t.Sound) (start o stop : Nat) :
    ((b.beginElement t start).takeAttributes o t.attributes).endEmptyTag ⟨"", t.name, start⟩ stop =
      .ok (b.addLeaf t start stop) := by
  obtain ⟨written, hb, hr⟩ := resolve_of_sound ha hd ht start o
  obtain ⟨space, hspace⟩ := resolve_noPrefix
    (Namespace.extend b.outerScope t.declarations) (start + 1)
  have scope : Namespace.extend
      (outerScope { b.beginElement t start with attributes := written, declared := t.declarations })
      t.declarations = Namespace.extend b.outerScope t.declarations := rfl
  rw [hb, endEmptyTag]
  simp only [scope, hr, hspace]
  cases b with
  | mk opened => cases opened <;> rfl

/-- An end tag of the innermost element closes it. -/
lemma closeTag_of_opened {b : Builder} (ha : b.attributes = []) (ht : b.tagName.isSome = true)
    {e : OpenElement} {outer : List OpenElement} (ho : b.opened = e :: outer)
    (hs : e.space = "") (start stop : Nat) :
    b.closeTag "" e.tag.name start stop = .ok (b.closeElement e outer stop) := by
  have notNone : b.tagName.isNone = false := by
    cases h : b.tagName with
    | none => rw [h] at ht; cases ht
    | some tag => rfl
  rw [closeTag]
  simp only [notNone, Bool.false_eq_true, if_false, ha, ho, hs, ne_eq, not_true_eq_false, or_self]
  cases outer <;> rfl

end Builder

/-! ## Attributes -/

namespace Read

variable {b : Builder} {o : Nat} {l : List Char}

/-- A printed attribute takes the bytes of its name and its escaped value, and three more. -/
lemma byteLength_printAttribute (a : String × String) :
    o + Text.byteLength (printAttribute a) =
      o + Text.byteLength a.1.toList + 2 + Text.byteLength (escapeChars a.2.toList) + 1 := by
  simp only [printAttribute, Text.byteLength_append, Text.byteLength_cons, Text.byteLength_nil]
  have equals : '='.utf8Size = 1 := rfl
  have quote : '"'.utf8Size = 1 := rfl
  omega

/-- A printed attribute is taken as its name and the place of its value. -/
lemma run_attributeParts {a : String × String} (hname : isPlainName a.1 = true)
    (hvalue : isXmlText a.2 = true) :
    attributeParts.run ⟨⟨printAttribute a ++ l, o⟩, b⟩ =
      .ok (("", a.1, ⟨escapeChars a.2.toList, o + Text.byteLength a.1.toList + 2⟩),
        ⟨⟨l, o + Text.byteLength (printAttribute a)⟩, b⟩) := by
  have print : printAttribute a ++ l =
      a.1.toList ++ '=' :: '"' :: (escapeChars a.2.toList ++ '"' :: l) := by
    simp only [printAttribute, List.append_assoc, List.cons_append, List.nil_append]
  have chars : ∀ c ∈ escapeChars a.2.toList, isXmlChar c = true ∧
      (c = '"' || c = '<' : Bool) = false := by
    intro c m
    obtain ⟨hx, hl, -, hq⟩ := mem_escapeChars (by simpa [isXmlText] using hvalue) m
    exact ⟨hx, by simp [hl, hq]⟩
  have run := fun o => run_takeUntil (b := b) (o := o) (l := '"' :: l)
    (fun left => left.head? = some '"' || left.head? = some '<') (fun c left => by simp)
    chars (by rintro c ⟨⟩; decide)
  rw [print, byteLength_printAttribute, attributeParts,
    run_bind_of_ok (run_qualifiedName hname (.cons rfl))]
  simp only
  rw [run_bind_of_ok (run_skipSpaces_nil (.cons rfl)), run_bind_of_ok (run_expectChar '='),
    run_bind_of_ok (run_skipSpaces_nil (.cons rfl)), run_bind_of_ok run_expectQuote,
    run_bind_of_ok run_offset]
  rw [run_bind_of_ok (run _), run_bind_of_ok (run_expectChar '"')]
  rfl

/-- An escaped value is read as the value that it stands for. -/
lemma run_value {n : Nat} (hb : b.entityDepth = 0) (text : List Char) :
    (value (n + 1) []).run ⟨⟨escapeChars text, o⟩, b⟩ =
      .ok ((normalizedValue text).reverse,
        ⟨⟨[], o + Text.byteLength (escapeChars text)⟩, b⟩) := by
  have hfuel : text.length ≤ (escapeChars text).length + 1 :=
    Nat.le_succ_of_le (length_le_length_escapeChars text)
  rw [value, run_bind_of_ok run_rest, run_valueLoop hb text [] _ hfuel, List.append_nil]

/-- A printed attribute is taken in by the builder. -/
lemma run_tagAttribute (hb : b.entityDepth = 0) {a : String × String}
    (hname : isPlainName a.1 = true) (hvalue : isXmlText a.2 = true)
    (hres : isDeclaration a = true →
      (readAttribute a).value ≠ Namespace.xml ∧ (readAttribute a).value ≠ Namespace.xmlns) :
    tagAttribute.run ⟨⟨printAttribute a ++ l, o⟩, b⟩ =
      .ok ((), ⟨⟨l, o + Text.byteLength (printAttribute a)⟩, b.takeAttribute a o⟩) := by
  rw [tagAttribute, run_bind_of_ok run_offset, run_bind_of_ok (run_attributeParts hname hvalue)]
  simp only
  rw [run_bind_of_ok run_get, run_bind_of_ok (run_modify _), run_bind_of_ok (run_value hb _),
    run_bind_of_ok (run_modify _), List.reverse_reverse]
  exact run_build (Builder.addAttribute_eq_takeAttribute hres)

/-! ## Start tags -/

/-- A printed attribute in a tag is taken in, and the tag goes on behind it. -/
lemma run_tagRest_attribute (hb : b.entityDepth = 0) {a : String × String}
    (hname : isPlainName a.1 = true) (hvalue : isXmlText a.2 = true)
    (hres : isDeclaration a = true →
      (readAttribute a).value ≠ Namespace.xml ∧ (readAttribute a).value ≠ Namespace.xmlns)
    (tag : TagName) (fuel : Nat) :
    (tagRest tag (fuel + 1)).run ⟨⟨' ' :: (printAttribute a ++ l), o⟩, b⟩ =
      (tagRest tag fuel).run
        ⟨⟨l, o + Text.byteLength (' ' :: printAttribute a)⟩, b.takeAttribute a (o + 1)⟩ := by
  obtain ⟨c, text, e, hc⟩ := head_of_isPlainName hname
  obtain ⟨hspace, hslash, hclose, -⟩ := ne_of_isNameStart hc
  have front : printAttribute a ++ l =
      c :: (text ++ '=' :: '"' :: (escapeChars a.2.toList ++ ['"']) ++ l) := by
    rw [printAttribute, e]
    rfl
  have skip : skipSpaces.run ⟨⟨' ' :: (printAttribute a ++ l), o⟩, b⟩ =
      .ok ((), ⟨⟨printAttribute a ++ l, o + 1⟩, b⟩) := by
    rw [front]
    exact run_skipSpaces [' '] (List.forall_mem_singleton.2 rfl) (.cons hspace)
  have step := run_tagAttribute (o := o + 1) (l := l) hb hname hvalue hres
  rw [tagRest, run_bind_of_ok run_rest, List.isEmpty_cons, if_neg Bool.false_ne_true,
    run_bind_of_ok (run_atSpace ' '), run_bind_of_ok skip]
  rw [front] at step ⊢
  rw [run_bind_of_ok (run_peek c)]
  split
  case h_1 => exact absurd rfl hslash
  case h_2 => exact absurd rfl hclose
  case h_3 =>
    change ((tagAttribute >>= fun _ => tagRest tag fuel) : Read Bool).run _ = _
    rw [run_bind_of_ok step, Text.byteLength_cons, ← Nat.add_assoc]
    rfl

/-- All printed attributes of a sound tag are taken in. -/
lemma run_tagRest_attributes (hb : b.entityDepth = 0) {attributes : List (String × String)}
    (hnames : ∀ a ∈ attributes, isPlainName a.1 = true)
    (hvalues : ∀ a ∈ attributes, isXmlText a.2 = true)
    (hres : ∀ a ∈ attributes, isDeclaration a = true →
      (readAttribute a).value ≠ Namespace.xml ∧ (readAttribute a).value ≠ Namespace.xmlns)
    (tag : TagName) (fuel : Nat) :
    (tagRest tag (fuel + attributes.length)).run
        ⟨⟨(attributes.flatMap fun a => ' ' :: printAttribute a) ++ l, o⟩, b⟩ =
      (tagRest tag fuel).run
        ⟨⟨l, o + Text.byteLength (attributes.flatMap fun a => ' ' :: printAttribute a)⟩,
          b.takeAttributes o attributes⟩ := by
  -- The builder and the place behind one attribute are those before the next one.
  induction attributes generalizing b o with
  | nil => rfl
  | cons a rest ih =>
    have ha : a ∈ a :: rest := List.mem_cons_self
    have hrest : ∀ d ∈ rest, d ∈ a :: rest := fun d m => List.mem_cons_of_mem a m
    have hb' : (b.takeAttribute a (o + 1)).entityDepth = 0 := by
      unfold Builder.takeAttribute
      split <;> exact hb
    have next := ih (o := o + Text.byteLength (' ' :: printAttribute a)) hb'
      (fun d m => hnames d (hrest d m)) (fun d m => hvalues d (hrest d m))
      (fun d m => hres d (hrest d m))
    rw [List.flatMap_cons, List.append_assoc, List.cons_append, List.length_cons, ← Nat.add_assoc,
      run_tagRest_attribute hb (hnames a ha) (hvalues a ha) (hres a ha), next,
      Text.byteLength_append, Nat.add_assoc]
    rfl

/-- Every printed attribute takes at least the blank before it. -/
lemma length_le_length_flatMap (attributes : List (String × String)) :
    attributes.length ≤ (attributes.flatMap fun a => ' ' :: printAttribute a).length := by
  induction attributes with
  | nil => exact Nat.zero_le 0
  | cons a rest ih =>
    simp only [List.flatMap_cons, List.length_append, List.length_cons]
    omega

/-- A sound start tag is read up to its end, which decides what becomes of the element. -/
lemma run_startTag (hb : b.entityDepth = 0) {t : WrittenTag} (ht : t.Sound) {c : Char}
    (hc : isNameChar c = false) :
    ∃ fuel, startTag.run ⟨⟨t.opening ++ c :: l, o⟩, b⟩ =
      (tagRest ⟨"", t.name, o⟩ (fuel + 1)).run
        ⟨⟨c :: l, o + Text.byteLength t.opening⟩,
          (b.beginElement t o).takeAttributes (o + 1 + Text.byteLength t.name.toList)
            t.attributes⟩ := by
  obtain ⟨n, hn⟩ := Nat.exists_eq_add_of_le (length_le_length_flatMap t.attributes)
  have begins : b.beginTag "" t.name o = .ok (b.beginElement t o) := by
    rw [Builder.beginTag, if_neg (by decide)]
    rfl
  have leaves : Leaves isNameChar ((t.attributes.flatMap fun a => ' ' :: printAttribute a) ++
      c :: l) := by
    cases t.attributes with
    | nil => exact .cons hc
    | cons a rest => exact .cons rfl
  -- The reader has a turn for every character that is left; the attributes need one each.
  refine ⟨n + (c :: l).length, ?_⟩
  rw [startTag, WrittenTag.opening, List.cons_append, List.append_assoc, run_bind_of_ok run_offset,
    run_bind_of_ok (run_skip_one '<'), run_bind_of_ok (run_qualifiedName ht.name leaves)]
  simp only
  rw [run_bind_of_ok (run_build (f := (·.beginTag "" t.name o)) begins), run_bind_of_ok run_rest]
  have fuel : ((t.attributes.flatMap fun a => ' ' :: printAttribute a) ++ c :: l).length + 1 =
      n + (c :: l).length + 1 + t.attributes.length := by
    rw [List.length_append]
    omega
  rw [fuel, run_tagRest_attributes (by exact hb) ht.names ht.values ht.notReserved]
  simp only [Text.byteLength_cons, Text.byteLength_append, Nat.add_assoc]
  rfl

/-- A sound start tag is read as the element that it opens. -/
lemma run_startTag_open (hb : b.entityDepth = 0) (ha : b.attributes = []) (hd : b.declared = [])
    {t : WrittenTag} (ht : t.Sound) :
    startTag.run ⟨⟨t.opening ++ '>' :: l, o⟩, b⟩ =
      .ok (true, ⟨⟨l, o + Text.byteLength t.opening + 1⟩,
        b.openElement t o (o + Text.byteLength t.opening + 1)⟩) := by
  obtain ⟨fuel, h⟩ := run_startTag (o := o) (l := l) hb ht (rfl : isNameChar '>' = false)
  rw [h, tagRest, run_bind_of_ok run_rest, List.isEmpty_cons, if_neg Bool.false_ne_true,
    run_bind_of_ok (run_atSpace '>'), run_bind_of_ok (run_skipSpaces_nil (.cons rfl)),
    run_bind_of_ok (run_peek '>')]
  simp only
  rw [run_bind_of_ok (run_skip_one '>'), run_bind_of_ok run_offset,
    run_bind_of_ok (run_build (Builder.endOpenTag_of_sound ha hd ht _ _ _))]
  rfl

/-- A sound start tag that closes itself is read as its element. -/
lemma run_startTag_empty (hb : b.entityDepth = 0) (ha : b.attributes = []) (hd : b.declared = [])
    {t : WrittenTag} (ht : t.Sound) :
    startTag.run ⟨⟨t.opening ++ '/' :: '>' :: l, o⟩, b⟩ =
      .ok (false, ⟨⟨l, o + Text.byteLength t.opening + 2⟩,
        b.addLeaf t o (o + Text.byteLength t.opening + 2)⟩) := by
  obtain ⟨fuel, h⟩ := run_startTag (o := o) (l := '>' :: l) hb ht
    (rfl : isNameChar '/' = false)
  rw [h, tagRest, run_bind_of_ok run_rest, List.isEmpty_cons, if_neg Bool.false_ne_true,
    run_bind_of_ok (run_atSpace '/'), run_bind_of_ok (run_skipSpaces_nil (.cons rfl)),
    run_bind_of_ok (run_peek '/')]
  simp only
  rw [run_bind_of_ok (run_skip_one '/'), run_bind_of_ok (run_expectChar '>'),
    run_bind_of_ok run_offset,
    run_bind_of_ok (run_build (Builder.endEmptyTag_of_sound ha hd ht _ _ _))]
  rfl

/-! ## End tags -/

/-- An end tag closes the innermost element, if that has its name. -/
lemma run_endTag (ha : b.attributes = []) (hs : b.tagName.isSome = true) {t : WrittenTag}
    (ht : isPlainName t.name = true) {e : OpenElement} {outer : List OpenElement}
    (ho : b.opened = e :: outer) (hspace : e.space = "") (hname : e.tag.name = t.name) :
    endTag.run ⟨⟨t.closing ++ l, o⟩, b⟩ =
      .ok ((), ⟨⟨l, o + Text.byteLength t.closing⟩,
        b.closeElement e outer (o + Text.byteLength t.closing)⟩) := by
  have skip : (skip "</".length).run ⟨⟨'<' :: '/' :: (t.name.toList ++ '>' :: l), o⟩, b⟩ =
      .ok ((), ⟨⟨t.name.toList ++ '>' :: l, o + 2⟩, b⟩) :=
    run_skip ['<', '/'] rfl
  have length : o + Text.byteLength t.closing = o + 2 + Text.byteLength t.name.toList + 1 := by
    simp only [WrittenTag.closing, Text.byteLength_cons, Text.byteLength_append,
      Text.byteLength_nil, ← Nat.add_assoc]
    rfl
  have closes := Builder.closeTag_of_opened ha hs ho hspace o
    (o + 2 + Text.byteLength t.name.toList + 1)
  rw [hname] at closes
  rw [length, endTag, WrittenTag.closing, List.cons_append, List.cons_append, List.append_assoc,
    List.singleton_append, run_bind_of_ok run_offset, run_bind_of_ok skip,
    run_bind_of_ok (run_qualifiedName ht (.cons rfl))]
  simp only
  rw [run_bind_of_ok (run_skipSpaces_nil (.cons rfl)), run_bind_of_ok (run_expectChar '>'),
    run_bind_of_ok run_offset]
  exact run_build closes

end Read

end MessageCatalog.Markup
