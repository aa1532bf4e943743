import MessageCatalog.Markup.Writer
import MessageCatalog.Proofs.Markup.Escaping
import MessageCatalog.Proofs.OrderedMap

/-!
# Undoing escapes

Escaped text is made of plain characters and five entities, and replacing these from left to right
gives the text back, whatever it looks like. So nothing that is written as text or as a value moves
a reader to another place of the markup (`Place`): it opens and closes no tag and ends no value.
-/

namespace MessageCatalog.Markup

/-! ## The text behind entities -/

/-- Replace each of the five entities, from left to right, by the character it stands for. -/
def unescapeChars : List Char → List Char
  | '&' :: 'a' :: 'm' :: 'p' :: ';' :: text => '&' :: unescapeChars text
  | '&' :: 'q' :: 'u' :: 'o' :: 't' :: ';' :: text => '"' :: unescapeChars text
  | '&' :: 'a' :: 'p' :: 'o' :: 's' :: ';' :: text => '\'' :: unescapeChars text
  | '&' :: 'l' :: 't' :: ';' :: text => '<' :: unescapeChars text
  | '&' :: 'g' :: 't' :: ';' :: text => '>' :: unescapeChars text
  | c :: text => c :: unescapeChars text
  | [] => []

/-- The string behind a string with entities. -/
def unescape (text : String) : String := String.ofList (unescapeChars text.toList)

/-- A character that is no ampersand stands for itself. -/
lemma unescapeChars_cons {c : Char} (h : c ≠ '&') (text : List Char) :
    unescapeChars (c :: text) = c :: unescapeChars text := by
  rw [unescapeChars]
  all_goals exact fun _ e _ => absurd e h

/-- Every character is found again, whatever follows it. -/
lemma unescapeChars_escapeChar (c : Char) (text : List Char) :
    unescapeChars (escapeChar c ++ text) = c :: unescapeChars text := by
  rcases escapeChar_cases c with special | ⟨e, hamp, -⟩
  · rcases special with rfl | rfl | rfl | rfl | rfl <;> rfl
  · rw [e, List.singleton_append, unescapeChars_cons hamp]

/-- Unescaping gives back the characters that were escaped. -/
lemma unescapeChars_escapeChars (text : List Char) : unescapeChars (escapeChars text) = text := by
  induction text with
  | nil => rfl
  | cons c text ih => rw [escapeChars_cons, unescapeChars_escapeChar, ih]

/-- Unescaping gives back the text that was escaped. -/
lemma unescape_escape (text : String) : unescape (escape text) = text := by
  rw [unescape, escape, String.toList_ofList, unescapeChars_escapeChars, String.ofList_toList]

/-- Escaped texts are put together like the texts themselves. -/
lemma escape_append (first second : String) :
    escape (first ++ second) = escape first ++ escape second := by
  simp only [escape, escapeChars, String.toList_append, List.flatMap_append, String.ofList_append]

/-! ## What escaped text is made of -/

/-- A text without the characters that open and close tags and values. -/
def MarkupFree (text : List Char) : Prop :=
  ∀ c ∈ text, c ≠ '<' ∧ c ≠ '>' ∧ c ≠ '"' ∧ c ≠ '\''

instance (text : List Char) : Decidable (MarkupFree text) :=
  List.decidableBAll (fun c => c ≠ '<' ∧ c ≠ '>' ∧ c ≠ '"' ∧ c ≠ '\'') text

/-- Texts without markup are without markup when they are put together. -/
lemma MarkupFree.append {first second : List Char} (hf : MarkupFree first)
    (hs : MarkupFree second) : MarkupFree (first ++ second) :=
  fun c m => (List.mem_append.1 m).elim (hf c) (hs c)

/-- No character is escaped to something that holds markup. -/
lemma markupFree_escapeChar (c : Char) : MarkupFree (escapeChar c) := by
  unfold escapeChar
  split
  case h_6 hamp hquot hapos hlt hgt =>
    intro d m
    rw [List.mem_singleton] at m
    subst m
    exact ⟨hlt, hgt, hquot, hapos⟩
  all_goals decide

/-- No text is escaped to something that holds markup. -/
lemma markupFree_escapeChars (text : List Char) : MarkupFree (escapeChars text) := by
  intro d m
  obtain ⟨c, -, m⟩ := List.mem_flatMap.1 m
  exact markupFree_escapeChar c d m

/-- What follows the ampersand of an entity. -/
def entityNames : List String := ["amp;", "quot;", "apos;", "lt;", "gt;"]

/-- Behind a text without ampersands they stand where they stood. -/
lemma suffix_of_suffix_append {front text behind : List Char} (h : '&' ∉ front)
    (e : '&' :: behind <:+ front ++ text) : '&' :: behind <:+ text := by
  induction front with
  | nil => exact e
  | cons c front ih =>
    rw [List.mem_cons, not_or] at h
    cases List.suffix_cons_iff.1 e with
    | inl same => exact absurd (List.cons.inj same).1 h.1
    | inr later => exact ih h.2 later

/-- Each ampersand of an escaped text opens an entity. -/
lemma exists_entity {text behind : List Char} (h : '&' :: behind <:+ escapeChars text) :
    ∃ name ∈ entityNames, name.toList <+: behind := by
  induction text with
  | nil => exact absurd (List.suffix_nil.1 h) (List.cons_ne_nil _ _)
  | cons c text ih =>
    rw [escapeChars_cons] at h
    obtain special | ⟨e, hamp, -⟩ := escapeChar_cases c
    · have written : ∃ name ∈ entityNames, escapeChar c = '&' :: name.toList ∧
          '&' ∉ name.toList := by
        rcases special with rfl | rfl | rfl | rfl | rfl <;> decide
      obtain ⟨name, known, e, inside⟩ := written
      rw [e] at h
      cases List.suffix_cons_iff.1 h with
      | inl same =>
        cases same
        exact ⟨name, known, List.prefix_append name.toList _⟩
      | inr later => exact ih (suffix_of_suffix_append inside later)
    · have outside : '&' ∉ escapeChar c := by
        rw [e, List.mem_singleton]
        exact Ne.symm hamp
      exact ih (suffix_of_suffix_append outside h)

/-! ## Places of markup -/

/-- Where a reader of markup is: between tags, in a tag, or in a value in quotes or apostrophes. -/
inductive Place where
  | content
  | tag
  | inQuotes
  | inApostrophes
  deriving DecidableEq, Repr

namespace Place

/-- The place behind the next character. -/
def next : Place → Char → Place
  | content, c => if c = '<' then tag else content
  | tag, c =>
    if c = '>' then content
    else if c = '"' then inQuotes
    else if c = '\'' then inApostrophes
    else tag
  | inQuotes, c => if c = '"' then tag else inQuotes
  | inApostrophes, c => if c = '\'' then tag else inApostrophes

/-- The place behind a text. -/
def behind (p : Place) (text : List Char) : Place := text.foldl next p

/-- A text in which a reader never leaves the place it is at. -/
def Stays (p : Place) (text : List Char) : Prop :=
  ∀ front, front <+: text → p.behind front = p

/-- A reader stays at its place over text without markup. -/
lemma behind_of_markupFree (p : Place) {text : List Char} (h : MarkupFree text) :
    p.behind text = p := by
  induction text with
  | nil => rfl
  | cons c text ih =>
    obtain ⟨hlt, hgt, hquot, hapos⟩ := h c List.mem_cons_self
    have same : p.next c = p := by
      cases p <;> simp [next, hlt, hgt, hquot, hapos]
    rw [behind, List.foldl_cons, same]
    exact ih fun d m => h d (List.mem_cons_of_mem c m)

/-- A reader stays at its place in the middle of such text, too. -/
lemma stays_of_markupFree (p : Place) {text : List Char} (h : MarkupFree text) : p.Stays text :=
  fun _ front => p.behind_of_markupFree fun c m => h c (front.subset m)

/-- Escaped text is all at one place, wherever it stands. -/
lemma stays_escape (p : Place) (text : String) : p.Stays (escape text).toList := by
  rw [escape, String.toList_ofList]
  exact p.stays_of_markupFree (markupFree_escapeChars text.toList)

end Place

open Place (content tag inQuotes)

/-- A text from inside a tag that does not leave it and closes the values it opens. -/
def InTag (text : List Char) : Prop :=
  tag.behind text = tag ∧ ∀ front, front <+: text → tag.behind front ≠ content

/-- A text that is one tag: it is opened by the first character and closed by the last one only. -/
def IsOneTag (text : List Char) : Prop :=
  ∃ inside, text = '<' :: (inside ++ ['>']) ∧ InTag inside

namespace InTag

/-- Text without markup is inside a tag where it begins inside one. -/
lemma of_markupFree {text : List Char} (h : MarkupFree text) : InTag text := by
  refine ⟨tag.behind_of_markupFree h, fun front hfront => ?_⟩
  rw [tag.stays_of_markupFree h front hfront]
  decide

/-- Texts that are inside a tag are so one behind the other. -/
lemma append {first second : List Char} (hf : InTag first) (hs : InTag second) :
    InTag (first ++ second) := by
  have skip (text : List Char) : tag.behind (first ++ text) = tag.behind text := by
    rw [Place.behind, List.foldl_append]
    exact congrArg (text.foldl Place.next) hf.1
  refine ⟨(skip second).trans hs.1, fun front hfront => ?_⟩
  obtain inside | ⟨rest, rfl⟩ :=
    List.prefix_or_prefix_of_prefix hfront (List.prefix_append first second)
  · exact hf.2 front inside
  · rw [skip]
    exact hs.2 rest ((List.prefix_append_right_inj first).1 hfront)

/-- A value between quotes, in which nothing ends it. -/
lemma quoted {value : List Char} (h : MarkupFree value) : InTag ('"' :: (value ++ ['"'])) := by
  have inside := inQuotes.stays_of_markupFree h
  constructor
  · change inQuotes.behind (value ++ ['"']) = tag
    rw [Place.behind, List.foldl_append]
    exact congrArg (Place.next · '"') (inside value List.prefix_rfl)
  · intro front hfront
    cases front with
    | nil => decide
    | cons c front =>
      obtain ⟨rfl, later⟩ := List.cons_prefix_cons.1 hfront
      change inQuotes.behind front ≠ content
      rcases List.prefix_concat_iff.1 later with rfl | short
      · rw [Place.behind, List.foldl_append]
        rw [show value.foldl Place.next inQuotes = inQuotes from inside value List.prefix_rfl]
        decide
      · rw [inside front short]
        decide

/-- Texts for each of some items are inside a tag when each of them is. -/
lemma flatMap {α : Type} {f : α → List Char} {as : List α} (h : ∀ a ∈ as, InTag (f a)) :
    InTag (as.flatMap f) := by
  induction as with
  | nil => exact of_markupFree nofun
  | cons a as ih =>
    rw [List.flatMap_cons]
    exact (h a List.mem_cons_self).append (ih fun b m => h b (List.mem_cons_of_mem a m))

end InTag

namespace Writer

/-- An attribute is inside its tag, whatever its value is. -/
lemma inTag_attributeText {a : String × Option String} (h : MarkupFree a.1.toList) :
    InTag (attributeText a).toList := by
  obtain ⟨name, value⟩ := a
  cases value with
  | none => exact .of_markupFree nofun
  | some value =>
    rw [attributeText]
    split
    case isTrue => exact .of_markupFree nofun
    case isFalse =>
      have name : InTag (" ".toList ++ name.toList ++ "=".toList) := by
        apply InTag.of_markupFree
        exact (MarkupFree.append (by decide) h).append (by decide)
      have value := InTag.quoted (markupFree_escapeChars value.toList)
      have both := name.append value
      simpa [escape] using both

/-- A start tag with a plain name and plain names of attributes is one tag, whatever values it
has. -/
lemma isOneTag_startTagText {name : String} {attributes : List (String × Option String)}
    (hname : MarkupFree name.toList) (h : ∀ a ∈ attributes, MarkupFree a.1.toList)
    (style : TagStyle) :
    IsOneTag (startTagText name attributes style).toList := by
  have values : InTag ((OrderedMap.ofList attributes).entries.flatMap fun a =>
      (attributeText a).toList) := by
    apply InTag.flatMap
    intro a m
    exact inTag_attributeText (h a (OrderedMap.mem_of_mem_ofList m))
  have closing : InTag (if style.selfClosing then ['/'] else []) := by
    apply InTag.of_markupFree
    cases style.selfClosing <;> decide
  refine ⟨_, ?_, ((InTag.of_markupFree hname).append values).append closing⟩
  rw [startTagText]
  simp only [String.toList_append, String.toList_join, List.flatMap_map]
  cases style.selfClosing <;> simp

end Writer

/-- Escaped text has none of the characters that markup is made of, each of its ampersands opens
one of five entities, and replacing these gives the text back, so that no two texts are escaped
alike; escaping goes character by character. A reader stays where it is in all that a writer writes
of a text or of the value of an attribute, and a start tag with plain names is one tag. -/
theorem escape_safe_and_reversible :
    (∀ text, MarkupFree (escape text).toList ∧
        (∀ behind, '&' :: behind <:+ (escape text).toList →
          ∃ name ∈ entityNames, name.toList <+: behind) ∧
        unescape (escape text) = text) ∧
      Function.Injective escape ∧
      (∀ first second, escape (first ++ second) = escape first ++ escape second) ∧
      (∀ (w : Writer) text, ∃ written, (w.text text).output = w.output ++ written ∧
        ∀ p : Place, p.Stays written.toList) ∧
      (∀ name value, value ≠ "" → ∃ written,
        Writer.attributeText (name, some value) = " " ++ name ++ "=\"" ++ written ++ "\"" ∧
          ∀ p : Place, p.Stays written.toList) ∧
      ∀ name attributes style, MarkupFree name.toList → (∀ a ∈ attributes, MarkupFree a.1.toList) →
        IsOneTag (Writer.startTagText name attributes style).toList := by
  refine ⟨fun text => ⟨?_, fun behind h => ?_, unescape_escape text⟩, ?_, escape_append,
    fun w text => ?_, fun name value h => ?_, ?_⟩
  · rw [escape, String.toList_ofList]
    exact markupFree_escapeChars text.toList
  · rw [escape, String.toList_ofList] at h
    exact exists_entity h
  · exact Function.LeftInverse.injective unescape_escape
  · exact ⟨escape text, rfl, fun p => p.stays_escape text⟩
  · refine ⟨escape value, ?_, fun p => p.stays_escape value⟩
    rw [Writer.attributeText, if_neg fun e => h (String.isEmpty_iff.1 e)]
  · exact fun name attributes style hname h => Writer.isOneTag_startTagText hname h style

/-- A note that looks escaped already and tries to end its attribute. -/
theorem escape_safe_and_reversible_quotedNote :
    let note := "&lt;\" b=\""
    '&' :: "amp;lt;".toList <:+ (escape "&lt;").toList ∧ note ≠ "" ∧
      (∃ name ∈ entityNames, name.toList <+: "amp;lt;".toList) ∧
      (∃ written, Writer.attributeText ("a", some note) = " " ++ "a" ++ "=\"" ++ written ++ "\"" ∧
        ∀ p : Place, p.Stays written.toList) ∧
      IsOneTag (Writer.startTagText "x" [("a", some note)] {}).toList := by
  obtain ⟨texts, -, -, -, values, tags⟩ := escape_safe_and_reversible
  have opened : '&' :: "amp;lt;".toList <:+ (escape "&lt;").toList := List.suffix_rfl
  refine ⟨opened, by decide, (texts "&lt;").2.1 _ opened, values "a" _ (by decide),
    tags "x" _ {} (by decide) fun a m => ?_⟩
  rw [List.mem_singleton.1 m]
  decide

end MessageCatalog.Markup
