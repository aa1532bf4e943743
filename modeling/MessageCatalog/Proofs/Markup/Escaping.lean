import MessageCatalog.Proofs.Markup.Scanning

/-!
# Reading escaped text

The written form of a text holds none of the characters that end it, and each of its references is
read as the character that it stands for. So a run of text and the value of an attribute are read
as what was written: text as it is, if it holds no carriage return, and a value with its white
space turned into blanks.
-/

namespace MessageCatalog.Markup

/-! ## The written form -/

/-- The characters that are written as references. -/
def IsSpecial (c : Char) : Prop :=
  c = '&' ∨ c = '"' ∨ c = '\'' ∨ c = '<' ∨ c = '>'

/-- A character is written as itself or as one of the five references. -/
lemma escapeChar_cases (c : Char) :
    IsSpecial c ∨
      (escapeChar c = [c] ∧ c ≠ '&' ∧ c ≠ '"' ∧ c ≠ '<' ∧ c ≠ '>') := by
  unfold escapeChar IsSpecial
  split <;> simp_all

/-- The written form of a character that a document may hold consists of such characters, and has
no meaning as markup. -/
lemma mem_escapeChar {c d : Char} (hc : isXmlChar c = true) (hd : d ∈ escapeChar c) :
    isXmlChar d = true ∧ d ≠ '<' ∧ d ≠ '>' ∧ d ≠ '"' := by
  rcases escapeChar_cases c with special | ⟨e, -, hq, hl, hg⟩
  · have all : (escapeChar c).all
        (fun d => decide (isXmlChar d = true ∧ d ≠ '<' ∧ d ≠ '>' ∧ d ≠ '"')) = true := by
      rcases special with rfl | rfl | rfl | rfl | rfl
      all_goals rfl
    exact of_decide_eq_true (List.all_eq_true.1 all d hd)
  · rw [e, List.mem_singleton] at hd
    subst hd
    exact ⟨hc, hl, hg, hq⟩

/-- Escaped text holds characters of markup only, and none of those that markup is made of. -/
lemma mem_escapeChars {text : List Char} {d : Char} (ht : ∀ c ∈ text, isXmlChar c = true)
    (hd : d ∈ escapeChars text) : isXmlChar d = true ∧ d ≠ '<' ∧ d ≠ '>' ∧ d ≠ '"' := by
  obtain ⟨c, hc, hm⟩ := List.mem_flatMap.1 hd
  exact mem_escapeChar (ht c hc) hm

/-- Nothing is escaped to nothing. -/
@[simp]
lemma escapeChars_nil : escapeChars [] = [] := rfl

/-- A text is escaped character by character. -/
@[simp]
lemma escapeChars_cons (c : Char) (text : List Char) :
    escapeChars (c :: text) = escapeChar c ++ escapeChars text := by
  simp [escapeChars]

/-- What a text that is read as it is written consists of. -/
lemma isPlainText_iff {text : String} :
    isPlainText text = true ↔ ∀ c ∈ text.toList, isXmlChar c = true ∧ c ≠ '\r' := by
  simp [isPlainText]

/-- Escaping does not shorten a text. -/
lemma length_le_length_escapeChars (text : List Char) :
    text.length ≤ (escapeChars text).length := by
  induction text with
  | nil => exact Nat.zero_le 0
  | cons c text ih =>
    have hc : 1 ≤ (escapeChar c).length := by
      unfold escapeChar
      split <;> simp
    simp only [escapeChars_cons, List.length_append, List.length_cons]
    omega

namespace Read

variable {b : Builder} {o : Nat} {l : List Char}

/-! ## References -/

/-- The reference that an escaped character is written as is read as that character. -/
lemma run_reference {c : Char} (h : IsSpecial c) :
    reference.run ⟨⟨escapeChar c ++ l, o⟩, b⟩ =
      .ok (.char c, ⟨⟨l, o + Text.byteLength (escapeChar c)⟩, b⟩) := by
  rcases h with rfl | rfl | rfl | rfl | rfl <;> rfl

/-- Every reference in a written form starts with an ampersand. -/
lemma escapeChar_eq_cons {c : Char} (h : IsSpecial c) :
    ∃ name, escapeChar c = '&' :: name := by
  rcases h with rfl | rfl | rfl | rfl | rfl <;> exact ⟨_, rfl⟩

/-! ## Text -/

/-- A character that is no carriage return is added to text without one as it is. -/
lemma pushText_of_ne {text : List Char} {c : Char} (ht : '\r' ∉ text) (hc : c ≠ '\r')
    (atEnd : Bool) : pushText text c atEnd = c :: text := by
  cases text with
  | nil => simp [pushText, hc]
  | cons d text =>
    have hd : d ≠ '\r' := fun e => ht (e ▸ List.mem_cons_self)
    unfold pushText
    split
    · rename_i e
      cases e
      exact absurd rfl hd
    · simp [hc]

/-- The text that was collected is handed to the builder. -/
lemma run_flushText (text : List Char) (h : text ≠ []) :
    (flushText text).run ⟨⟨l, o⟩, b⟩ =
      .ok ((), ⟨⟨l, o⟩, b.addText (String.ofList text.reverse)⟩) := by
  cases text with
  | nil => exact absurd rfl h
  | cons c text => rfl

/-- A reference outside entities adds its character. -/
lemma run_textLoop_reference {i : Read Unit} (hb : b.entityDepth = 0) {c : Char}
    (h : IsSpecial c) (fuel : Nat) (before : List Char) (literal : Bool) :
    (textLoop i (fuel + 1) before literal).run ⟨⟨escapeChar c ++ l, o⟩, b⟩ =
      (textLoop i fuel (c :: before) true).run
        ⟨⟨l, o + Text.byteLength (escapeChar c)⟩, b⟩ := by
  obtain ⟨name, e⟩ := escapeChar_eq_cons h
  have href := run_reference h (b := b) (o := o) (l := l)
  rw [e, List.cons_append] at href ⊢
  rw [textLoop, run_bind_of_ok run_rest]
  simp only
  rw [run_bind_of_ok run_offset, run_bind_of_ok href]
  simp only
  rw [run_bind_of_ok (run_withinEntity hb), if_neg Bool.false_ne_true]

/-- A character that is no ampersand and no carriage return adds itself. -/
lemma run_textLoop_char {i : Read Unit} {c : Char} (hamp : c ≠ '&') (hc : c ≠ '\r')
    (fuel : Nat) {before : List Char} (hbefore : '\r' ∉ before) (literal : Bool) :
    (textLoop i (fuel + 1) before literal).run ⟨⟨c :: l, o⟩, b⟩ =
      (textLoop i fuel (c :: before) false).run ⟨⟨l, o + c.utf8Size⟩, b⟩ := by
  rw [textLoop, run_bind_of_ok run_rest]
  split
  case h_1 e => cases e
  case h_2 e => cases e; exact absurd rfl hamp
  case h_3 e =>
    cases e
    rw [pushText_of_ne hbefore hc, ite_self]
    rfl

/-- Escaped text is read up to its end and attached as one text. -/
lemma run_textLoop {i : Read Unit} (hb : b.entityDepth = 0) (cs before : List Char)
    (fuel : Nat) (literal : Bool) (hfuel : cs.length ≤ fuel) (hbefore : '\r' ∉ before)
    (hcs : '\r' ∉ cs) (hne : before ≠ [] ∨ cs ≠ []) :
    (textLoop i fuel before literal).run ⟨⟨escapeChars cs, o⟩, b⟩ =
      .ok ((), ⟨⟨[], o + Text.byteLength (escapeChars cs)⟩,
        b.addText (String.ofList (before.reverse ++ cs))⟩) := by
  -- A reference sets the flag and any other character clears it, so the flag is arbitrary.
  induction cs generalizing before fuel literal o with
  | nil =>
    have h := hne.resolve_right (fun h => h rfl)
    have e : (textLoop i fuel before literal).run ⟨⟨[], o⟩, b⟩ =
        (flushText before).run ⟨⟨[], o⟩, b⟩ := by
      cases fuel <;> rfl
    rw [escapeChars_nil, e, run_flushText before h, List.append_nil]
    rfl
  | cons c cs ih =>
    cases fuel with
    | zero => cases hfuel
    | succ fuel =>
      have hc : c ≠ '\r' := fun e => hcs (e ▸ List.mem_cons_self)
      have hcs' : '\r' ∉ cs := fun m => hcs (List.mem_cons_of_mem c m)
      have hbefore' : '\r' ∉ c :: before := fun m =>
        (List.mem_cons.1 m).elim (fun e => hc e.symm) hbefore
      have hfuel' : cs.length ≤ fuel := Nat.le_of_succ_le_succ hfuel
      have next := fun literal o => ih (o := o) (c :: before) fuel literal hfuel' hbefore' hcs'
        (.inl (List.cons_ne_nil c before))
      rw [List.reverse_cons, List.append_assoc, List.singleton_append] at next
      rw [escapeChars_cons, Text.byteLength_append, ← Nat.add_assoc]
      obtain special | ⟨e, hamp, -⟩ := escapeChar_cases c
      · rw [run_textLoop_reference hb special, next]
      · rw [e, List.singleton_append, run_textLoop_char hamp hc fuel hbefore, next]
        rfl

/-- A run of escaped text before a tag is attached as one text. -/
lemma run_text {i : Read Unit} (hb : b.entityDepth = 0) {value : String}
    (hv : isPlainText value = true) (hne : value ≠ "") (ht : l.head? = some '<') :
    (text i).run ⟨⟨escapeChars value.toList ++ l, o⟩, b⟩ =
      .ok ((), ⟨⟨l, o + Text.byteLength (escapeChars value.toList)⟩, b.addText value⟩) := by
  have chars := isPlainText_iff.1 hv
  have front : ∀ c ∈ escapeChars value.toList, isXmlChar c = true ∧ (c = '<' : Bool) = false := by
    intro c m
    obtain ⟨hx, hl, -⟩ := mem_escapeChars (fun c m => (chars c m).1) m
    exact ⟨hx, decide_eq_false hl⟩
  have noEnd : '>' ∉ escapeChars value.toList := fun m =>
    (mem_escapeChars (fun c m => (chars c m).1) m).2.2.1 rfl
  have cr : '\r' ∉ value.toList := fun m => (chars '\r' m).2 rfl
  have hne' : value.toList ≠ [] := fun e => hne (String.toList_eq_nil_iff.1 e)
  have hfuel : value.toList.length ≤ (escapeChars value.toList).length + 1 :=
    Nat.le_succ_of_le (length_le_length_escapeChars value.toList)
  have loop := run_textLoop (i := i) (o := o) hb value.toList [] _ false hfuel nofun cr
    (.inr hne')
  have run := run_takeUntil (b := b) (o := o) (l := l)
    (fun left => left.head? = some '<') (fun c left => by simp) front
    (by rw [ht]; rintro c ⟨⟩; decide)
  have noSection : Text.contains "]]>".toList (escapeChars value.toList) = false :=
    Text.contains_eq_false (c := '>') (by decide) noEnd
  rw [text, run_bind_of_ok run_get, run_bind_of_ok run, run_bind_of_ok run_get]
  simp only [noSection, Bool.false_eq_true, if_false]
  rw [run_bind_of_ok (run_modify _), run_bind_of_ok loop, run_modify, List.reverse_nil,
    List.nil_append, String.ofList_toList]

/-! ## Attribute values -/

/-- A reference adds its character to a value. -/
lemma run_valueLoop_reference {i : List Char → Read (List Char)} (hb : b.entityDepth = 0)
    {c : Char} (h : IsSpecial c) (fuel : Nat) (before : List Char) :
    (valueLoop i (fuel + 1) before).run ⟨⟨escapeChar c ++ l, o⟩, b⟩ =
      (valueLoop i fuel (c :: before)).run
        ⟨⟨l, o + Text.byteLength (escapeChar c)⟩, b⟩ := by
  obtain ⟨name, e⟩ := escapeChar_eq_cons h
  have href := run_reference h (b := b) (o := o) (l := l)
  rw [e, List.cons_append] at href ⊢
  rw [valueLoop, run_bind_of_ok run_rest]
  simp only
  rw [run_bind_of_ok run_offset, run_bind_of_ok href]
  simp only
  rw [run_bind_of_ok (run_withinEntity hb), if_neg Bool.false_ne_true]

/-- A newline at the front of a written form stands for itself. -/
lemma eq_cons_of_escapeChars_eq_cons {cs after : List Char} (h : escapeChars cs = '\n' :: after) :
    ∃ cs', cs = '\n' :: cs' := by
  cases cs with
  | nil => cases h
  | cons c cs =>
    rw [escapeChars_cons] at h
    obtain special | ⟨e, -⟩ := escapeChar_cases c
    · obtain ⟨name, e⟩ := escapeChar_eq_cons special
      rw [e] at h
      cases h
    · rw [e] at h
      cases h
      exact ⟨cs, rfl⟩

/-- Any character but an ampersand adds itself to a value or, if it is white space, a blank. -/
lemma run_valueLoop_char {i : List Char → Read (List Char)} {c : Char} (hamp : c ≠ '&')
    (hcr : ∀ after, c = '\r' → l = '\n' :: after → False) (fuel : Nat) (before : List Char) :
    (valueLoop i (fuel + 1) before).run ⟨⟨c :: l, o⟩, b⟩ =
      (valueLoop i fuel ((if isSpace c then ' ' else c) :: before)).run
        ⟨⟨l, o + c.utf8Size⟩, b⟩ := by
  rw [valueLoop, run_bind_of_ok run_rest]
  split
  case h_1 e => cases e
  case h_2 e => cases e; exact absurd rfl hamp
  case h_3 e => cases e; exact (hcr _ rfl rfl).elim
  case h_4 e => cases e; rfl

/-- A character that is written as a reference is no white space. -/
lemma isSpace_eq_false {c : Char} (h : IsSpecial c) :
    isSpace c = false := by
  rcases h with rfl | rfl | rfl | rfl | rfl <;> rfl

/-- The escaped value of an attribute is read up to its end, with its white space as blanks. -/
lemma run_valueLoop {i : List Char → Read (List Char)} (hb : b.entityDepth = 0)
    (cs before : List Char) (fuel : Nat) (hfuel : cs.length ≤ fuel) :
    (valueLoop i fuel before).run ⟨⟨escapeChars cs, o⟩, b⟩ =
      .ok ((normalizedValue cs).reverse ++ before,
        ⟨⟨[], o + Text.byteLength (escapeChars cs)⟩, b⟩) := by
  -- The cases are those of the normal form: a carriage return is dropped before a newline only.
  fun_induction normalizedValue cs generalizing before fuel o with
  | case1 => cases fuel <;> rfl
  | case2 cs ih =>
    cases fuel with
    | zero => cases hfuel
    | succ fuel =>
      have hfuel' : ('\n' :: cs).length ≤ fuel := Nat.le_of_succ_le_succ hfuel
      have next := ih (o := o + 1) before fuel hfuel'
      rw [escapeChars_cons, Text.byteLength_append, ← Nat.add_assoc]
      exact next
  | case3 c cs hcr ih =>
    cases fuel with
    | zero => cases hfuel
    | succ fuel =>
      have hfuel' : cs.length ≤ fuel := Nat.le_of_succ_le_succ hfuel
      have next := fun d o => ih (o := o) (d :: before) fuel hfuel'
      rw [escapeChars_cons, Text.byteLength_append, ← Nat.add_assoc]
      obtain special | ⟨e, hamp, -⟩ := escapeChar_cases c
      · rw [run_valueLoop_reference hb special, next, isSpace_eq_false special]
        simp
      · have hcr' : ∀ after, c = '\r' → escapeChars cs = '\n' :: after → False := by
          intro after ec en
          -- A newline behind `c` in the written form is one in the value, too.
          obtain ⟨cs', rfl⟩ := eq_cons_of_escapeChars_eq_cons en
          exact hcr cs' ec rfl
        rw [e, List.singleton_append, run_valueLoop_char hamp hcr', next]
        simp

end Read

end MessageCatalog.Markup
