import MessageCatalog.Proofs.Markup.RoundTrip

/-!
# Reading printed documents

A document that starts with its root element, or behind a prologue that adds nothing to the tree,
is read as that element with the nodes of its content.
-/

namespace MessageCatalog.Markup

open Text (Leaves)

/-- An element as it is written, with its end tag. -/
structure WrittenElement where
  tag : WrittenTag
  inside : Mixed

namespace WrittenElement

/-- The printed form of an element. -/
def print (e : WrittenElement) : List Char :=
  e.tag.opening ++ ('>' :: (e.inside.print ++ e.tag.closing))

/-- The place of the content of an element that starts at `start`. -/
def first (e : WrittenElement) (start : Nat) : Nat := start + Text.byteLength e.tag.opening + 1

/-- The place behind an element that starts at `start`. -/
def stop (e : WrittenElement) (start : Nat) : Nat :=
  e.first start + Text.byteLength e.inside.print + Text.byteLength e.tag.closing

/-- The element that a written one at `start` stands for. -/
def toElement (e : WrittenElement) (start : Nat) : Element :=
  ⟨e.tag.toTag start (e.stop start), e.inside.nodes (e.first start)⟩

/-- What makes an element readable. -/
def Sound (e : WrittenElement) : Prop := e.tag.Sound ∧ e.inside.Sound

end WrittenElement

/-- An element does not start with white space. -/
lemma WrittenElement.leaves_print (e : WrittenElement) {rest : List Char} :
    Leaves isSpace (e.print ++ rest) := .cons rfl

/-- Every turn of the loop takes a character of the printed form. -/
lemma textTurns_le_length (value : String) :
    textTurns value ≤ (escapeChars value.toList).length := by
  have h := length_le_length_escapeChars value.toList
  unfold textTurns
  split
  · exact Nat.zero_le _
  · rename_i empty
    have hne : value.toList ≠ [] :=
      fun e => empty (String.isEmpty_iff.2 (String.toList_eq_nil_iff.1 e))
    have pos := List.length_pos_iff.2 hne
    omega

/-- Each turn of the reader takes a character at least. -/
lemma Mixed.turns_le_length (m : Mixed) : m.turns ≤ m.print.length := by
  induction m with
  | text value => exact textTurns_le_length value
  | leaf before tag after ih =>
    have h := textTurns_le_length before
    simp only [turns, print, WrittenTag.opening, List.length_append, List.length_cons]
    omega
  | branch before tag inside after ihinside ihafter =>
    have h := textTurns_le_length before
    simp only [turns, print, WrittenTag.opening, WrittenTag.closing, List.length_append,
      List.length_cons]
    omega

namespace Read

variable {i : Read Unit} {b : Builder} {o : Nat} {l : List Char}

/-- Where neither a comment nor an instruction comes next, only white space is skipped. -/
lemma run_misc (front : List Char) (hf : ∀ c ∈ front, isSpace c = true) (ht : Leaves isSpace l)
    (hc : Text.startsWith "<!--".toList l = false)
    (hi : Text.startsWith "<?".toList l = false) (fuel : Nat) :
    (misc (fuel + 1)).run ⟨⟨front ++ l, o⟩, b⟩ =
      .ok ((), ⟨⟨l, o + Text.byteLength front⟩, b⟩) := by
  rw [misc, run_bind_of_ok (run_skipSpaces front hf ht), run_bind_of_ok (run_ahead _), hc,
    if_neg Bool.false_ne_true, run_bind_of_ok (run_ahead _), hi, if_neg Bool.false_ne_true]
  rfl

/-- Read the root element and what follows it. -/
def rootElement (fuel : Nat) : Read Unit := do
  skipSpaces
  if ← ahead "<" then
    if ← startTag then content (maxEntityDepth + 1)
  misc fuel
  if !(← rest).isEmpty then fault .unknownToken

/-- The end tag of the element around all content is the last thing that is read of it. -/
lemma run_contentLoop_lastEndTag {tag : WrittenTag} (fuel : Nat) :
    (contentLoop i (fuel + 1) 1).run ⟨⟨tag.closing ++ l, o⟩, b⟩ =
      (endTag >>= fun _ => pure ()).run ⟨⟨tag.closing ++ l, o⟩, b⟩ := rfl

/-- The builder when a root element has been read. -/
structure HoldsRoot (e : WrittenElement) (start : Nat) (b : Builder) : Prop where
  opened : b.opened = []
  nodes : b.nodes = [.element (e.toElement start).tag (e.toElement start).children]

/-- The root element is the one that was read. -/
lemma HoldsRoot.root {e : WrittenElement} (h : HoldsRoot e o b) :
    b.root = .ok (e.toElement o) := by
  rw [Builder.root, h.opened, h.nodes]
  rfl

/-- The content of the root element is read up to its end tag, behind which only `l` is left. -/
lemma run_content_print {e : WrittenElement} (hd : b.entityDepth = 0) (he : e.Sound)
    (ho : b.opened = []) (hn : b.nodes = []) (nesting : Nat) :
    ∃ b', (content (nesting + 1)).run
        ⟨⟨e.inside.print ++ (e.tag.closing ++ l), e.first o⟩,
          b.openElement e.tag o (e.first o)⟩ = .ok ((), ⟨⟨l, e.stop o⟩, b'⟩) ∧
      HoldsRoot e o b' := by
  obtain ⟨k, hk⟩ := Nat.exists_eq_add_of_le e.inside.turns_le_length
  have fuel : (e.inside.print ++ (e.tag.closing ++ l)).length + 1 =
      k + (e.tag.closing ++ l).length + 1 + e.inside.turns := by
    rw [List.length_append]
    omega
  obtain ⟨t, reads⟩ := run_contentLoop_print (i := content nesting) (o := e.first o)
    (b := b.openElement e.tag o (e.first o)) (d := []) (t := ⟨"", e.tag.name, o⟩)
    (l := e.tag.closing ++ l) hd he.2 rfl (k + (e.tag.closing ++ l).length + 1) 0
  -- nothing stands before the root element, so it is opened behind an empty row of nodes
  have around : b.openElement e.tag o (e.first o) =
      (b.grown [] t false).openElement e.tag o (e.first o) := by
    cases b with
    | mk opened => cases opened <;> rfl
  obtain ⟨c, opened, space, name, closed⟩ := Builder.closeElement_grown (b := b) (d := []) (t := t)
    false e.inside.endsInText e.tag o (e.first o) (e.stop o) (e.inside.nodes (e.first o)) t
  have outer : (b.grown [] t false).opened = [] := by
    rw [Builder.grown, Builder.setCurrent, ho]
  have closes := run_endTag (o := e.first o + Text.byteLength e.inside.print) (l := l) rfl rfl
    he.1.name opened space name
  refine ⟨b.grown ([] ++ [.element (e.tag.toTag o (e.stop o)) (e.inside.nodes (e.first o))]) t
    false, ?_, ?_, ?_⟩
  · rw [content, run_bind_of_ok run_rest, fuel]
    refine reads.trans ?_
    rw [run_contentLoop_lastEndTag, List.nil_append, around, run_bind_of_ok closes]
    rw [← closed]
    rfl
  · rw [Builder.grown, Builder.setCurrent, ho]
  · rw [Builder.grown, Builder.setCurrent, ho, Builder.current, ho, hn]
    rfl

/-- A printed root element and a line end behind it are read as the element. -/
lemma run_rootElement {e : WrittenElement} (hd : b.entityDepth = 0) (ha : b.attributes = [])
    (hdecl : b.declared = []) (ho : b.opened = []) (hn : b.nodes = []) (he : e.Sound)
    (fuel : Nat) :
    ∃ b', (rootElement (fuel + 1)).run ⟨⟨e.print ++ ['\n'], o⟩, b⟩ =
        .ok ((), ⟨⟨[], e.stop o + 1⟩, b'⟩) ∧ HoldsRoot e o b' := by
  have print : e.print ++ ['\n'] =
      e.tag.opening ++ '>' :: (e.inside.print ++ (e.tag.closing ++ ['\n'])) := by
    simp only [WrittenElement.print, List.append_assoc, List.cons_append]
  obtain ⟨b', reads, holds⟩ := run_content_print (o := o) (l := ['\n']) hd he ho hn maxEntityDepth
  have skips : skipSpaces.run ⟨⟨e.print ++ ['\n'], o⟩, b⟩ =
      .ok ((), ⟨⟨e.print ++ ['\n'], o⟩, b⟩) := run_skipSpaces_nil e.leaves_print
  have starts : Text.startsWith "<".toList
      (e.tag.opening ++ '>' :: (e.inside.print ++ (e.tag.closing ++ ['\n']))) = true := rfl
  have opens : startTag.run
      ⟨⟨e.tag.opening ++ '>' :: (e.inside.print ++ (e.tag.closing ++ ['\n'])), o⟩, b⟩ =
        .ok (true, ⟨⟨e.inside.print ++ (e.tag.closing ++ ['\n']), e.first o⟩,
          b.openElement e.tag o (e.first o)⟩) := run_startTag_open hd ha hdecl he.1
  have ends : (misc (fuel + 1)).run ⟨⟨['\n'], e.stop o⟩, b'⟩ =
      .ok ((), ⟨⟨[], e.stop o + 1⟩, b'⟩) :=
    run_misc ['\n'] (List.forall_mem_singleton.2 rfl) .nil rfl rfl fuel
  refine ⟨b', ?_, holds⟩
  rw [rootElement, run_bind_of_ok skips, run_bind_of_ok (run_ahead "<"), print]
  dsimp only
  rw [starts, if_pos rfl, run_bind_of_ok opens, if_pos rfl, run_bind_of_ok reads,
    run_bind_of_ok ends]
  rfl

/-! ## The front of a document -/

/-- A document is a prologue and the root element. -/
lemma document_eq : document = (do
    let fuel := (← rest).length + 1
    if ← ahead "\uFEFF" then skip 1
    if ← ahead "<?xml " then declaration
    misc fuel
    skipSpaces
    if ← ahead "<!DOCTYPE" then
      documentType
      misc fuel
    rootElement fuel) := rfl

/-- Neither a declaration nor a comment or an instruction starts as an element does. -/
lemma startsWith_print {e : WrittenElement} (he : e.Sound) {d : Char} (hd : d = '!' ∨ d = '?')
    (lead rest : List Char) : Text.startsWith ('<' :: d :: lead) (e.print ++ rest) = false := by
  obtain ⟨c, text, name, hc⟩ := head_of_isPlainName he.1.name
  obtain ⟨-, -, -, hbang, hquest⟩ := ne_of_isNameStart hc
  have hdc : ¬ d = c := by
    rintro rfl
    exact hd.elim hbang hquest
  rw [WrittenElement.print, WrittenTag.opening, name]
  simp [Text.startsWith, Text.dropLead?, hdc]

/-- White space before an element is skipped. -/
lemma run_misc_print {e : WrittenElement} (he : e.Sound) (front : List Char)
    (hf : ∀ c ∈ front, isSpace c = true) (fuel : Nat) :
    (misc (fuel + 1)).run ⟨⟨front ++ (e.print ++ l), o⟩, b⟩ =
      .ok ((), ⟨⟨e.print ++ l, o + Text.byteLength front⟩, b⟩) := by
  apply run_misc front hf e.leaves_print
  · exact startsWith_print he (.inl rfl) "--".toList l
  · exact startsWith_print he (.inr rfl) [] l

/-- A document that starts with its root element is read as that element. -/
lemma run_document {e : WrittenElement} (he : e.Sound) :
    ∃ b', document.run { cursor := ⟨e.print ++ ['\n'], 0⟩ } =
        .ok ((), ⟨⟨[], e.stop 0 + 1⟩, b'⟩) ∧ HoldsRoot e 0 b' := by
  obtain ⟨b', reads, holds⟩ := run_rootElement (b := {}) (o := 0) rfl rfl rfl rfl rfl he
    (e.print ++ ['\n']).length
  have noMark : Text.startsWith "\uFEFF".toList (e.print ++ ['\n']) = false := rfl
  have noDeclaration : Text.startsWith "<?xml ".toList (e.print ++ ['\n']) = false :=
    startsWith_print he (.inr rfl) "xml ".toList ['\n']
  have noType : Text.startsWith "<!DOCTYPE".toList (e.print ++ ['\n']) = false :=
    startsWith_print he (.inl rfl) "DOCTYPE".toList ['\n']
  have noMisc : (misc ((e.print ++ ['\n']).length + 1)).run { cursor := ⟨e.print ++ ['\n'], 0⟩ } =
      .ok ((), { cursor := ⟨e.print ++ ['\n'], 0⟩ }) := run_misc_print he [] nofun _
  refine ⟨b', ?_, holds⟩
  rw [document_eq, run_bind_of_ok run_rest]
  dsimp only
  rw [run_bind_of_ok (run_ahead _), noMark, if_neg Bool.false_ne_true,
    run_bind_of_ok (run_ahead _), noDeclaration, if_neg Bool.false_ne_true, run_bind_of_ok noMisc,
    run_bind_of_ok (run_skipSpaces_nil e.leaves_print), run_bind_of_ok (run_ahead _), noType,
    if_neg Bool.false_ne_true]
  exact reads

/-- Behind white space, a text starts as what comes behind it or as white space. -/
lemma startsWith_front {front text : List Char} {c d : Char}
    (hf : ∀ e ∈ front, isSpace e = true) (hspace : isSpace d = false) (hne : d ≠ c)
    (lead : List Char) : Text.startsWith (d :: lead) (front ++ c :: text) = false := by
  cases front with
  | nil => exact Text.startsWith_of_ne hne lead text
  | cons e front =>
    have blank : isSpace e = true := hf e List.mem_cons_self
    refine Text.startsWith_of_ne ?_ lead (front ++ c :: text)
    rintro rfl
    rw [hspace] at blank
    cases blank

/-- A text that starts, behind white space, with anything but markup or a byte order mark is no
document: nothing but the white space is read of it. -/
lemma run_document_of_front {front text : List Char} {c : Char}
    (hf : ∀ e ∈ front, isSpace e = true) (hspace : isSpace c = false) (hopen : '<' ≠ c)
    (hmark : '\uFEFF' ≠ c) :
    document.run { cursor := ⟨front ++ c :: text, 0⟩ } =
      .error ⟨.unknownToken, Text.byteLength front⟩ := by
  have noMark : Text.startsWith "\uFEFF".toList (front ++ c :: text) = false :=
    startsWith_front hf rfl hmark []
  have noDeclaration : Text.startsWith "<?xml ".toList (front ++ c :: text) = false :=
    startsWith_front hf rfl hopen "?xml ".toList
  have noMarkup (lead : List Char) : Text.startsWith ('<' :: lead) (c :: text) = false :=
    Text.startsWith_of_ne hopen lead text
  have leaves : Leaves isSpace (c :: text) := .cons hspace
  -- Every part of a document but the root element may be missing, so all of them are passed.
  have goes (fuel : Nat) : (misc (fuel + 1)).run { cursor := ⟨front ++ c :: text, 0⟩ } =
      .ok ((), { cursor := ⟨c :: text, 0 + Text.byteLength front⟩ }) :=
    run_misc front hf leaves (noMarkup _) (noMarkup _) fuel
  rw [Nat.zero_add] at goes
  have skips : skipSpaces.run { cursor := ⟨c :: text, Text.byteLength front⟩ } =
      .ok ((), { cursor := ⟨c :: text, Text.byteLength front⟩ }) := run_skipSpaces_nil leaves
  have stays (fuel : Nat) :
      (misc (fuel + 1)).run { cursor := ⟨c :: text, Text.byteLength front⟩ } =
        .ok ((), { cursor := ⟨c :: text, Text.byteLength front⟩ }) :=
    run_misc [] nofun leaves (noMarkup _) (noMarkup _) fuel
  rw [document_eq, run_bind_of_ok run_rest]
  dsimp only
  rw [run_bind_of_ok (run_ahead _), noMark, if_neg Bool.false_ne_true,
    run_bind_of_ok (run_ahead _), noDeclaration, if_neg Bool.false_ne_true,
    run_bind_of_ok (goes _), run_bind_of_ok skips, run_bind_of_ok (run_ahead _),
    show "<!DOCTYPE".toList = '<' :: "!DOCTYPE".toList from rfl, noMarkup,
    if_neg Bool.false_ne_true, rootElement, run_bind_of_ok skips, run_bind_of_ok (run_ahead _),
    show "<".toList = '<' :: [] from rfl, noMarkup, if_neg Bool.false_ne_true]
  dsimp only
  rw [run_bind_of_ok (stays _)]
  rfl

end Read

/-- What starts as no document does is not read. -/
theorem read_of_front {front text : List Char} {c : Char} {contents : String}
    (hc : contents.toList = front ++ c :: text) (hf : ∀ e ∈ front, isSpace e = true)
    (hspace : isSpace c = false) (hopen : '<' ≠ c) (hmark : '\uFEFF' ≠ c) :
    read contents = .error ⟨.unknownToken, Text.byteLength front⟩ := by
  rw [read, hc, Read.run_document_of_front hf hspace hopen hmark]
  rfl

/-- Reading undoes printing. -/
theorem read_print {e : WrittenElement} (he : e.Sound) :
    read (String.ofList (e.print ++ ['\n'])) = .ok (e.toElement 0) := by
  obtain ⟨b, reads, holds⟩ := Read.run_document he
  rw [read, String.toList_ofList, reads]
  exact holds.root

end MessageCatalog.Markup
