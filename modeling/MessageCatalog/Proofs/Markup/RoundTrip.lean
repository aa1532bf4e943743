import MessageCatalog.Proofs.Markup.Tags

/-!
# Reading printed content

Reading undoes printing: from the printed form of sound content the reader attaches exactly the
nodes that the content stands for, at the places where they are printed. The proof is one induction
on the content. It is stated for any rest of the document and any number of loop turns that are
left, so that the content of an element can be read inside the content around it.
-/

namespace MessageCatalog.Markup

/-! ## The builder inside an element -/

namespace Builder

variable {b : Builder} {d : List Node} {t : TagName}

/-- The builder when `nodes` have been attached behind what `b` holds, the tag begun last being
`tagName`. -/
def grown (b : Builder) (nodes : List Node) (tagName : TagName) (afterText : Bool) : Builder :=
  { b.setCurrent (nodes.reverse ++ b.current) with
    tagName := some tagName, afterText, attributes := [], declared := [] }

/-- Attaching nodes leads into no entity. -/
@[simp]
lemma entityDepth_grown (afterText : Bool) :
    (b.grown d t afterText).entityDepth = b.entityDepth := by
  unfold grown setCurrent
  split <;> rfl

/-- Text is attached as a node when there is none in front of it. -/
lemma addText_grown (value : String) :
    (b.grown d t false).addText value = b.grown (d ++ [.text value]) t true := by
  cases b with
  | mk opened => cases opened <;> simp [grown, addText, setCurrent, current]

/-- An element without content is attached as a node. -/
lemma addLeaf_grown (afterText : Bool) (tag : WrittenTag) (start stop : Nat) :
    (b.grown d t afterText).addLeaf tag start stop =
      b.grown (d ++ [.element (tag.toTag start stop) []]) ⟨"", tag.name, start⟩ false := by
  cases b with
  | mk opened => cases opened <;> simp [grown, addLeaf, addNode, setCurrent, current]

/-- Closing an element attaches it with the nodes inside it. -/
lemma closeElement_grown (afterText afterText' : Bool) (tag : WrittenTag) (start first stop : Nat)
    (inside : List Node) (t' : TagName) :
    ∃ e, (((b.grown d t afterText).openElement tag start first).grown inside t' afterText').opened =
        e :: (b.grown d t afterText).opened ∧
      e.space = "" ∧ e.tag.name = tag.name ∧
      ((((b.grown d t afterText).openElement tag start first).grown inside t'
          afterText').closeElement e (b.grown d t afterText).opened stop) =
        b.grown (d ++ [.element (tag.toTag start stop) inside]) t' false := by
  refine ⟨_, rfl, rfl, rfl, ?_⟩
  cases b with
  | mk opened =>
    cases opened <;>
      simp [grown, closeElement, openElement, addNode, setCurrent, current, WrittenTag.toTag]

end Builder

/-! ## Turns of the loop -/

/-- How often the reader of content turns for a text. -/
def textTurns (value : String) : Nat := if value.isEmpty then 0 else 1

/-- How often the reader of content turns for content. -/
def Mixed.turns : Mixed → Nat
  | text value => textTurns value
  | leaf before _ after => textTurns before + 1 + after.turns
  | branch before _ inside after => textTurns before + 1 + inside.turns + 1 + after.turns

namespace Read

variable {i : Read Unit} {b : Builder} {o : Nat} {l : List Char} {d : List Node}
  {t : TagName}

/-- What does not start as markup is read as text. -/
lemma run_contentLoop_text {c : Char} (hc : c ≠ '<') (fuel depth : Nat) :
    (contentLoop i (fuel + 1) depth).run ⟨⟨c :: l, o⟩, b⟩ =
      (text i >>= fun _ => contentLoop i fuel depth).run ⟨⟨c :: l, o⟩, b⟩ := by
  rw [contentLoop, run_bind_of_ok run_rest]
  split
  case h_1 e => cases e
  case h_7 => rfl
  all_goals
    rename_i e
    cases e
    exact absurd rfl hc

/-- The text before a tag is attached, if there is any. -/
lemma run_contentLoop_before (hb : b.entityDepth = 0) {value : String}
    (hv : isPlainText value = true) (ht : l.head? = some '<') (fuel depth : Nat) :
    (contentLoop i (fuel + textTurns value) depth).run
        ⟨⟨escapeChars value.toList ++ l, o⟩, b.grown d t false⟩ =
      (contentLoop i fuel depth).run
        ⟨⟨l, o + Text.byteLength (escapeChars value.toList)⟩,
          b.grown (d ++ textNodes value) t (!value.isEmpty)⟩ := by
  by_cases he : value = ""
  · subst he
    rw [show textNodes "" = [] from rfl, List.append_nil]
    rfl
  · have hd : (b.grown d t false).entityDepth = 0 := by rw [Builder.entityDepth_grown, hb]
    have step := run_text (i := i) (o := o) hd hv he ht
    have empty : value.isEmpty = false := by simp [he]
    cases e : escapeChars value.toList with
    | nil =>
      have h := length_le_length_escapeChars value.toList
      rw [e] at h
      exact absurd (String.toList_eq_nil_iff.1 (List.length_eq_zero_iff.1 (Nat.le_zero.1 h))) he
    | cons c text =>
      have hc : c ≠ '<' := (mem_escapeChars (fun c m => (isPlainText_iff.1 hv c m).1)
        (e ▸ List.mem_cons_self)).2.1
      rw [e, List.cons_append] at step
      simp only [textTurns, textNodes, empty, Bool.false_eq_true, if_false, Bool.not_false]
      rw [List.cons_append, run_contentLoop_text hc, run_bind_of_ok step, Builder.addText_grown]

/-- What starts with a start tag is read as one. -/
lemma run_contentLoop_startTag {tag : WrittenTag} (ht : tag.Sound) {follow : List Char}
    (fuel depth : Nat) :
    (contentLoop i (fuel + 1) depth).run ⟨⟨tag.opening ++ follow, o⟩, b⟩ =
      (startTag >>= fun opened =>
        if opened then contentLoop i fuel (depth + 1) else contentLoop i fuel depth).run
        ⟨⟨tag.opening ++ follow, o⟩, b⟩ := by
  obtain ⟨c, text, e, hc⟩ := head_of_isPlainName ht.name
  obtain ⟨-, hslash, -, hbang, hquest⟩ := ne_of_isNameStart hc
  rw [WrittenTag.opening, e, List.cons_append, List.cons_append, List.cons_append, contentLoop,
    run_bind_of_ok run_rest]
  split
  case h_1 e => cases e
  case h_2 e => cases e; exact absurd rfl hbang
  case h_3 e => cases e; exact absurd rfl hquest
  case h_4 e => cases e; exact absurd rfl hslash
  case h_5 e => cases e
  case h_6 => rfl
  case h_7 e => exact absurd rfl (e _)

/-- What starts with an end tag is read as one, and the content around its element goes on. -/
lemma run_contentLoop_endTag {tag : WrittenTag} (fuel depth : Nat) :
    (contentLoop i (fuel + 1) (depth + 2)).run ⟨⟨tag.closing ++ l, o⟩, b⟩ =
      (endTag >>= fun _ => contentLoop i fuel (depth + 1)).run
        ⟨⟨tag.closing ++ l, o⟩, b⟩ := rfl

/-- Reading the printed form of sound content attaches its nodes. -/
theorem run_contentLoop_print (hb : b.entityDepth = 0) {m : Mixed} (hm : m.Sound)
    (ht : l.head? = some '<') (fuel depth : Nat) :
    ∃ t', (contentLoop i (fuel + m.turns) (depth + 1)).run
        ⟨⟨m.print ++ l, o⟩, b.grown d t false⟩ =
      (contentLoop i fuel (depth + 1)).run
        ⟨⟨l, o + Text.byteLength m.print⟩, b.grown (d ++ m.nodes o) t' m.endsInText⟩ := by
  -- The builder, the place and what follows change from one tag to the next, so the claim is about
  -- all of them.
  induction m generalizing b o d t l fuel depth with
  | text value => exact ⟨t, run_contentLoop_before hb hm ht fuel (depth + 1)⟩
  | leaf before tag after ih =>
    obtain ⟨hbefore, htag, hafter⟩ := hm
    let start := o + Text.byteLength (escapeChars before.toList)
    let stop := start + Text.byteLength tag.opening + 2
    let shown := d ++ textNodes before ++ [.element (tag.toTag start stop) []]
    have turns : fuel + (Mixed.leaf before tag after).turns =
        fuel + after.turns + 1 + textTurns before := by
      simp only [Mixed.turns]
      omega
    have print : (Mixed.leaf before tag after).print ++ l =
        escapeChars before.toList ++ (tag.opening ++ '/' :: '>' :: (after.print ++ l)) := by
      simp only [Mixed.print, List.append_assoc, List.cons_append]
    have length : o + Text.byteLength (Mixed.leaf before tag after).print =
        stop + Text.byteLength after.print := by
      simp only [Mixed.print, Text.byteLength_append, Text.byteLength_cons, ← Nat.add_assoc]
      rfl
    have nodes : d ++ (Mixed.leaf before tag after).nodes o = shown ++ after.nodes stop := by
      simp only [Mixed.nodes, shown, List.append_assoc, List.singleton_append]
      rfl
    have hd : (b.grown (d ++ textNodes before) t (!before.isEmpty)).entityDepth = 0 := by
      rw [Builder.entityDepth_grown, hb]
    have element := run_startTag_empty (o := start) (l := after.print ++ l) hd rfl rfl htag
    rw [Builder.addLeaf_grown] at element
    obtain ⟨t', rest⟩ := ih (o := stop) (d := shown) (t := ⟨"", tag.name, start⟩) hb hafter ht
      fuel depth
    -- Text before the tag, the tag, and what comes behind it.
    refine ⟨t', ?_⟩
    rw [turns, print, length, nodes]
    calc (contentLoop i (fuel + after.turns + 1 + textTurns before) (depth + 1)).run
            ⟨⟨escapeChars before.toList ++ (tag.opening ++ '/' :: '>' :: (after.print ++ l)), o⟩,
              b.grown d t false⟩
        = (contentLoop i (fuel + after.turns + 1) (depth + 1)).run
            ⟨⟨tag.opening ++ '/' :: '>' :: (after.print ++ l), start⟩,
              b.grown (d ++ textNodes before) t (!before.isEmpty)⟩ :=
          run_contentLoop_before hb hbefore rfl _ _
      _ = (contentLoop i (fuel + after.turns) (depth + 1)).run
            ⟨⟨after.print ++ l, stop⟩, b.grown shown ⟨"", tag.name, start⟩ false⟩ := by
          rw [run_contentLoop_startTag htag, run_bind_of_ok element]
          rfl
      _ = (contentLoop i fuel (depth + 1)).run
            ⟨⟨l, stop + Text.byteLength after.print⟩,
              b.grown (shown ++ after.nodes stop) t' after.endsInText⟩ := rest
  | branch before tag inside after ihinside ihafter =>
    obtain ⟨hbefore, htag, hinside, hafter⟩ := hm
    let start := o + Text.byteLength (escapeChars before.toList)
    let first := start + Text.byteLength tag.opening + 1
    let last := first + Text.byteLength inside.print
    let stop := last + Text.byteLength tag.closing
    let shown := d ++ textNodes before ++ [.element (tag.toTag start stop) (inside.nodes first)]
    have turns : fuel + (Mixed.branch before tag inside after).turns =
        fuel + after.turns + 1 + inside.turns + 1 + textTurns before := by
      simp only [Mixed.turns]
      omega
    have print : (Mixed.branch before tag inside after).print ++ l =
        escapeChars before.toList ++ (tag.opening ++ '>' ::
          (inside.print ++ (tag.closing ++ (after.print ++ l)))) := by
      simp only [Mixed.print, List.append_assoc, List.cons_append]
    have length : o + Text.byteLength (Mixed.branch before tag inside after).print =
        stop + Text.byteLength after.print := by
      simp only [Mixed.print, Text.byteLength_append, Text.byteLength_cons, ← Nat.add_assoc]
      rfl
    have nodes : d ++ (Mixed.branch before tag inside after).nodes o =
        shown ++ after.nodes stop := by
      simp only [Mixed.nodes, shown, List.append_assoc, List.singleton_append]
      rfl
    -- The element around the content inside, before its tag is read.
    let around := b.grown (d ++ textNodes before) t (!before.isEmpty)
    have hd : around.entityDepth = 0 := by rw [Builder.entityDepth_grown, hb]
    have opens := run_startTag_open (o := start)
      (l := inside.print ++ (tag.closing ++ (after.print ++ l))) hd rfl rfl htag
    obtain ⟨t₁, content⟩ := ihinside (b := around.openElement tag start first) (o := first)
      (d := []) (t := ⟨"", tag.name, start⟩) (l := tag.closing ++ (after.print ++ l))
      hd hinside rfl (fuel + after.turns + 1) (depth + 1)
    -- Inside, the opened element is on top of the stack whatever has been attached to it.
    obtain ⟨e, hopened, hspace, hname, hclose⟩ := Builder.closeElement_grown (b := b)
      (d := d ++ textNodes before) (t := t) (!before.isEmpty) inside.endsInText tag start first
      stop (inside.nodes first) t₁
    have closes := run_endTag (o := last) (l := after.print ++ l) rfl rfl htag.name hopened
      hspace hname
    obtain ⟨t', rest⟩ := ihafter (o := stop) (d := shown) (t := t₁) hb hafter ht fuel depth
    refine ⟨t', ?_⟩
    rw [turns, print, length, nodes]
    calc (contentLoop i (fuel + after.turns + 1 + inside.turns + 1 + textTurns before)
            (depth + 1)).run
            ⟨⟨escapeChars before.toList ++ (tag.opening ++ '>' ::
              (inside.print ++ (tag.closing ++ (after.print ++ l)))), o⟩, b.grown d t false⟩
        = (contentLoop i (fuel + after.turns + 1 + inside.turns + 1) (depth + 1)).run
            ⟨⟨tag.opening ++ '>' :: (inside.print ++ (tag.closing ++ (after.print ++ l))), start⟩,
              around⟩ :=
          run_contentLoop_before hb hbefore rfl _ _
      _ = (contentLoop i (fuel + after.turns + 1 + inside.turns) (depth + 2)).run
            ⟨⟨inside.print ++ (tag.closing ++ (after.print ++ l)), first⟩,
              around.openElement tag start first⟩ := by
          rw [run_contentLoop_startTag htag, run_bind_of_ok opens]
          rfl
      _ = (contentLoop i (fuel + after.turns + 1) (depth + 2)).run
            ⟨⟨tag.closing ++ (after.print ++ l), last⟩,
              (around.openElement tag start first).grown (inside.nodes first) t₁
                inside.endsInText⟩ := content
      _ = (contentLoop i (fuel + after.turns) (depth + 1)).run
            ⟨⟨after.print ++ l, stop⟩, b.grown shown t₁ false⟩ := by
          rw [run_contentLoop_endTag, run_bind_of_ok closes, hclose]
      _ = (contentLoop i fuel (depth + 1)).run
            ⟨⟨l, stop + Text.byteLength after.print⟩,
              b.grown (shown ++ after.nodes stop) t' after.endsInText⟩ := rest

end Read

end MessageCatalog.Markup
