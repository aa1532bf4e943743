import MessageCatalog.Proofs.Markup.Documents

/-!
# Reading behind a prologue

A declaration of the document and a document type whose declarations are skipped add nothing to the
tree: the root element behind them is read as if the document started with it, further back in the
file.
-/

namespace MessageCatalog.Markup

open Text (Leaves)

/-- The end of the declaration of a document, which some writers print behind a blank. -/
def declarationEnd (spaced : Bool) : List Char := (if spaced then " ?>" else "?>").toList

/-- The declaration of a document, as writers print it. -/
def xmlDeclaration (spaced : Bool) : List Char :=
  "<?xml".toList ++ ' ' :: (printAttribute ("version", "1.0") ++
    ' ' :: (printAttribute ("encoding", "UTF-8") ++ declarationEnd spaced))

/-- How a document type starts. -/
def typeStart : List Char := "<!DOCTYPE".toList

/-- A document type as it is written, behind the declaration of the document. -/
structure WrittenType where
  /-- Whether the declaration ends behind a blank. -/
  spaced : Bool := false
  name : String
  lines : List String

/-- Whether a line of a document type is blank or a declaration that is skipped. -/
def isTypeLine (line : List Char) : Bool :=
  line = ['\n'] ||
    (Text.startsWith "<!ELEMENT".toList line || Text.startsWith "<!ATTLIST".toList line) &&
      line.dropWhile (· ≠ '>') = ['>', '\n']

namespace WrittenType

/-- The printed form of a document type. -/
def print (t : WrittenType) : List Char :=
  typeStart ++ ' ' :: (t.name.toList ++
    ' ' :: '[' :: '\n' :: (t.lines.flatMap String.toList ++ [']', '>']))

/-- The printed form of everything before the root element. -/
def prologue (t : WrittenType) : List Char :=
  xmlDeclaration t.spaced ++ '\n' :: (t.print ++ ['\n'])

/-- The prologue as a text. -/
lemma ofList_prologue (t : WrittenType) :
    String.ofList t.prologue =
      (if t.spaced then "<?xml version=\"1.0\" encoding=\"UTF-8\" ?>\n"
        else "<?xml version=\"1.0\" encoding=\"UTF-8\"?>\n") ++
        (("<!DOCTYPE " ++ t.name ++ " [\n") ++ (String.join t.lines ++ "]>\n")) := by
  have declaration : (if t.spaced then "<?xml version=\"1.0\" encoding=\"UTF-8\" ?>\n"
      else "<?xml version=\"1.0\" encoding=\"UTF-8\"?>\n").toList =
        xmlDeclaration t.spaced ++ ['\n'] := by
    cases t.spaced <;> decide
  have start : "<!DOCTYPE ".toList = typeStart ++ [' '] := by decide
  apply String.toList_inj.1
  rw [String.toList_ofList, String.toList_append, String.toList_append, String.toList_append,
    String.toList_append, String.toList_append, String.toList_join, declaration, start]
  simp only [prologue, print, List.append_assoc, List.cons_append, List.nil_append]
  rfl

/-- What makes a document type readable. -/
structure Sound (t : WrittenType) : Prop where
  name : isPlainName t.name = true
  lines : ∀ line ∈ t.lines, isTypeLine line.toList = true

end WrittenType

namespace Read

variable {b : Builder} {o : Nat} {l : List Char}

/-- A blank in the declaration of a document is skipped. -/
lemma run_declarationSpaces (ht : Leaves isSpace l) :
    declarationSpaces.run ⟨⟨' ' :: l, o⟩, b⟩ = .ok ((), ⟨⟨l, o + 1⟩, b⟩) := by
  rw [declarationSpaces, run_bind_of_ok (run_atSpace ' '), if_pos (by decide)]
  exact run_skipSpaces [' '] (List.forall_mem_singleton.2 rfl) ht

/-- The declaration of a document is skipped. -/
lemma run_declaration (spaced : Bool) :
    declaration.run ⟨⟨xmlDeclaration spaced ++ l, o⟩, b⟩ =
      .ok ((), ⟨⟨l, o + Text.byteLength (xmlDeclaration spaced)⟩, b⟩) := by
  -- up to its end the declaration is one fixed text, so each offset in it is a number
  let behind := declarationEnd spaced ++ l
  let last := "?>".toList ++ l
  let stop := o + if spaced then 37 else 36
  let encoding := printAttribute ("encoding", "UTF-8") ++ behind
  let version := printAttribute ("version", "1.0") ++ ' ' :: encoding
  have starts : (skip "<?xml".length).run ⟨⟨xmlDeclaration spaced ++ l, o⟩, b⟩ =
      .ok ((), ⟨⟨' ' :: version, o + 5⟩, b⟩) := run_skip _ rfl
  have first : declarationSpaces.run ⟨⟨' ' :: version, o + 5⟩, b⟩ =
      .ok ((), ⟨⟨version, o + 6⟩, b⟩) := run_declarationSpaces (.cons rfl)
  have second : declarationSpaces.run ⟨⟨' ' :: encoding, o + 19⟩, b⟩ =
      .ok ((), ⟨⟨encoding, o + 20⟩, b⟩) := run_declarationSpaces (.cons rfl)
  have third : declarationSpaces.run ⟨⟨behind, o + 36⟩, b⟩ = .ok ((), ⟨⟨last, stop⟩, b⟩) := by
    cases spaced with
    | false => rfl
    | true => exact run_declarationSpaces (.cons rfl)
  have hasVersion : (ahead "version").run ⟨⟨version, o + 6⟩, b⟩ =
      .ok (true, ⟨⟨version, o + 6⟩, b⟩) := rfl
  have hasEncoding : (ahead "encoding").run ⟨⟨encoding, o + 20⟩, b⟩ =
      .ok (true, ⟨⟨encoding, o + 20⟩, b⟩) := rfl
  have alone : (ahead "standalone").run ⟨⟨last, stop⟩, b⟩ =
      .ok (false, ⟨⟨last, stop⟩, b⟩) := rfl
  have takesVersion : attributeParts.run ⟨⟨version, o + 6⟩, b⟩ =
      .ok (_, ⟨⟨' ' :: encoding, o + 19⟩, b⟩) :=
    run_attributeParts (a := ("version", "1.0")) (by decide) (by decide)
  have takesEncoding : attributeParts.run ⟨⟨encoding, o + 20⟩, b⟩ =
      .ok (_, ⟨⟨behind, o + 36⟩, b⟩) :=
    run_attributeParts (a := ("encoding", "UTF-8")) (by decide) (by decide)
  have noSpaces : skipSpaces.run ⟨⟨last, stop⟩, b⟩ = .ok ((), ⟨⟨last, stop⟩, b⟩) :=
    run_skipSpaces_nil (.cons rfl)
  have length : o + Text.byteLength (xmlDeclaration spaced) = stop + 2 := by
    cases spaced <;> rfl
  rw [length, declaration, run_bind_of_ok starts, run_bind_of_ok first, run_bind_of_ok hasVersion]
  dsimp only
  rw [if_neg (by decide), run_bind_of_ok takesVersion, run_bind_of_ok second,
    run_bind_of_ok hasEncoding, if_pos rfl, run_bind_of_ok takesEncoding, run_bind_of_ok third,
    run_bind_of_ok alone, if_neg Bool.false_ne_true, run_bind_of_ok noSpaces]
  exact run_expectText "?>"

/-- A line with a declaration names it and ends where the declaration does. -/
structure IsDeclarationLine (line text : List Char) : Prop where
  ends : line = text ++ ['>', '\n']
  inside : ∀ c ∈ text, decide (c ≠ '>') = true
  names : ∃ name ∈ ["<!ELEMENT", "<!ATTLIST"], ∃ more, line = name.toList ++ more

/-- A line of a document type is empty or a declaration. -/
lemma isTypeLine_cases {line : List Char} (h : isTypeLine line = true) :
    line = ['\n'] ∨ ∃ text, IsDeclarationLine line text := by
  rw [isTypeLine, Bool.or_eq_true, Bool.and_eq_true, Bool.or_eq_true, decide_eq_true_eq,
    decide_eq_true_eq] at h
  refine h.imp_right fun ⟨hname, hclose⟩ => ⟨line.takeWhile (· ≠ '>'), ?_, ?_, ?_⟩
  case refine_1 =>
    rw [← hclose]
    exact List.takeWhile_append_dropWhile.symm
  case refine_2 => exact List.all_eq_true.1 List.all_takeWhile
  case refine_3 =>
    cases hname with
    | inl element => exact ⟨_, List.mem_cons_self, Text.eq_append_of_startsWith element⟩
    | inr attributes =>
      exact ⟨_, List.mem_cons_of_mem _ List.mem_cons_self, Text.eq_append_of_startsWith attributes⟩

/-- A declaration that is skipped does nothing. -/
lemma run_typeDeclarations_line {front line text : List Char}
    (hf : ∀ c ∈ front, isSpace c = true) (h : IsDeclarationLine line text) (fuel : Nat) :
    (typeDeclarations (fuel + 1)).run ⟨⟨front ++ (line ++ l), o⟩, b⟩ =
      (typeDeclarations fuel).run
        ⟨⟨'\n' :: l, o + Text.byteLength front + Text.byteLength text + 1⟩, b⟩ := by
  let left := line ++ l
  let place := o + Text.byteLength front
  -- the forms that are tried before a skipped declaration all begin otherwise
  obtain ⟨noEntity, noComment, noInstruction, noEnd, leaves, skipped⟩ :
      Text.startsWith "<!ENTITY".toList left = false ∧ Text.startsWith "<!--".toList left = false ∧
        Text.startsWith "<?".toList left = false ∧ Text.startsWith "]".toList left = false ∧
        Leaves isSpace left ∧
        aheadSkipped.run ⟨⟨left, place⟩, b⟩ = .ok (true, ⟨⟨left, place⟩, b⟩) := by
    obtain ⟨name, hname, more, e⟩ := h.names
    simp only [left, e]
    rcases List.mem_cons.1 hname with rfl | hname
    · exact ⟨rfl, rfl, rfl, rfl, .cons rfl, rfl⟩
    · rw [List.mem_singleton.1 hname]
      exact ⟨rfl, rfl, rfl, rfl, .cons rfl, rfl⟩
  have takes : (takeWhile (· ≠ '>')).run ⟨⟨left, place⟩, b⟩ =
      .ok (text, ⟨⟨'>' :: '\n' :: l, place + Text.byteLength text⟩, b⟩) := by
    have split : left = text ++ '>' :: '\n' :: l := by
      simp only [left, h.ends, List.append_assoc, List.cons_append, List.nil_append]
    rw [split]
    exact run_takeWhile h.inside (.cons rfl)
  have notEmpty : (front ++ left).isEmpty = false := by
    simp [left, h.ends]
  rw [typeDeclarations, run_bind_of_ok run_rest, notEmpty,
    if_neg Bool.false_ne_true, run_bind_of_ok (run_skipSpaces front hf leaves),
    run_bind_of_ok (run_ahead _), noEntity, if_neg Bool.false_ne_true,
    run_bind_of_ok (run_ahead _), noComment, if_neg Bool.false_ne_true,
    run_bind_of_ok (run_ahead _), noInstruction, if_neg Bool.false_ne_true,
    run_bind_of_ok (run_ahead _), noEnd, if_neg Bool.false_ne_true, run_bind_of_ok skipped,
    if_pos rfl, run_bind_of_ok takes, run_bind_of_ok run_rest]
  dsimp only
  rw [List.isEmpty_cons, if_neg Bool.false_ne_true, run_bind_of_ok (run_skip_one '>')]
  rfl

/-- Behind its lines a document type ends. -/
lemma run_typeDeclarations_end {front : List Char} (hf : ∀ c ∈ front, isSpace c = true)
    (fuel : Nat) :
    (typeDeclarations (fuel + 1)).run ⟨⟨front ++ ']' :: '>' :: l, o⟩, b⟩ =
      .ok ((), ⟨⟨l, o + Text.byteLength front + 2⟩, b⟩) := by
  have notEmpty : (front ++ ']' :: '>' :: l).isEmpty = false := by
    simp
  have skips : skipSpaces.run ⟨⟨front ++ ']' :: '>' :: l, o⟩, b⟩ =
      .ok ((), ⟨⟨']' :: '>' :: l, o + Text.byteLength front⟩, b⟩) :=
    run_skipSpaces front hf (.cons rfl)
  rw [typeDeclarations, run_bind_of_ok run_rest, notEmpty, if_neg Bool.false_ne_true,
    run_bind_of_ok skips]
  rfl

/-- The lines of a document type do nothing. -/
lemma run_typeDeclarations {lines : List String}
    (h : ∀ line ∈ lines, isTypeLine line.toList = true) {front : List Char}
    (hf : ∀ c ∈ front, isSpace c = true) (fuel : Nat) :
    (typeDeclarations (fuel + 1 + lines.length)).run
        ⟨⟨front ++ (lines.flatMap String.toList ++ ']' :: '>' :: l), o⟩, b⟩ =
      .ok ((), ⟨⟨l, o + Text.byteLength front +
        Text.byteLength (lines.flatMap String.toList) + 2⟩, b⟩) := by
  induction lines generalizing front o fuel with
  | nil => exact run_typeDeclarations_end hf fuel
  | cons line rest ih =>
    have hrest : ∀ line ∈ rest, isTypeLine line.toList = true :=
      fun line m => h line (List.mem_cons_of_mem _ m)
    rw [List.flatMap_cons, List.append_assoc, List.length_cons, Text.byteLength_append]
    rcases isTypeLine_cases (h line List.mem_cons_self) with blank | ⟨text, declaration⟩
    -- A blank line is skipped with the white space before the next declaration, in the same turn.
    · have hf' : ∀ c ∈ front ++ ['\n'], isSpace c = true :=
        List.forall_mem_append.2 ⟨hf, List.forall_mem_singleton.2 rfl⟩
      have next := ih (o := o) hrest hf' (fuel + 1)
      rw [Text.byteLength_append, List.append_assoc] at next
      rw [blank, ← Nat.add_assoc, Nat.add_right_comm (fuel + 1), ← Nat.add_assoc]
      exact next
    -- A declaration takes a turn, and leaves the end of its line before the next one.
    · have next := ih (o := o + Text.byteLength front + Text.byteLength text + 1) hrest
        (List.forall_mem_singleton.2 rfl : ∀ c ∈ ['\n'], isSpace c = true) fuel
      have length : Text.byteLength line.toList = Text.byteLength text + 1 + 1 := by
        rw [declaration.ends, Text.byteLength_append]
        rfl
      have place : o + Text.byteLength front + (Text.byteLength line.toList +
          Text.byteLength (rest.flatMap String.toList)) + 2 =
          o + Text.byteLength front + Text.byteLength text + 1 + Text.byteLength ['\n'] +
            Text.byteLength (rest.flatMap String.toList) + 2 := by
        rw [length, show Text.byteLength ['\n'] = 1 from rfl]
        omega
      rw [← Nat.add_assoc, run_typeDeclarations_line hf declaration, place]
      exact next

/-- Every line takes at least a character. -/
lemma length_le_length_lines {lines : List String}
    (h : ∀ line ∈ lines, isTypeLine line.toList = true) :
    lines.length ≤ (lines.flatMap String.toList).length := by
  induction lines with
  | nil => exact Nat.zero_le 0
  | cons line rest ih =>
    have next := ih fun line m => h line (List.mem_cons_of_mem _ m)
    have pos : 1 ≤ line.toList.length := by
      rcases isTypeLine_cases (h line List.mem_cons_self) with blank | ⟨text, declaration⟩
      · rw [blank]
        exact Nat.le_refl 1
      · rw [declaration.ends, List.length_append]
        exact Nat.le_add_left_of_le (by decide)
    rw [List.flatMap_cons, List.length_append, List.length_cons]
    omega

/-- A name is skipped. -/
lemma run_skipName {name : String} (h : isPlainName name = true) (ht : Leaves isNameChar l) :
    skipName.run ⟨⟨name.toList ++ l, o⟩, b⟩ =
      .ok ((), ⟨⟨l, o + Text.byteLength name.toList⟩, b⟩) := by
  obtain ⟨c, text, e, hc⟩ := head_of_isPlainName h
  have hf : ∀ c ∈ name.toList, isNameChar c = true := fun c m => ((isPlainName_iff.1 h).2 c m).1
  have takes := run_takeWhile (b := b) (o := o) hf ht
  rw [e] at takes ⊢
  have names : Read.name.run ⟨⟨c :: text ++ l, o⟩, b⟩ =
      .ok (String.ofList (c :: text), ⟨⟨l, o + Text.byteLength (c :: text)⟩, b⟩) := by
    rw [Read.name, run_bind_of_ok run_offset, List.cons_append, run_bind_of_ok run_rest]
    dsimp only
    rw [if_pos hc, ← List.cons_append, run_bind_of_ok takes]
    rfl
  rw [skipName, List.cons_append, run_bind_of_ok run_rest]
  dsimp only
  rw [← List.cons_append, run_bind_of_ok names]
  rfl

/-- A document type is skipped. -/
lemma run_documentType {t : WrittenType} (ht : t.Sound) :
    documentType.run ⟨⟨t.print ++ l, o⟩, b⟩ =
      .ok ((), ⟨⟨l, o + Text.byteLength t.print⟩, b⟩) := by
  let declarations := ['\n'] ++ (t.lines.flatMap String.toList ++ ']' :: '>' :: l)
  let named := o + 10 + Text.byteLength t.name.toList
  have print : t.print ++ l =
      typeStart ++ ' ' :: (t.name.toList ++ ' ' :: '[' :: declarations) := by
    simp only [WrittenType.print, declarations, List.append_assoc, List.cons_append,
      List.nil_append]
  have length : o + Text.byteLength t.print =
      named + 2 + 1 + Text.byteLength (t.lines.flatMap String.toList) + 2 := by
    rw [WrittenType.print, Text.byteLength_append, Text.byteLength_cons, Text.byteLength_append,
      Text.byteLength_cons, Text.byteLength_cons, Text.byteLength_cons, Text.byteLength_append]
    change o + (9 + (1 + (_ + (1 + (1 + (1 + (_ + 2))))))) = o + 10 + _ + 2 + 1 + _ + 2
    omega
  obtain ⟨c, text, name, hc⟩ := head_of_isPlainName ht.name
  have leaves : Leaves isSpace (t.name.toList ++ ' ' :: '[' :: declarations) := by
    rw [name]
    exact .cons (ne_of_isNameStart hc).1
  have starts : (skip "<!DOCTYPE".length).run ⟨⟨t.print ++ l, o⟩, b⟩ =
      .ok ((), ⟨⟨' ' :: (t.name.toList ++ ' ' :: '[' :: declarations), o + 9⟩, b⟩) := by
    rw [print]
    exact run_skip _ rfl
  have space : expectSpaces.run ⟨⟨' ' :: (t.name.toList ++ ' ' :: '[' :: declarations), o + 9⟩, b⟩ =
      .ok ((), ⟨⟨t.name.toList ++ ' ' :: '[' :: declarations, o + 10⟩, b⟩) := by
    rw [expectSpaces, run_bind_of_ok (run_peek ' '), if_pos (by decide)]
    exact run_skipSpaces [' '] (List.forall_mem_singleton.2 rfl) leaves
  have skips : skipName.run ⟨⟨t.name.toList ++ ' ' :: '[' :: declarations, o + 10⟩, b⟩ =
      .ok ((), ⟨⟨' ' :: '[' :: declarations, named⟩, b⟩) := run_skipName ht.name (.cons rfl)
  have second : skipSpaces.run ⟨⟨' ' :: '[' :: declarations, named⟩, b⟩ =
      .ok ((), ⟨⟨'[' :: declarations, named + 1⟩, b⟩) :=
    run_skipSpaces [' '] (List.forall_mem_singleton.2 rfl) (.cons rfl)
  -- The type is declared in the document itself.
  have noPlace : externalId.run ⟨⟨'[' :: declarations, named + 1⟩, b⟩ =
      .ok (false, ⟨⟨'[' :: declarations, named + 1⟩, b⟩) := rfl
  have third : skipSpaces.run ⟨⟨'[' :: declarations, named + 1⟩, b⟩ =
      .ok ((), ⟨⟨'[' :: declarations, named + 1⟩, b⟩) := run_skipSpaces_nil (.cons rfl)
  obtain ⟨n, fuel⟩ : ∃ n, declarations.length + 1 = n + 1 + t.lines.length := by
    have h := length_le_length_lines ht.lines
    refine ⟨declarations.length - t.lines.length, ?_⟩
    simp only [declarations, List.length_append] at h ⊢
    omega
  rw [length, documentType, run_bind_of_ok starts, run_bind_of_ok space, run_bind_of_ok skips,
    run_bind_of_ok second, run_bind_of_ok noPlace, run_bind_of_ok third,
    run_bind_of_ok (run_peek '['), if_pos rfl, run_bind_of_ok (run_skip_one '['),
    run_bind_of_ok run_rest, fuel]
  exact run_typeDeclarations ht.lines (List.forall_mem_singleton.2 rfl) n

/-- A document behind a prologue is read as its root element. -/
lemma run_document_behind {t : WrittenType} (ht : t.Sound) {e : WrittenElement} (he : e.Sound) :
    ∃ b', document.run { cursor := ⟨t.prologue ++ (e.print ++ ['\n']), 0⟩ } =
        .ok ((), ⟨⟨[], e.stop (Text.byteLength t.prologue) + 1⟩, b'⟩) ∧
      HoldsRoot e (Text.byteLength t.prologue) b' := by
  let root := e.print ++ ['\n']
  let typed := t.print ++ ('\n' :: root)
  let stop := Text.byteLength (xmlDeclaration t.spaced)
  obtain ⟨b', reads, holds⟩ := run_rootElement (b := {}) (o := Text.byteLength t.prologue) rfl rfl
    rfl rfl rfl he (t.prologue ++ root).length
  have print : t.prologue ++ root = xmlDeclaration t.spaced ++ '\n' :: typed := by
    simp only [WrittenType.prologue, typed, List.append_assoc, List.cons_append, List.nil_append]
  have noMark : Text.startsWith "\uFEFF".toList (t.prologue ++ root) = false := rfl
  have declared : Text.startsWith "<?xml ".toList (t.prologue ++ root) = true := rfl
  have declares : declaration.run { cursor := ⟨t.prologue ++ root, 0⟩ } =
      .ok ((), { cursor := ⟨'\n' :: typed, stop⟩ }) := by
    rw [print, run_declaration t.spaced, Nat.zero_add]
  have spaces : (misc ((t.prologue ++ root).length + 1)).run { cursor := ⟨'\n' :: typed, stop⟩ } =
      .ok ((), { cursor := ⟨typed, stop + 1⟩ }) :=
    run_misc ['\n'] (List.forall_mem_singleton.2 rfl) (.cons rfl) rfl rfl _
  have noSpaces : skipSpaces.run { cursor := ⟨typed, stop + 1⟩ } =
      .ok ((), { cursor := ⟨typed, stop + 1⟩ }) :=
    run_skipSpaces_nil (.cons rfl)
  have isTyped : Text.startsWith "<!DOCTYPE".toList typed = true := rfl
  have types : documentType.run { cursor := ⟨typed, stop + 1⟩ } =
      .ok ((), { cursor := ⟨'\n' :: root, stop + 1 + Text.byteLength t.print⟩ }) :=
    run_documentType ht
  have length : Text.byteLength t.prologue = stop + 1 + Text.byteLength t.print + 1 := by
    rw [WrittenType.prologue, Text.byteLength_append, Text.byteLength_cons, Text.byteLength_append]
    change stop + (1 + (_ + 1)) = _
    omega
  have last : (misc ((t.prologue ++ root).length + 1)).run
      { cursor := ⟨'\n' :: root, stop + 1 + Text.byteLength t.print⟩ } =
        .ok ((), { cursor := ⟨root, Text.byteLength t.prologue⟩ }) := by
    rw [length]
    exact run_misc_print he ['\n'] (List.forall_mem_singleton.2 rfl) _
  refine ⟨b', ?_, holds⟩
  rw [document_eq, run_bind_of_ok run_rest]
  dsimp only
  rw [run_bind_of_ok (run_ahead _), noMark, if_neg Bool.false_ne_true,
    run_bind_of_ok (run_ahead _), declared, if_pos rfl, run_bind_of_ok declares,
    run_bind_of_ok spaces, run_bind_of_ok noSpaces, run_bind_of_ok (run_ahead _), isTyped,
    if_pos rfl, run_bind_of_ok types, run_bind_of_ok last]
  exact reads

end Read

/-- Reading undoes printing also behind a prologue. -/
theorem read_prologue_print {t : WrittenType} (ht : t.Sound) {e : WrittenElement} (he : e.Sound) :
    read (String.ofList (t.prologue ++ (e.print ++ ['\n']))) =
      .ok (e.toElement (Text.byteLength t.prologue)) := by
  obtain ⟨b, reads, holds⟩ := Read.run_document_behind ht he
  rw [read, String.toList_ofList, reads]
  exact holds.root

end MessageCatalog.Markup
