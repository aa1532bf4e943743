import MessageCatalog.Proofs.BlockEnd
import MessageCatalog.Script.Quoted

/-!
# Blocks as a template writes them

The raw text of a template is a row of characters and escapes, each of which stands for a cooked
character, or for none where a line goes on. The walk that looks for the end of a block takes a
backslash and the next character for a cooked character. So it falls behind at every escape that is
longer, and at every line that goes on, and from there on it looks at what belongs to an earlier
character. It ends at the first marker that is written as it is exactly when it sees a backslash for
the markers that are escaped, and none for the one that is not.
-/

namespace MessageCatalog.Template

open Script (hexDigit? hexValue? maxCodePoint)
open Script.Quoted (isLineEnd isSurrogate shortEscape unescape? piecesFrom escape)
open Block (marker isEscaped endIndex)

/-! ## Pieces -/

/-- A piece of a template as it is written. -/
inductive Piece where
  /-- A character as it is. -/
  | literal (c : Char) (plain : c ≠ '\\')
  /-- A backslash and a character that no longer escape begins with. -/
  | short (c : Char) (letter : c ≠ 'x' ∧ c ≠ 'u') (digit : c.isDigit = false)
    (sameLine : isLineEnd c = false)
  /-- `\x` and two digits. -/
  | byte (digits : List Char) (n : Nat) (value : hexValue? digits = some n)
    (length : digits.length = 2)
  /-- `\u` and four digits. -/
  | unit (digits : List Char) (n : Nat) (value : hexValue? digits = some n)
    (length : digits.length = 4) (whole : isSurrogate n = false)
  /-- `\u` and digits in braces. -/
  | codePoint (digits : List Char) (n : Nat) (value : hexValue? digits = some n)
    (nonempty : digits ≠ []) (le : n ≤ maxCodePoint) (whole : isSurrogate n = false)
  /-- A backslash at the end of a line, which goes on behind it. -/
  | lineBreak (c : Char) (ends : isLineEnd c = true) (newline : c ≠ '\r')

namespace Piece

/-- What is written. -/
def raw : Piece → List Char
  | literal c _ => [c]
  | short c _ _ _ => ['\\', c]
  | byte digits _ _ _ => '\\' :: 'x' :: digits
  | unit digits _ _ _ _ => '\\' :: 'u' :: digits
  | codePoint digits _ _ _ _ _ => '\\' :: 'u' :: '{' :: (digits ++ ['}'])
  | lineBreak c _ _ => ['\\', c]

/-- What that stands for. -/
def cooked : Piece → List Char
  | literal c _ => [c]
  | short c _ _ _ => [shortEscape c]
  | byte _ n _ _ | unit _ n _ _ _ | codePoint _ n _ _ _ _ => [Char.ofNat n]
  | lineBreak _ _ _ => []

/-- Whether a piece is a marker that is written as it is. -/
def isMarker : Piece → Bool
  | literal c _ => c = marker
  | _ => false

/-- Whether a piece is a character or a backslash and a character. -/
def isSteady : Piece → Bool
  | literal _ _ | short _ _ _ _ => true
  | _ => false

/-- The steps that a walk over the raw text makes of a piece, a backslash and the character behind
it being one step: whether each begins with a backslash. -/
def steps : Piece → List Bool
  | literal _ _ => [false]
  | p => true :: List.replicate (p.raw.length - 2) false

end Piece

/-- The raw text of a row of pieces. -/
def rawText (pieces : List Piece) : List Char := pieces.flatMap Piece.raw

/-- The cooked text of a row of pieces. -/
def cookedText (pieces : List Piece) : List Char := pieces.flatMap Piece.cooked

/-- The steps of a walk over the raw text of a row of pieces. -/
def stepsOf (pieces : List Piece) : List Bool := pieces.flatMap Piece.steps

section Rows

variable (p : Piece) (front pieces : List Piece)

/-- The raw text begins with that of the first piece. -/
lemma rawText_cons : rawText (p :: pieces) = p.raw ++ rawText pieces := List.flatMap_cons

/-- The cooked text begins with that of the first piece. -/
lemma cookedText_cons : cookedText (p :: pieces) = p.cooked ++ cookedText pieces :=
  List.flatMap_cons

/-- The cooked text of rows is put together. -/
lemma cookedText_append : cookedText (front ++ pieces) = cookedText front ++ cookedText pieces :=
  List.flatMap_append

/-- The walk begins with the steps of the first piece. -/
lemma stepsOf_cons : stepsOf (p :: pieces) = p.steps ++ stepsOf pieces := List.flatMap_cons

/-- The steps of rows are put together. -/
lemma stepsOf_append : stepsOf (front ++ pieces) = stepsOf front ++ stepsOf pieces :=
  List.flatMap_append

end Rows

/-! ## What is written is read -/

/-- A row of digits that has a value is made of digits. -/
lemma isSome_hexDigit? {digits : List Char} {before n : Nat}
    (value : digits.foldlM (fun n c => (hexDigit? c).map (n * 16 + ·)) before = some n) :
    ∀ c ∈ digits, (hexDigit? c).isSome := by
  induction digits generalizing before with
  | nil => exact nofun
  | cons c digits ih =>
    rw [List.foldlM_cons] at value
    obtain ⟨next, first, later⟩ := Option.bind_eq_some_iff.1 value
    refine List.forall_mem_cons.2 ⟨?_, ih later⟩
    rw [← Option.isSome_map, first]
    rfl

/-- A character that is no digit is not among digits. -/
lemma ne_of_mem_digits {digits : List Char} {n : Nat} (value : hexValue? digits = some n)
    {c d : Char} (member : c ∈ digits) (hd : hexDigit? d = none) : c ≠ d := by
  rintro rfl
  have isDigit := isSome_hexDigit? value c member
  rw [hd] at isDigit
  cases isDigit

section Escapes

variable {c : Char} {digits : List Char} {n : Nat}

/-- A backslash before a letter that no longer escape begins with is a short escape. -/
lemma escape_short (letter : c ≠ 'x' ∧ c ≠ 'u') (digit : c.isDigit = false)
    (sameLine : isLineEnd c = false) (rest : List Char) :
    escape true (c :: rest) = some ([.char (shortEscape c)], 1) := by
  unfold escape
  split
  case h_1 e => cases e
  case h_2 e | h_3 e =>
    cases e
    exact absurd rfl letter.2
  case h_4 e =>
    cases e
    exact absurd rfl letter.1
  case h_5 e =>
    cases e
    cases sameLine
  case h_6 e =>
    cases e
    rw [sameLine, digit]
    rfl

/-- A backslash before the end of a line stands for nothing. -/
lemma escape_lineBreak (ends : isLineEnd c = true) (newline : c ≠ '\r') (rest : List Char) :
    escape true (c :: rest) = some ([], 1) := by
  unfold escape
  split
  case h_1 e => cases e
  case h_2 e | h_3 e | h_4 e =>
    cases e
    cases ends
  case h_5 e =>
    cases e
    exact absurd rfl newline
  case h_6 e =>
    cases e
    rw [if_pos ends]

/-- An escape by a byte stands for the character with that number. -/
lemma escape_byte (value : hexValue? digits = some n) (length : digits.length = 2)
    (rest : List Char) :
    escape true ('x' :: (digits ++ rest)) = some ([.char (Char.ofNat n)], 3) := by
  have enough : ¬ (digits ++ rest).length < 2 := by
    rw [List.length_append]
    omega
  rw [escape, if_neg enough, List.take_left' length, value]
  rfl

/-- An escape by four digits stands for the character with that number, unless it is half of one. -/
lemma escape_unit (value : hexValue? digits = some n) (length : digits.length = 4)
    (whole : isSurrogate n = false) (rest : List Char) :
    escape true ('u' :: (digits ++ rest)) = some ([.char (Char.ofNat n)], 5) := by
  have enough : ¬ (digits ++ rest).length < 4 := by
    rw [List.length_append]
    omega
  have noBrace : ∀ later, digits ++ rest = '{' :: later → False := by
    intro later e
    cases digits with
    | nil => cases length
    | cons c digits =>
      cases e
      exact ne_of_mem_digits value List.mem_cons_self rfl rfl
  rw [escape, if_neg enough, List.take_left' length, value]
  case x_1 => exact noBrace
  simp [whole]

/-- An escape by a code point stands for the character with that number. -/
lemma escape_codePoint (value : hexValue? digits = some n) (nonempty : digits ≠ [])
    (le : n ≤ maxCodePoint) (whole : isSurrogate n = false) (rest : List Char) :
    escape true ('u' :: '{' :: (digits ++ '}' :: rest)) =
      some ([.char (Char.ofNat n)], digits.length + 3) := by
  have taken : (digits ++ '}' :: rest).takeWhile (fun c => (hexDigit? c).isSome) = digits := by
    rw [List.takeWhile_append_of_pos (isSome_hexDigit? value),
      List.takeWhile_cons_of_neg (by decide), List.append_nil]
  have notOver : ¬ n > maxCodePoint := Nat.not_lt.2 le
  rw [escape, Script.Quoted.bracedEscape, taken, value]
  simp [nonempty, notOver, whole]

end Escapes

/-- The characters that belong to an escape are passed over. -/
lemma piecesFrom_append (front rest : List Char) :
    piecesFrom true front.length (front ++ rest) = piecesFrom true 0 rest := by
  induction front with
  | nil => rfl
  | cons c front ih => exact ih

/-- An escape is cooked on its own, and what is behind it is cooked after it. -/
lemma piecesFrom_escape (behind : List Char) {rest : List Char} {pieces : List Script.Quoted.Piece}
    (h : escape true (behind ++ rest) = some (pieces, behind.length)) :
    piecesFrom true 0 ('\\' :: (behind ++ rest)) = (piecesFrom true 0 rest).map (pieces ++ ·) := by
  rw [piecesFrom, if_pos rfl, h]
  change (piecesFrom true behind.length (behind ++ rest) >>= fun more => some (pieces ++ more)) = _
  rw [piecesFrom_append]
  cases piecesFrom true 0 rest <;> rfl

/-- A piece at the front of a text is read as what it stands for. -/
lemma Piece.piecesFrom_raw (p : Piece) (rest : List Char) :
    piecesFrom true 0 (p.raw ++ rest) =
      (piecesFrom true 0 rest).map (p.cooked.map Script.Quoted.Piece.char ++ ·) := by
  cases p with
  | literal c plain =>
    change piecesFrom true 0 (c :: rest) = _
    rw [piecesFrom, if_neg plain]
    cases piecesFrom true 0 rest <;> rfl
  | short c letter digit sameLine =>
    exact piecesFrom_escape [c] (escape_short letter digit sameLine rest)
  | byte digits n value length =>
    refine piecesFrom_escape ('x' :: digits) ?_
    rw [List.length_cons, length]
    exact escape_byte value length rest
  | unit digits n value length whole =>
    refine piecesFrom_escape ('u' :: digits) ?_
    rw [List.length_cons, length]
    exact escape_unit value length whole rest
  | codePoint digits n value nonempty le whole =>
    refine piecesFrom_escape ('u' :: '{' :: (digits ++ ['}'])) ?_
    have text : 'u' :: '{' :: (digits ++ ['}']) ++ rest =
        'u' :: '{' :: (digits ++ '}' :: rest) := by
      simp
    rw [text, escape_codePoint value nonempty le whole]
    simp [cooked]
  | lineBreak c ends newline =>
    exact piecesFrom_escape [c] (escape_lineBreak ends newline rest)

/-- What is written as pieces is cooked to the characters of the pieces. -/
lemma piecesFrom_rawText (pieces : List Piece) :
    piecesFrom true 0 (rawText pieces) =
      some ((cookedText pieces).map Script.Quoted.Piece.char) := by
  induction pieces with
  | nil => rfl
  | cons p pieces ih =>
    rw [rawText_cons, p.piecesFrom_raw, ih, cookedText_cons, List.map_append]
    rfl

/-- Characters that are whole stay as they are. -/
lemma joinHalves_chars (text : List Char) :
    Script.Quoted.joinHalves (text.map Script.Quoted.Piece.char) =
      text.map Script.Quoted.Piece.char := by
  induction text with
  | nil => rfl
  | cons c text ih => rw [List.map_cons, Script.Quoted.joinHalves, ih] <;> exact nofun

/-- Characters that are whole are the text that is read. -/
lemma ofPieces_chars (text : List Char) :
    Script.Quoted.ofPieces (text.map Script.Quoted.Piece.char) = text := by
  have plain : (text.map Script.Quoted.Piece.char).mapM Script.Quoted.plain? = some text := by
    induction text with
    | nil => rfl
    | cons c text ih =>
      rw [List.map_cons, List.mapM_cons, ih]
      rfl
  rw [Script.Quoted.ofPieces, joinHalves_chars, plain]
  rfl

/-- What pieces stand for is what the text that they write is read as. -/
theorem unescape?_rawText (pieces : List Piece) :
    unescape? true (rawText pieces) = some (String.ofList (cookedText pieces)) := by
  rw [unescape?, piecesFrom_rawText, Option.map_some, ofPieces_chars]

/-! ## The steps of the walk -/

/-- The steps that a walk makes of a raw text. -/
inductive Stepped : (raw : List Char) → (steps : List Bool) → Prop
  | nil : Stepped [] []
  | plain {c : Char} {raw : List Char} {steps : List Bool} :
    c ≠ '\\' →
    Stepped raw steps →
    Stepped (c :: raw) (false :: steps)
  | escape (c : Char) {raw : List Char} {steps : List Bool} :
    Stepped raw steps →
    Stepped ('\\' :: c :: raw) (true :: steps)

namespace Stepped

variable {raw raw' : List Char} {steps steps' : List Bool}

/-- Walks over two texts are one walk over both. -/
lemma append (h : Stepped raw steps) (h' : Stepped raw' steps') :
    Stepped (raw ++ raw') (steps ++ steps') := by
  induction h with
  | nil => exact h'
  | plain hc _ ih => exact .plain hc ih
  | escape c _ ih => exact .escape c ih

/-- A text without backslashes is walked character by character. -/
lemma of_plain (h : '\\' ∉ raw) : Stepped raw (List.replicate raw.length false) := by
  induction raw with
  | nil => exact .nil
  | cons c raw ih =>
    rw [List.mem_cons, not_or] at h
    exact .plain (Ne.symm h.1) (ih h.2)

/-- A cooked character is taken to be escaped when the step with its number is an escape. -/
lemma isEscaped_eq (h : Stepped raw steps) (index : Nat) :
    isEscaped raw index = steps.getD index false := by
  induction h generalizing index with
  | nil =>
    induction index with
    | zero => rfl
    | succ index ih => exact ih
  | @plain c raw steps hc _ ih =>
    have whole : (c :: raw).head? ≠ some '\\' := fun e => hc (Option.some.inj e)
    cases index with
    | zero => exact decide_eq_false whole
    | succ index =>
      rw [isEscaped, Block.afterCharacter, if_neg whole]
      exact ih index
  | escape c _ ih =>
    cases index with
    | zero => rfl
    | succ index => exact ih index

end Stepped

/-- No backslash is among digits. -/
lemma not_mem_digits {digits : List Char} {n : Nat} (value : hexValue? digits = some n) :
    '\\' ∉ digits := fun member => ne_of_mem_digits value member rfl rfl

/-- A longer escape is a step and one more for each of its other characters. -/
lemma stepped_escape (c : Char) {rest : List Char} (h : '\\' ∉ rest) :
    Stepped ('\\' :: c :: rest) (true :: List.replicate rest.length false) :=
  .escape c (.of_plain h)

/-- Each piece is walked in its steps, and the walk ends where the piece does. -/
lemma Piece.stepped (p : Piece) : Stepped p.raw p.steps := by
  cases p with
  | literal c plain => exact .plain plain .nil
  | short c | lineBreak c => exact stepped_escape c List.not_mem_nil
  | byte digits n value | unit digits n value => exact stepped_escape _ (not_mem_digits value)
  | codePoint digits n value =>
    refine stepped_escape 'u' ?_
    rw [List.mem_cons, List.mem_append, not_or, not_or]
    exact ⟨by decide, not_mem_digits value, by decide⟩

/-- A row of pieces is walked piece by piece. -/
lemma stepped_rawText (pieces : List Piece) : Stepped (rawText pieces) (stepsOf pieces) := by
  induction pieces with
  | nil => exact .nil
  | cons p pieces ih =>
    rw [rawText_cons, stepsOf_cons]
    exact p.stepped.append ih

/-! ## The marker that ends a block -/

/-- The cooked text of a part that pieces follow an opening marker in. -/
def cookedPart (pieces : List Piece) : String := String.ofList (marker :: cookedText pieces)

/-- Its raw text. -/
def rawPart (pieces : List Piece) : String := String.ofList (marker :: rawText pieces)

/-- A block ends at the first marker that is written as it is, and does not end without one. -/
structure EndsAtFirstMarker (pieces : List Piece) : Prop where
  found : ∀ front p rest, pieces = front ++ p :: rest → (∀ q ∈ front, q.isMarker = false) →
    p.isMarker = true →
      endIndex (cookedPart pieces) (rawPart pieces) = .ok ((cookedText front).length + 1)
  missing : (∀ p ∈ pieces, p.isMarker = false) →
    endIndex (cookedPart pieces) (rawPart pieces) = .error ⟨rawPart pieces⟩

/-- Up to the first marker that is written as it is, the step with the number of a cooked marker is
an escape exactly when the marker is escaped. -/
def InStep (pieces : List Piece) : Prop :=
  ∀ front p rest, pieces = front ++ p :: rest → (∀ q ∈ front, q.isMarker = false) →
    p.cooked = [marker] → (stepsOf pieces).getD (cookedText front).length false = !p.isMarker

/-- The end of a block in a part is where the texts of its pieces are cut. -/
lemma endIndex_parts (pieces : List Piece) :
    endIndex (cookedPart pieces) (rawPart pieces) =
      match Block.cutAtMarker? (cookedText pieces) (rawText pieces) with
      | some (block, _) => .ok (block.length + 1)
      | none => .error ⟨rawPart pieces⟩ := by
  have walked := Block.endIndex_eq (cookedPart pieces) (rawPart pieces)
  rw [cookedPart, rawPart, String.toList_ofList, String.toList_ofList, List.drop_one,
    List.drop_one, List.tail_cons, List.tail_cons] at walked
  exact walked

/-- A block ends behind so many characters when the texts are cut there. -/
lemma endIndex_eq_ok_iff {pieces : List Piece} {length : Nat} :
    endIndex (cookedPart pieces) (rawPart pieces) = .ok (length + 1) ↔
      ∃ block text, Block.cutAtMarker? (cookedText pieces) (rawText pieces) = some (block, text) ∧
        block.length = length := by
  rw [endIndex_parts]
  cases Block.cutAtMarker? (cookedText pieces) (rawText pieces) with
  | none => exact iff_of_false nofun nofun
  | some cut =>
    obtain ⟨block, text⟩ := cut
    constructor
    · exact fun h => ⟨block, text, rfl, Nat.succ.inj (Except.ok.inj h)⟩
    · rintro ⟨_, _, ⟨⟩, rfl⟩
      rfl

/-- A block does not end when the texts cannot be cut. -/
lemma endIndex_eq_error_iff {pieces : List Piece} :
    endIndex (cookedPart pieces) (rawPart pieces) = .error ⟨rawPart pieces⟩ ↔
      Block.cutAtMarker? (cookedText pieces) (rawText pieces) = none := by
  rw [endIndex_parts]
  cases Block.cutAtMarker? (cookedText pieces) (rawText pieces) with
  | none => exact iff_of_true rfl rfl
  | some cut => exact iff_of_false nofun nofun

/-- A piece stands for a character or for none, so a cooked character comes of a piece. -/
lemma exists_piece_of_getElem? {pieces : List Piece} {index : Nat} {c : Char}
    (here : (cookedText pieces)[index]? = some c) :
    ∃ front p rest, pieces = front ++ p :: rest ∧ (cookedText front).length = index ∧
      p.cooked = [c] := by
  induction pieces generalizing index with
  | nil => cases here
  | cons p pieces ih =>
    rw [cookedText_cons] at here
    have later (rest : Nat) (e : index = p.cooked.length + rest) :
        ∃ front q rest, p :: pieces = front ++ q :: rest ∧ (cookedText front).length = index ∧
          q.cooked = [c] := by
      rw [e, List.getElem?_append_right (Nat.le_add_right _ _), Nat.add_sub_cancel_left] at here
      obtain ⟨front, q, rest, rfl, length, cooked⟩ := ih here
      refine ⟨p :: front, q, rest, rfl, ?_, cooked⟩
      rw [cookedText_cons, List.length_append, length, e]
    cases cooked : p.cooked with
    | nil => exact later index (by rw [cooked, List.length_nil, Nat.zero_add])
    | cons d others =>
      have single : others = [] := by
        cases p <;> cases cooked <;> rfl
      subst single
      cases index with
      | zero =>
        rw [cooked] at here
        cases here
        exact ⟨[], p, pieces, rfl, rfl, cooked⟩
      | succ index => exact later index (by rw [cooked, List.length_singleton, Nat.add_comm])

/-- A marker that is written as it is is cooked to itself. -/
lemma Piece.cooked_of_isMarker {p : Piece} (h : p.isMarker = true) : p.cooked = [marker] := by
  cases p with
  | literal c => exact congrArg (fun c => [c]) (of_decide_eq_true h)
  | _ => cases h

section InStep

variable {pieces front rest : List Piece} {p : Piece}

/-- Behind the cooked text of a front stands the piece that follows it. -/
lemma getElem?_cookedText (cooked : p.cooked = [marker]) :
    (cookedText (front ++ p :: rest))[(cookedText front).length]? = some marker := by
  rw [cookedText_append, cookedText_cons, cooked, List.getElem?_append_right (Nat.le_refl _),
    Nat.sub_self]
  rfl

/-- The steps of a walk say which places of the raw text are escaped. -/
lemma getD_stepsOf (pieces : List Piece) (index : Nat) :
    (stepsOf pieces).getD index false = isEscaped (rawText pieces) index :=
  ((stepped_rawText pieces).isEscaped_eq index).symm

/-- In step, every cooked marker is passed over until a piece is a marker. -/
lemma InStep.isEscaped (h : InStep (front ++ rest)) (others : ∀ q ∈ front, q.isMarker = false)
    {index : Nat} (here : (cookedText front)[index]? = some marker) :
    isEscaped (rawText (front ++ rest)) index = true := by
  obtain ⟨before, q, behind, rfl, rfl, cooked⟩ := exists_piece_of_getElem? here
  have escaped := h before q (behind ++ rest) (List.append_assoc _ _ _)
    (fun q member => others q (List.mem_append_left _ member)) cooked
  rw [getD_stepsOf, others q (List.mem_append_right _ List.mem_cons_self)] at escaped
  exact escaped

/-- A walk that is in step ends the block at the first marker that is written as it is. -/
lemma InStep.endsAtFirstMarker (h : InStep pieces) : EndsAtFirstMarker pieces := by
  constructor
  case found =>
    rintro front p rest rfl others closing
    have cooked := Piece.cooked_of_isMarker closing
    have whole := h front p rest rfl others cooked
    rw [getD_stepsOf, closing] at whole
    rw [endIndex_eq_ok_iff]
    refine ⟨cookedText front, cookedText rest, ?_, rfl⟩
    rw [Block.cutAtMarker?_eq_some_iff]
    refine ⟨?_, whole, fun index here => h.isEscaped others here⟩
    rw [cookedText_append, cookedText_cons, cooked]
    rfl
  case missing =>
    intro others
    rw [endIndex_eq_error_iff, Block.cutAtMarker?_eq_none_iff]
    intro index here
    rw [← List.append_nil pieces] at h ⊢
    exact h.isEscaped others here

/-- What is in front of one marker and of another piece that is none stands in front of both. -/
lemma exists_of_append_eq {front' rest' : List Piece} {m : Piece}
    (e : front ++ p :: rest = front' ++ m :: rest') (others : ∀ q ∈ front, q.isMarker = false)
    (noMarker : p.isMarker = false) (closing : m.isMarker = true) :
    ∃ between, front' = front ++ p :: between := by
  rcases List.append_eq_append_iff.1 e with ⟨between, e', behind⟩ | ⟨between, e', behind⟩
  case inl =>
    cases between with
    | nil =>
      cases behind
      rw [noMarker] at closing
      cases closing
    | cons q between =>
      cases behind
      exact ⟨between, e'⟩
  case inr =>
    cases between with
    | nil =>
      cases behind
      rw [noMarker] at closing
      cases closing
    | cons q between =>
      cases behind
      rw [others m (e' ▸ List.mem_append_right _ List.mem_cons_self)] at closing
      cases closing

/-- A walk that ends the block at that marker is in step up to there. -/
lemma EndsAtFirstMarker.inStep (h : EndsAtFirstMarker pieces) : InStep pieces := by
  intro front p rest e others cooked
  rw [getD_stepsOf]
  cases isMarker : p.isMarker with
  | true =>
    obtain ⟨block, text, cut, length⟩ :=
      endIndex_eq_ok_iff.1 (h.found front p rest e others isMarker)
    rw [← length]
    exact (Block.cutAtMarker?_eq_some_iff.1 cut).2.1
  | false =>
    have here : (cookedText pieces)[(cookedText front).length]? = some marker :=
      e ▸ getElem?_cookedText cooked
    -- A marker that is escaped is passed over on the way to the one that is not, or to the end.
    cases first : pieces.find? Piece.isMarker with
    | none =>
      have none : ∀ q ∈ pieces, q.isMarker = false := fun q member =>
        Bool.eq_false_iff.2 (List.find?_eq_none.1 first q member)
      have notFound := endIndex_eq_error_iff.1 (h.missing none)
      exact Block.cutAtMarker?_eq_none_iff.1 notFound _ here
    | some m =>
      obtain ⟨closing, front', rest', e', others'⟩ := List.find?_eq_some_iff_append.1 first
      have found := h.found front' m rest' e' (fun q member => by simpa using others' q member)
        closing
      obtain ⟨block, text, cut, length⟩ := endIndex_eq_ok_iff.1 found
      obtain ⟨chars, -, passed⟩ := Block.cutAtMarker?_eq_some_iff.1 cut
      obtain ⟨between, rfl⟩ := exists_of_append_eq (e.symm.trans e') others isMarker closing
      have inside : (cookedText front).length < block.length := by
        rw [length, cookedText_append, cookedText_cons, cooked, List.length_append,
          List.length_append, List.length_singleton]
        omega
      rw [chars, List.getElem?_append_left inside] at here
      exact passed _ here

/-- A walk is in step as long as every piece is a step. -/
lemma Piece.length_steps {p : Piece} (h : p.isSteady = true) :
    p.steps.length = p.cooked.length := by
  cases p with
  | literal | short => rfl
  | _ => cases h

/-- Steady pieces have one step for each cooked character. -/
lemma length_stepsOf (h : ∀ q ∈ front, q.isSteady = true) :
    (stepsOf front).length = (cookedText front).length := by
  induction front with
  | nil => rfl
  | cons q front ih =>
    obtain ⟨first, later⟩ := List.forall_mem_cons.1 h
    rw [stepsOf_cons, cookedText_cons, List.length_append, List.length_append,
      Piece.length_steps first, ih later]

/-- The first step of a piece that is cooked to a marker tells whether it is escaped. -/
lemma Piece.steps_of_cooked (cooked : p.cooked = [marker]) :
    ∃ more, p.steps = (!p.isMarker) :: more := by
  cases p with
  | literal c =>
    cases cooked
    exact ⟨[], rfl⟩
  | lineBreak => cases cooked
  | _ => exact ⟨_, rfl⟩

/-- A walk over steady pieces is in step. -/
lemma inStep_of_steady
    (h : ∀ p ∈ pieces.takeWhile fun p => !p.isMarker, p.isSteady = true) : InStep pieces := by
  rintro front p rest rfl others cooked
  have all : ∀ q ∈ front, (!q.isMarker) = true := fun q member => by rw [others q member]; rfl
  rw [List.takeWhile_append_of_pos all] at h
  have length := length_stepsOf fun q member => h q (List.mem_append_left _ member)
  obtain ⟨more, steps⟩ := Piece.steps_of_cooked cooked
  rw [stepsOf_append, stepsOf_cons, steps, List.getD_eq_getElem?_getD,
    List.getElem?_append_right (Nat.le_of_eq length), length, Nat.sub_self]
  rfl

end InStep

/-- What pieces write is read as what they stand for; a block that is written with them ends at the
first marker that is written as it is exactly when the walk is in step with them; and it is when
every piece in front of that marker is a character or a backslash and a character. -/
theorem endsAtFirstMarker_iff (pieces : List Piece) :
    unescape? true (rawPart pieces).toList = some (cookedPart pieces) ∧
    (EndsAtFirstMarker pieces ↔ InStep pieces) ∧
    ((∀ p ∈ pieces.takeWhile fun p => !p.isMarker, p.isSteady = true) →
      EndsAtFirstMarker pieces) := by
  refine ⟨?_, ⟨EndsAtFirstMarker.inStep, InStep.endsAtFirstMarker⟩, fun steady =>
    (inStep_of_steady steady).endsAtFirstMarker⟩
  have opening : marker ≠ '\\' := by decide
  rw [rawPart, String.toList_ofList]
  exact unescape?_rawText (.literal marker opening :: pieces)

/-- A marker that is written as it is. -/
def literalMarker : Piece := .literal marker (by decide)

/-- A marker behind a backslash. -/
def escapedMarker : Piece := .short marker (by decide) (by decide) (by decide)

/-- The letter A as the escape of a byte. -/
def byteEscape : Piece := .byte ['4', '1'] 0x41 (by decide) (by decide)

/-- A line that goes on behind a backslash. -/
def continued : Piece := .lineBreak '\n' (by decide) (by decide)

/-- A note with an escaped marker, and a long escape in the text behind it. -/
def escapedNote : List Piece :=
  [.literal 'a' (by decide), escapedMarker, literalMarker, byteEscape, literalMarker]

/-- The block of this note ends at the marker in front of the long escape. -/
theorem endsAtFirstMarker_escapedNote :
    (rawPart escapedNote = ":a\\::\\x41:" ∧ cookedPart escapedNote = ":a::A:") ∧
      (∀ p ∈ escapedNote.takeWhile fun p => !p.isMarker, p.isSteady = true) ∧
      EndsAtFirstMarker escapedNote ∧ endIndex ":a::A:" ":a\\::\\x41:" = .ok 3 := by
  have steady : ∀ p ∈ escapedNote.takeWhile fun p => !p.isMarker, p.isSteady = true := by decide
  have ends := (endsAtFirstMarker_iff escapedNote).2.2 steady
  refine ⟨by decide, steady, ends, ?_⟩
  exact ends.found [.literal 'a' (by decide), escapedMarker] literalMarker _ rfl (by decide) rfl

/-- A note that begins with a long escape, behind which a marker is escaped. -/
def longNote : List Piece := [byteEscape, escapedMarker, .literal 'b' (by decide), literalMarker]

/-- A note whose line goes on right before the marker. -/
def continuedNote : List Piece := [.literal 'a' (by decide), continued, literalMarker]

/-- Behind a long escape the walk ends at an escaped marker; and it passes over a marker behind a
line that goes on. -/
theorem not_endsAtFirstMarker_longNote_continuedNote :
    (endIndex (cookedPart longNote) (rawPart longNote) = .ok 2 ∧ ¬ EndsAtFirstMarker longNote) ∧
      (endIndex (cookedPart continuedNote) (rawPart continuedNote) =
        .error ⟨rawPart continuedNote⟩ ∧ ¬ EndsAtFirstMarker continuedNote) := by
  refine ⟨⟨by decide, fun ends => ?_⟩, by decide, fun ends => ?_⟩
  · have found := ends.found [byteEscape, escapedMarker, .literal 'b' (by decide)] literalMarker []
      rfl (by decide) rfl
    exact absurd found (by decide)
  · have found := ends.found [.literal 'a' (by decide), continued] literalMarker [] rfl (by decide)
      rfl
    exact absurd found (by decide)

end MessageCatalog.Template
