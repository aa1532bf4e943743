import MessageCatalog.Proofs.Block

/-!
# Where a block ends

The cooked and the raw text of a part are walked together, with an index into each of them. The two
need not belong together: whatever they are, the marker that is found stands in the cooked text
behind its first character, and cutting there takes nothing away but the characters around the
block. Each marker that is passed over has a backslash in the raw text at the place beside it.
-/

namespace MessageCatalog.Block

/-- Where in the raw text begins what it has for the cooked character with an index, when both are
walked together. -/
def rawPlace (raw : List Char) : (index : Nat) → Nat
  | 0 => 0
  | index + 1 =>
    if raw[rawPlace raw index]? = some '\\' then rawPlace raw index + 2 else rawPlace raw index + 1

/-! ## The places beside cooked characters -/

/-- The raw text from a place on is what is left of it behind as many cooked characters. -/
lemma drop_rawPlace (raw : List Char) (index : Nat) :
    raw.drop (rawPlace raw index) = afterCharacter^[index] raw := by
  induction index with
  | zero => rfl
  | succ index ih =>
    rw [Function.iterate_succ_apply', ← ih, afterCharacter, List.head?_drop, rawPlace]
    split
    case isTrue => rw [List.drop_drop]
    case isFalse => rw [List.drop_drop]

/-- A character is escaped when the raw text begins with a backslash after so many characters. -/
lemma isEscaped_eq (raw : List Char) (index : Nat) :
    isEscaped raw index = decide ((afterCharacter^[index] raw).head? = some '\\') := by
  induction index generalizing raw with
  | zero => rfl
  | succ index ih => rw [isEscaped, ih, Function.iterate_succ_apply]

/-- A cooked character is escaped when there is a backslash at the place beside it. -/
lemma isEscaped_iff {raw : List Char} {index : Nat} :
    isEscaped raw index = true ↔ raw[rawPlace raw index]? = some '\\' := by
  rw [isEscaped_eq, decide_eq_true_iff, ← drop_rawPlace, List.head?_drop]

/-- The walk takes at most two raw characters for a cooked one. -/
lemma rawPlace_le (raw : List Char) (index : Nat) :
    index ≤ rawPlace raw index ∧ rawPlace raw index ≤ 2 * index := by
  induction index with
  | zero => exact ⟨Nat.le_refl 0, Nat.le_refl 0⟩
  | succ index ih =>
    rw [rawPlace]
    split
    case isTrue => omega
    case isFalse => omega

/-! ## The first marker that is not escaped -/

/-- The marker at which a text is cut is not escaped, and each marker before it is. -/
lemma cutAtMarker?_eq_some_iff {cooked raw block text : List Char} :
    cutAtMarker? cooked raw = some (block, text) ↔
      cooked = block ++ marker :: text ∧ isEscaped raw block.length = false ∧
        ∀ index, block[index]? = some marker → isEscaped raw index = true := by
  induction cooked generalizing raw block with
  | nil => simp [cutAtMarker?]
  | cons c cooked ih =>
    rw [cutAtMarker?]
    split
    case isTrue closed =>
      constructor
      · intro h
        cases h
        refine ⟨congrArg (· :: text) closed.1, closed.2, fun index here => ?_⟩
        cases here
      · rintro ⟨e, -, passed⟩
        cases block with
        | nil =>
          cases e
          rfl
        | cons b block =>
          cases e
          -- a longer block would begin with this marker, which is not escaped
          have escaped := passed 0 (congrArg some closed.1)
          rw [closed.2] at escaped
          cases escaped
    case isFalse goesOn =>
      rw [Option.map_eq_some_iff]
      constructor
      · rintro ⟨⟨front, behind⟩, cut, e⟩
        cases e
        obtain ⟨rfl, whole, passed⟩ := ih.1 cut
        refine ⟨rfl, whole, ?_⟩
        intro index here
        cases index with
        | zero => exact eq_true_of_ne_false fun plain => goesOn ⟨Option.some.inj here, plain⟩
        | succ index => exact passed index here
      · rintro ⟨e, whole, passed⟩
        cases block with
        | nil =>
          cases e
          exact absurd ⟨rfl, whole⟩ goesOn
        | cons b block =>
          cases e
          exact ⟨(block, text), ih.2 ⟨rfl, whole, fun index => passed (index + 1)⟩, rfl⟩

/-- A part is cut where its block ends: its cooked text is an opening character, the block, a marker
that its raw text does not escape, and the text behind it; and each marker in the block has a
backslash beside it. -/
structure CutAround (cooked raw block text : List Char) : Prop where
  exists_eq : ∃ first, cooked = first :: (block ++ marker :: text)
  whole : raw[rawPlace raw (block.length + 1)]? ≠ some '\\'
  passed : ∀ index, block[index]? = some marker → raw[rawPlace raw (index + 1)]? = some '\\'

/-- Texts that are split are cut around a marker, in lock step from the first character on. -/
lemma cutAround_of_split {cooked raw text : String} {block : Option String}
    (hraw : raw.toList.head? = some marker) (h : split cooked raw = .ok (block, text)) :
    ∃ inside, block = some inside ∧
      CutAround cooked.toList raw.toList inside.toList text.toList := by
  rw [split_eq, if_pos hraw] at h
  split at h
  case h_1 inside behind cut =>
    cases h
    obtain ⟨rest, whole, passed⟩ := cutAtMarker?_eq_some_iff.1 cut
    refine ⟨String.ofList inside, rfl, ?_⟩
    rw [String.toList_ofList, String.toList_ofList]
    constructor
    case exists_eq =>
      cases chars : cooked.toList with
      | nil =>
        rw [chars] at rest
        simp at rest
      | cons first later =>
        rw [chars, List.drop_one, List.tail_cons] at rest
        exact ⟨first, congrArg (first :: ·) rest⟩
    case whole =>
      rw [isEscaped_drop_one hraw, Bool.eq_false_iff] at whole
      exact fun escaped => whole (isEscaped_iff.2 escaped)
    case passed =>
      intro index here
      have escaped := passed index here
      rw [isEscaped_drop_one hraw] at escaped
      exact isEscaped_iff.1 escaped
  case h_2 => cases h

/-- Every marker behind the first character has a backslash beside it. -/
def AllPassed (cooked raw : List Char) : Prop :=
  ∀ index, 0 < index → cooked[index]? = some marker → raw[rawPlace raw index]? = some '\\'

/-- Splitting fails exactly when every marker is passed, and the error names the raw text. -/
lemma split_eq_error_iff_allPassed {cooked raw : String} (hraw : raw.toList.head? = some marker)
    {e : UnterminatedBlock} :
    split cooked raw = .error e ↔ e = ⟨raw⟩ ∧ AllPassed cooked.toList raw.toList := by
  rw [split_eq_error_iff, Unclosed, and_iff_right hraw, and_comm]
  simp only [AllPassed, isEscaped_iff]

/-! ## The indices of the walk -/

/-- One step of the walk with two indices, which stand at a cooked character and at the place beside
it. -/
lemma markerFrom?_step (raw : List Char) {cooked : List Char} {index : Nat} {c : Char}
    (here : cooked[index]? = some c) :
    markerFrom? raw.toArray index (rawPlace raw index) (cooked.drop index) =
      if c = marker ∧ raw[rawPlace raw index]? ≠ some '\\' then some index
      else markerFrom? raw.toArray (index + 1) (rawPlace raw (index + 1))
        (cooked.drop (index + 1)) := by
  obtain ⟨inside, rfl⟩ := List.getElem?_eq_some_iff.1 here
  rw [List.drop_eq_getElem_cons inside, markerFrom?, List.getElem?_toArray, rawPlace]
  by_cases escaped : raw[rawPlace raw index]? = some '\\'
  case pos => rw [if_pos escaped, if_pos escaped, if_neg fun h => h.2 escaped]
  case neg =>
    rw [if_neg escaped, if_neg escaped]
    simp only [and_iff_left escaped]

/-- The walk comes to an index: no marker before it closes the block. -/
structure Reached (cooked raw : List Char) (index : Nat) : Prop where
  pos : 0 < index
  inside : index ≤ cooked.length
  goesOn : ∀ k, 0 < k → k < index → cooked[k]? = some marker → raw[rawPlace raw k]? = some '\\'

/-- The walk comes to an index of the cooked text with the other index at the place beside it. -/
lemma Reached.markerFrom?_eq {raw cooked : List Char} (hraw : raw.head? = some marker) {index : Nat}
    (h : Reached cooked raw index) :
    markerFrom? raw.toArray 1 1 (cooked.drop 1) =
      markerFrom? raw.toArray index (rawPlace raw index) (cooked.drop index) := by
  induction index with
  | zero => cases h.pos
  | succ index ih =>
    cases index with
    | zero =>
      have first : raw[0]? ≠ some '\\' := by
        rw [← List.head?_eq_getElem?, hraw]
        decide
      rw [rawPlace, rawPlace, if_neg first]
    | succ index =>
      have before : Reached cooked raw (index + 1) :=
        ⟨index.succ_pos, Nat.le_of_succ_le h.inside,
          fun k pos below => h.goesOn k pos (Nat.lt_succ_of_lt below)⟩
      have here := List.getElem?_eq_getElem (show index + 1 < cooked.length from h.inside)
      rw [ih before, markerFrom?_step raw here, if_neg]
      rintro ⟨closing, whole⟩
      rw [closing] at here
      exact whole (h.goesOn (index + 1) index.succ_pos (Nat.lt_succ_self _) here)

/-- The marker that is found stands behind the first character of the cooked text. -/
lemma endIndex_lt {cooked raw : String} {stop : Nat} (h : endIndex cooked raw = .ok stop) :
    0 < stop ∧ stop < cooked.toList.length := by
  rw [endIndex_eq] at h
  split at h
  case h_1 block text cut =>
    cases h
    have lengths := congrArg List.length (eq_append_of_cutAtMarker? cut)
    rw [List.length_drop, List.length_append, List.length_cons] at lengths
    omega
  case h_2 => cases h

/-! ## Texts without escapes -/

/-- Without a backslash the first marker behind the opening one closes the block. -/
lemma CutAround.marker_not_mem {cooked raw block text : List Char}
    (h : CutAround cooked raw block text) (plain : '\\' ∉ raw) : marker ∉ block := by
  intro member
  obtain ⟨index, here⟩ := List.mem_iff_getElem?.1 member
  exact plain (List.mem_of_getElem? (h.passed index here))

/-- Without backslashes nothing is passed but what is no marker. -/
lemma allPassed_iff {cooked raw : List Char} (plain : '\\' ∉ raw) :
    AllPassed cooked raw ↔ marker ∉ cooked.tail := by
  constructor
  · intro passed member
    obtain ⟨index, here⟩ := List.mem_iff_getElem?.1 member
    rw [List.getElem?_tail] at here
    exact plain (List.mem_of_getElem? (passed (index + 1) index.succ_pos here))
  · intro none index pos here
    cases index with
    | zero => cases pos
    | succ index =>
      rw [← List.getElem?_tail] at here
      exact absurd (List.mem_of_getElem? here) none

/-- Splitting a part loses no character, whatever its two texts are. Without a marker at the front
of the raw text the cooked text is the text. With one, the cooked text is cut around the block, or
every marker has a backslash beside it and the error names the raw text. The indices stay inside the
cooked text and go on side by side. Where the two texts are the same and have no backslash, the
block is what stands between the first two markers. -/
theorem split_loses_nothing (cooked raw : String) :
    (raw.toList.head? ≠ some marker → split cooked raw = .ok (none, cooked)) ∧
    (raw.toList.head? = some marker →
      (∀ block text, split cooked raw = .ok (block, text) → ∃ inside, block = some inside ∧
        CutAround cooked.toList raw.toList inside.toList text.toList) ∧
      ∀ e, split cooked raw = .error e ↔ e = ⟨raw⟩ ∧ AllPassed cooked.toList raw.toList) ∧
    (∀ stop, endIndex cooked raw = .ok stop → 0 < stop ∧ stop < cooked.toList.length) ∧
    (raw.toList.head? = some marker → ∀ index, Reached cooked.toList raw.toList index →
      index ≤ rawPlace raw.toList index ∧ rawPlace raw.toList index ≤ 2 * index ∧
        markerFrom? raw.toList.toArray 1 1 (cooked.toList.drop 1) =
          markerFrom? raw.toList.toArray index (rawPlace raw.toList index)
            (cooked.toList.drop index)) ∧
    (raw = cooked → raw.toList.head? = some marker → '\\' ∉ raw.toList →
      (∀ block text, split cooked raw = .ok (block, text) → ∃ inside, block = some inside ∧
        marker ∉ inside.toList ∧
          cooked.toList = marker :: (inside.toList ++ marker :: text.toList)) ∧
      ((∃ e, split cooked raw = .error e) ↔ marker ∉ cooked.toList.tail)) := by
  refine ⟨?_, ?_, fun stop => endIndex_lt, ?_, ?_⟩
  · intro noBlock
    rw [split, if_neg noBlock]
  · intro hraw
    exact ⟨fun block text => cutAround_of_split hraw, fun e => split_eq_error_iff_allPassed hraw⟩
  · intro hraw index reached
    obtain ⟨lower, upper⟩ := rawPlace_le raw.toList index
    exact ⟨lower, upper, reached.markerFrom?_eq hraw⟩
  · rintro rfl hraw plain
    constructor
    · intro block text h
      obtain ⟨inside, e, cut⟩ := cutAround_of_split hraw h
      obtain ⟨first, chars⟩ := cut.exists_eq
      have opening : first = marker := by
        rw [chars] at hraw
        exact Option.some.inj hraw
      exact ⟨inside, e, cut.marker_not_mem plain, opening ▸ chars⟩
    · simp only [split_eq_error_iff_allPassed hraw, exists_eq_left, allPassed_iff plain]

/-- A cooked text and a raw text that do not belong together. -/
def strayCooked : String := "x:é:t"

def strayRaw : String := ":\\"

/-- A split in which the cooked and the raw text have nothing to do with each other. -/
theorem split_loses_nothing_stray :
    (split strayCooked strayRaw = .ok (some ":é", "t") ∧
      CutAround strayCooked.toList strayRaw.toList ":é".toList "t".toList) ∧
    (Reached strayCooked.toList strayRaw.toList 2 ∧ rawPlace strayRaw.toList 2 = 3 ∧
      markerFrom? strayRaw.toList.toArray 1 1 (strayCooked.toList.drop 1) =
        markerFrom? strayRaw.toList.toArray 2 3 (strayCooked.toList.drop 2)) ∧
    ((∃ e, split ":note" ":note" = .error e) ↔ marker ∉ ":note".toList.tail) := by
  have cut : split strayCooked strayRaw = .ok (some ":é", "t") := by decide
  have opening : strayRaw.toList.head? = some marker := by decide
  have reached : Reached strayCooked.toList strayRaw.toList 2 := by
    refine ⟨by decide, by decide, fun k pos below _ => ?_⟩
    obtain rfl : k = 1 := by omega
    decide
  obtain ⟨-, byBlock, -, walk, -⟩ := split_loses_nothing strayCooked strayRaw
  obtain ⟨-, -, -, -, plain⟩ := split_loses_nothing ":note" ":note"
  refine ⟨⟨cut, ?_⟩, ⟨reached, by decide, (walk opening 2 reached).2.2⟩, ?_⟩
  · obtain ⟨inside, e, around⟩ := (byBlock opening).1 _ _ cut
    cases e
    exact around
  · exact (plain rfl (by decide) (by decide)).2

end MessageCatalog.Block
