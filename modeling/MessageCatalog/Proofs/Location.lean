import Mathlib.Data.List.Induction
import Mathlib.Data.List.TakeWhile
import Mathlib.Data.Prod.Lex
import Mathlib.Data.String.Basic
import Mathlib.Order.Bounds.Basic
import MessageCatalog.Location
import MessageCatalog.Proofs.Text

/-!
# Places in a file

A byte offset is moved back to the nearest place between two characters. The line and the column of
a place lead back to it (`offsetAt?`), so no two places share both, and places that follow one
another in the file follow one another by line and column, too.
-/

namespace MessageCatalog

/-- The bytes of a string are those of its characters. -/
lemma Text.byteLength_toList (text : String) : byteLength text.toList = text.utf8ByteSize := by
  rw [← String.utf8Len_toList]
  generalize text.toList = chars
  induction chars with
  | nil => rfl
  | cons c chars ih => rw [byteLength_cons, String.utf8Len_cons, ih, Nat.add_comm]

namespace Location

/-! ## Places between characters -/

/-- A byte offset at which no character is cut in two. -/
def IsBoundary (content : String) (offset : Nat) : Prop :=
  String.Pos.Raw.IsValid content ⟨offset⟩

instance (content : String) (offset : Nat) : Decidable (IsBoundary content offset) :=
  inferInstanceAs (Decidable (String.Pos.Raw.IsValid content ⟨offset⟩))

/-- The places between characters are those behind a front of the text. -/
lemma isBoundary_iff {content : String} {offset : Nat} :
    IsBoundary content offset ↔
      ∃ front, front <+: content.toList ∧ Text.byteLength front = offset := by
  rw [IsBoundary, String.Pos.Raw.isValid_iff_exists_append]
  constructor
  · rintro ⟨front, rest, rfl, e⟩
    refine ⟨front.toList, ⟨rest.toList, String.toList_append.symm⟩, ?_⟩
    rw [Text.byteLength_toList]
    exact (congrArg String.Pos.Raw.byteIdx e).symm
  · rintro ⟨front, ⟨rest, e⟩, rfl⟩
    refine ⟨String.ofList front, String.ofList rest, ?_, ?_⟩
    · rw [← String.ofList_append, e, String.ofList_toList]
    · rw [String.Pos.Raw.ext_iff, String.byteIdx_rawEndPos, ← Text.byteLength_toList,
        String.toList_ofList]

/-- Of two fronts of one text, the one with fewer bytes is a front of the other. -/
lemma prefix_of_byteLength_le {front more text : List Char} (hf : front <+: text)
    (hm : more <+: text) (h : Text.byteLength front ≤ Text.byteLength more) : front <+: more := by
  obtain shorter | ⟨rest, rfl⟩ := List.prefix_or_prefix_of_prefix hf hm
  · exact shorter
  · have length := Text.length_le_byteLength rest
    rw [Text.byteLength_append] at h
    obtain rfl : rest = [] := List.eq_nil_of_length_eq_zero (by omega)
    exact ⟨[], by simp only [List.append_nil]⟩

/-! ## The front within some bytes -/

/-- What fits into some bytes is a front of the text. -/
lemma frontWithin_isFront (bytes : Nat) (text : List Char) : frontWithin bytes text <+: text := by
  induction text generalizing bytes with
  | nil => exact List.nil_prefix
  | cons c text ih =>
    rw [frontWithin]
    split
    case isTrue => exact (List.prefix_cons_inj c).2 (ih _)
    case isFalse => exact List.nil_prefix

/-- What fits into some bytes has no more bytes. -/
lemma byteLength_frontWithin_le (bytes : Nat) (text : List Char) :
    Text.byteLength (frontWithin bytes text) ≤ bytes := by
  induction text generalizing bytes with
  | nil => exact Nat.zero_le bytes
  | cons c text ih =>
    rw [frontWithin]
    split
    case isTrue fits =>
      have rest := ih (bytes - c.utf8Size)
      rw [Text.byteLength_cons]
      omega
    case isFalse => exact Nat.zero_le bytes

/-- Every front that fits is a front of the one that is taken. -/
lemma front_frontWithin {front text : List Char} {bytes : Nat} (hf : front <+: text)
    (h : Text.byteLength front ≤ bytes) : front <+: frontWithin bytes text := by
  induction text generalizing front bytes with
  | nil =>
    rw [List.prefix_nil.1 hf]
    exact List.nil_prefix
  | cons c text ih =>
    cases front with
    | nil => exact List.nil_prefix
    | cons d front =>
      obtain ⟨rfl, inside⟩ := List.cons_prefix_cons.1 hf
      rw [Text.byteLength_cons] at h
      have fits : d.utf8Size ≤ bytes := by omega
      rw [frontWithin, if_pos fits, List.prefix_cons_inj]
      exact ih inside (by omega)

/-- More bytes hold a longer front. -/
lemma frontWithin_mono {first second : Nat} (h : first ≤ second) (text : List Char) :
    frontWithin first text <+: frontWithin second text :=
  front_frontWithin (frontWithin_isFront first text)
    ((byteLength_frontWithin_le first text).trans h)

/-- The place of an offset is the last one that is not behind it. -/
lemma isGreatest_offset (content url : String) (bytes : Nat) :
    IsGreatest {place | IsBoundary content place ∧ place ≤ min bytes content.utf8ByteSize}
      (ofOffset content url bytes).offset := by
  have short {front : List Char} (hf : front <+: content.toList) :
      Text.byteLength front ≤ content.utf8ByteSize := by
    obtain ⟨rest, e⟩ := hf
    rw [← Text.byteLength_toList, ← e, Text.byteLength_append]
    exact Nat.le_add_right _ _
  have front := frontWithin_isFront bytes content.toList
  refine ⟨⟨isBoundary_iff.2 ⟨_, front, rfl⟩, ?_⟩, ?_⟩
  · exact le_min (byteLength_frontWithin_le bytes content.toList) (short front)
  · rintro place ⟨boundary, le⟩
    obtain ⟨other, hother, rfl⟩ := isBoundary_iff.1 boundary
    obtain ⟨rest, e⟩ := front_frontWithin hother (le.trans (min_le_left _ _))
    rw [ofOffset, after, ← e, Text.byteLength_append]
    exact Nat.le_add_right _ _

/-- A place between characters is its own place. -/
lemma offset_of_isBoundary {content : String} {offset : Nat} (h : IsBoundary content offset)
    (url : String) : (ofOffset content url offset).offset = offset := by
  obtain ⟨⟨-, le⟩, greatest⟩ := isGreatest_offset content url offset
  obtain ⟨front, ⟨rest, e⟩, rfl⟩ := isBoundary_iff.1 h
  have inside : Text.byteLength front ≤ content.utf8ByteSize := by
    rw [← Text.byteLength_toList, ← e, Text.byteLength_append]
    exact Nat.le_add_right _ _
  exact le_antisymm (le.trans (min_le_left _ _)) (greatest ⟨h, le_min le_rfl inside⟩)

/-! ## Lines and columns -/

/-- Where a place stands, by line and then by column. -/
def place (l : Location) : ℕ ×ₗ ℕ := toLex (l.line, l.col)

/-- The byte offset that is reached from the front of a text by going behind its next `line`
newlines and then over `col` characters, none of which is a newline. -/
def offsetAt? : (line col : Nat) → (text : List Char) → Option Nat
  | 0, 0, _ => some 0
  | 0, _ + 1, [] => none
  | 0, col + 1, c :: text =>
    if c = '\n' then none else (offsetAt? 0 col text).map (c.utf8Size + ·)
  | _ + 1, _, [] => none
  | line + 1, col, c :: text =>
    (offsetAt? (if c = '\n' then line else line + 1) col text).map (c.utf8Size + ·)

/-- A newline counts as one, and no other character does. -/
lemma newlines_cons (c : Char) (text : List Char) :
    newlines (c :: text) = newlines text + if c = '\n' then 1 else 0 := by
  simp [newlines, List.count_cons]

/-- A character in front of a text counts for the last line only if that is the first line. -/
lemma lastLineLength_cons (c : Char) (text : List Char) :
    lastLineLength (c :: text) =
      lastLineLength text + if newlines text = 0 ∧ c ≠ '\n' then 1 else 0 := by
  have first : newlines text = 0 ↔ '\n' ∉ text := List.count_eq_zero
  rw [lastLineLength, lastLineLength, List.reverse_cons]
  by_cases h : '\n' ∈ text
  · -- The last newline stands behind the new character.
    have stops : (text.reverse.takeWhile fun d => decide (d ≠ '\n')).length ≠
        text.reverse.length := by
      intro whole
      have same := (List.takeWhile_prefix fun d => decide (d ≠ '\n')).eq_of_length whole
      have newline := List.takeWhile_eq_self_iff.1 same '\n' (List.mem_reverse.2 h)
      exact of_decide_eq_true newline rfl
    rw [List.takeWhile_append, if_neg stops, if_neg fun both => first.1 both.1 h, Nat.add_zero]
  · have none : ∀ d ∈ text.reverse, decide (d ≠ '\n') = true := fun d hd =>
      decide_eq_true fun e => h (e ▸ List.mem_reverse.1 hd)
    rw [List.takeWhile_append_of_pos none, List.takeWhile_eq_self_iff.2 none]
    by_cases hc : c = '\n' <;> simp [first.2 h, hc]

/-- The line and the column behind a front lead to the end of the front. -/
lemma offsetAt?_append (front rest : List Char) :
    offsetAt? (newlines front) (lastLineLength front) (front ++ rest) =
      some (Text.byteLength front) := by
  induction front with
  | nil => cases rest <;> rfl
  | cons c front ih =>
    rw [newlines_cons, lastLineLength_cons, List.cons_append, Text.byteLength_cons]
    -- A newline is passed by the lines, any other character by the column on the first line.
    by_cases hc : c = '\n'
    · simp [hc, offsetAt?, ih]
    · cases hn : newlines front with
      | zero =>
        rw [hn] at ih
        simp [hc, offsetAt?, ih]
      | succ line =>
        rw [hn] at ih
        simp [hc, offsetAt?, ih]

/-- Walking down the lines and along the columns of a location arrives at its offset. -/
lemma offsetAt?_ofOffset (content url : String) (bytes : Nat) :
    offsetAt? (ofOffset content url bytes).line (ofOffset content url bytes).col content.toList =
      some (ofOffset content url bytes).offset := by
  obtain ⟨rest, e⟩ := frontWithin_isFront bytes content.toList
  have reached := offsetAt?_append (frontWithin bytes content.toList) rest
  rwa [e] at reached

/-- One more character leads further on the same line or to the next line. -/
lemma place_lt_concat (url : String) (front : List Char) (c : Char) :
    (after url front).place < (after url (front ++ [c])).place := by
  rw [place, place, Prod.Lex.toLex_lt_toLex]
  simp only [after, newlines, lastLineLength, List.count_append, List.reverse_append,
    List.reverse_singleton, List.singleton_append]
  by_cases hc : c = '\n'
  · left
    simp [hc]
  · right
    simp [hc]

/-- A longer front of a text leads further. -/
lemma place_le_of_prefix (url : String) {front more : List Char} (h : front <+: more) :
    (after url front).place ≤ (after url more).place := by
  obtain ⟨rest, rfl⟩ := h
  induction rest using List.reverseRecOn with
  | nil => rw [List.append_nil]
  | append_singleton rest c ih =>
    rw [← List.append_assoc]
    exact ih.trans (place_lt_concat url (front ++ rest) c).le

/-! ## The location of an offset -/

/-- What a location says of a byte offset in the file `url`. -/
structure Exact (content url : String) (bytes : Nat) (l : Location) : Prop where
  url : l.url = url
  /-- The place is the last one that is neither behind the offset nor behind the end. -/
  offset : IsGreatest
    {place | IsBoundary content place ∧ place ≤ min bytes content.utf8ByteSize} l.offset
  line : ∀ before behind, content = before ++ behind → before.utf8ByteSize = l.offset →
    l.line = before.toList.count '\n'
  /-- The line and the column lead to the place. -/
  reached : offsetAt? l.line l.col content.toList = some l.offset

/-- The location of an offset is exact. -/
lemma exact_ofOffset (content url : String) (bytes : Nat) :
    (ofOffset content url bytes).Exact content url bytes where
  url := rfl
  offset := isGreatest_offset content url bytes
  line := by
    rintro before behind rfl same
    have front : before.toList <+: (before ++ behind).toList :=
      ⟨behind.toList, String.toList_append.symm⟩
    have within := frontWithin_isFront bytes (before ++ behind).toList
    rw [← Text.byteLength_toList] at same
    have e : before.toList = frontWithin bytes (before ++ behind).toList :=
      (prefix_of_byteLength_le front within same.le).eq_of_length_le
        (prefix_of_byteLength_le within front same.ge).length_le
    rw [e]
    rfl
  reached := offsetAt?_ofOffset content url bytes

/-- Later offsets do not have earlier places. -/
lemma place_mono (content url : String) {first second : Nat} (h : first ≤ second) :
    (ofOffset content url first).place ≤ (ofOffset content url second).place :=
  place_le_of_prefix url (frontWithin_mono h content.toList)

/-- Two places between characters with one line and column are the same. -/
lemma eq_of_place_eq {content url : String} {first second : Nat} (hf : IsBoundary content first)
    (hs : IsBoundary content second)
    (h : (ofOffset content url first).place = (ofOffset content url second).place) :
    first = second := by
  have pair := toLex_inj.1 h
  have reached := offsetAt?_ofOffset content url first
  rw [(Prod.mk.inj pair).1, (Prod.mk.inj pair).2, offsetAt?_ofOffset content url second,
    offset_of_isBoundary hf, offset_of_isBoundary hs] at reached
  exact (Option.some.inj reached).symm

/-- Locations are exact, places between characters are told apart by line and column, and later
offsets do not stand before earlier ones; so no range that does not end before it starts has a span
that does. -/
theorem exact_and_ordered (content url : String) :
    (∀ bytes, (ofOffset content url bytes).Exact content url bytes) ∧
      (∀ first second, IsBoundary content first → IsBoundary content second → first ≠ second →
        (ofOffset content url first).place ≠ (ofOffset content url second).place) ∧
      (∀ first second, first ≤ second →
        (ofOffset content url first).place ≤ (ofOffset content url second).place) ∧
      ∀ start stop, start ≤ stop →
        (Span.ofRange content url start stop).start.place ≤
          (Span.ofRange content url start stop).stop.place :=
  ⟨exact_ofOffset content url, fun _ _ hf hs ne same => ne (eq_of_place_eq hf hs same),
    fun _ _ => place_mono content url, fun _ _ => place_mono content url⟩

/-- Behind a character of two bytes and a newline: an offset inside the character, and one behind
the end. -/
theorem exact_and_ordered_twoLines :
    (IsBoundary "é\na" 2 ∧ IsBoundary "é\na" 3 ∧ 2 ≠ 3 ∧ 1 ≤ 9) ∧
      ofOffset "é\na" "m.xlf" 1 = ⟨"m.xlf", 0, 0, 0⟩ ∧
      ofOffset "é\na" "m.xlf" 9 = ⟨"m.xlf", 4, 1, 1⟩ ∧
      (ofOffset "é\na" "m.xlf" 9).Exact "é\na" "m.xlf" 9 ∧
      (ofOffset "é\na" "m.xlf" 2).place ≠ (ofOffset "é\na" "m.xlf" 3).place ∧
      (ofOffset "é\na" "m.xlf" 1).place ≤ (ofOffset "é\na" "m.xlf" 9).place ∧
      (Span.ofRange "é\na" "m.xlf" 1 9).start.place ≤
        (Span.ofRange "é\na" "m.xlf" 1 9).stop.place := by
  have second : IsBoundary "é\na" 2 := by decide
  have third : IsBoundary "é\na" 3 := by decide
  obtain ⟨exactly, distinct, ordered, spans⟩ := exact_and_ordered "é\na" "m.xlf"
  exact ⟨⟨second, third, by decide, by decide⟩, by decide, by decide, exactly 9,
    distinct 2 3 second third (by decide), ordered 1 9 (by decide), spans 1 9 (by decide)⟩

end Location

end MessageCatalog
