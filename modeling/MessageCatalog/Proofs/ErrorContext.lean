import MessageCatalog.Proofs.Location

/-!
# The context of an error

An error shows the text on both sides of its place. Each side is the longest piece next to the place
that keeps within the limits on characters and newlines, and the two sides meet at the place.
-/

namespace MessageCatalog.Span

/-- A front of a text, and no longer front of it has the property. -/
structure IsLongestFront (p : List Char → Prop) (text front : List Char) : Prop where
  isFront : front <+: text
  holds : p front
  longest : ∀ other, other <+: text → p other → other.length ≤ front.length

/-- An end of a text, and no longer end of it has the property. -/
structure IsLongestEnd (p : List Char → Prop) (text behind : List Char) : Prop where
  isEnd : behind <:+ text
  holds : p behind
  longest : ∀ other, other <:+ text → p other → other.length ≤ behind.length

/-- Read backwards, the longest front is the longest end. -/
lemma IsLongestFront.reverse {p : List Char → Prop} (hp : ∀ text, p text → p text.reverse)
    {text front : List Char} (h : IsLongestFront p text.reverse front) :
    IsLongestEnd p text front.reverse where
  isEnd := by
    rw [← List.reverse_prefix, List.reverse_reverse]
    exact h.isFront
  holds := hp front h.holds
  longest := by
    intro other isEnd holds
    have length := h.longest other.reverse (List.reverse_prefix.2 isEnd) (hp other holds)
    rwa [List.length_reverse] at length ⊢

/-! ## The window -/

/-- Whether a text keeps within limits on its characters and its newlines. -/
def Within (chars lines : Nat) (text : List Char) : Prop :=
  text.length ≤ chars ∧ text.count '\n' ≤ lines

/-- What lies within limits does so when it is read backwards. -/
lemma Within.reverse {chars lines : Nat} (text : List Char) (h : Within chars lines text) :
    Within chars lines text.reverse := by
  rwa [Within, List.length_reverse, List.count_reverse]

/-- A character leaves as many newlines as there were, less one if it is a newline. -/
lemma within_cons {chars lines : Nat} {c : Char} {text : List Char} :
    Within (chars + 1) lines (c :: text) ↔
      (c = '\n' → lines ≠ 0) ∧ Within chars (if c = '\n' then lines - 1 else lines) text := by
  rw [Within, Within, List.length_cons, List.count_cons]
  by_cases hc : c = '\n'
  · simp only [hc, beq_self_eq_true, if_true, forall_const]
    omega
  · simp only [hc, beq_iff_eq, if_false, false_implies, true_and]
    omega

/-- The window takes a character when there is still a line for it. -/
lemma window_cons (chars lines : Nat) (c : Char) (text : List Char) :
    window (chars + 1) lines (c :: text) =
      if c = '\n' ∧ lines = 0 then []
      else c :: window chars (if c = '\n' then lines - 1 else lines) text := by
  cases lines <;> by_cases hc : c = '\n' <;> simp [window, hc]

/-- The window is the longest front within the limits. -/
lemma isLongestFront_window (chars lines : Nat) (text : List Char) :
    IsLongestFront (Within chars lines) text (window chars lines text) := by
  have empty (chars lines : Nat) : Within chars lines [] := ⟨Nat.zero_le _, Nat.zero_le _⟩
  induction text generalizing chars lines with
  | nil =>
    have none : window chars lines [] = [] := by cases chars <;> rfl
    rw [none]
    exact ⟨List.prefix_rfl, empty chars lines, fun other front _ => front.length_le⟩
  | cons c text ih =>
    cases chars with
    | zero =>
      exact ⟨List.nil_prefix, empty 0 lines, fun other _ within => within.1⟩
    | succ chars =>
      rw [window_cons]
      split
      case isTrue stops =>
        refine ⟨List.nil_prefix, empty _ lines, fun other front within => ?_⟩
        cases other with
        | nil => exact Nat.le_refl 0
        | cons d other =>
          -- The first character is a newline, and none is left.
          obtain ⟨rfl, -⟩ := List.cons_prefix_cons.1 front
          exact absurd stops.2 ((within_cons.1 within).1 stops.1)
      case isFalse goes =>
        have rest := ih chars (if c = '\n' then lines - 1 else lines)
        refine ⟨(List.prefix_cons_inj c).2 rest.isFront, ?_, fun other front within => ?_⟩
        · exact within_cons.2 ⟨fun hc hl => goes ⟨hc, hl⟩, rest.holds⟩
        · cases other with
          | nil => exact Nat.zero_le _
          | cons d other =>
            obtain ⟨rfl, inside⟩ := List.cons_prefix_cons.1 front
            exact Nat.succ_le_succ (rest.longest other inside (within_cons.1 within).2)

/-! ## The two sides -/

/-- What an error may show of one side: at most a hundred characters and at most two newlines. -/
def Shown (text : List Char) : Prop :=
  text.length ≤ 100 ∧ text.count '\n' ≤ 2

/-- Each side is the window next to the place. -/
lemma exists_sides (content url : String) (start stop : Nat) :
    ∃ front rest, front ++ rest = content.toList ∧
      Text.byteLength front = (ofRange content url start stop).start.offset ∧
      (ofRange content url start stop).before.toList = (window 100 2 front.reverse).reverse ∧
      (ofRange content url start stop).after.toList = window 100 2 rest := by
  have cut := List.prefix_iff_eq_append.1 (Location.frontWithin_isFront start content.toList)
  exact ⟨_, _, cut, rfl, String.toList_ofList, String.toList_ofList⟩

/-- The text before the place of a span and the text behind it are the longest that may be shown,
and together they are a piece of the file with the place between them. -/
theorem context_widest (content url : String) (start stop : Nat) :
    let span := ofRange content url start stop
    ∃ front rest : String, content = front ++ rest ∧ front.utf8ByteSize = span.start.offset ∧
      IsLongestEnd Shown front.toList span.before.toList ∧
      IsLongestFront Shown rest.toList span.after.toList ∧
      ∃ lead tail, content = lead ++ (span.before ++ span.after) ++ tail ∧
        (lead ++ span.before).utf8ByteSize = span.start.offset := by
  obtain ⟨front, rest, cut, place, before, after⟩ := exists_sides content url start stop
  have widestBefore := (isLongestFront_window 100 2 front.reverse).reverse Within.reverse
  have widestAfter := isLongestFront_window 100 2 rest
  rw [← before] at widestBefore
  rw [← after] at widestAfter
  obtain ⟨lead, hlead⟩ := widestBefore.isEnd
  obtain ⟨tail, htail⟩ := widestAfter.isFront
  refine ⟨String.ofList front, String.ofList rest, ?_, ?_, ?_, ?_,
    String.ofList lead, String.ofList tail, ?_, ?_⟩
  · rw [← String.ofList_append, cut, String.ofList_toList]
  · rw [← Text.byteLength_toList, String.toList_ofList, place]
  · rw [String.toList_ofList]
    exact widestBefore
  · rw [String.toList_ofList]
    exact widestAfter
  · apply String.toList_inj.1
    simp only [String.toList_append, String.toList_ofList]
    rw [← List.append_assoc, hlead, List.append_assoc, htail, cut]
  · rw [← Text.byteLength_toList, String.toList_append, String.toList_ofList, hlead, place]

end MessageCatalog.Span
