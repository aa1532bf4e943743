import MessageCatalog.Json.Reader
import MessageCatalog.Json.Writer
import MessageCatalog.Proofs.Text

/-!
# Strings from writing to reading

Every string can be written: a character of it is kept, or it is escaped in one of two ways, and
the reader takes each of the three forms for the character again. Steps are described by what they
take off the text, so that they can be put in a row without looking at places.
-/

namespace MessageCatalog.Json.Scan

/-- A step goes past `front` and gives `a`, where `rest` stands behind it. -/
def Takes {α : Type} (step : Scan α) (front : List Char) (a : α) (rest : List Char) : Prop :=
  ∀ o, step.run ⟨front ++ rest, o⟩ = (.ok a, ⟨rest, o + Text.byteLength front⟩)

variable {α β : Type} {a : α} {b : β} {front front' l : List Char}

/-! ## Steps in a row -/

/-- Answering without a step takes nothing. -/
lemma Takes.pure : Takes (Pure.pure a) [] a l := fun _ => rfl

/-- Steps in a row take what stands in a row. -/
lemma Takes.bind {x : Scan α} {f : α → Scan β} (hx : Takes x front a (front' ++ l))
    (hf : Takes (f a) front' b l) : Takes (x >>= f) (front ++ front') b l := by
  intro o
  have first := hx o
  have second := hf (o + Text.byteLength front)
  -- The second step starts where the first one stopped.
  have both : (x >>= f).run ⟨front ++ (front' ++ l), o⟩ =
      (f a).run ⟨front' ++ l, o + Text.byteLength front⟩ := by
    change (ExceptT.bindCont f (x.run ⟨front ++ (front' ++ l), o⟩).1)
      (x.run ⟨front ++ (front' ++ l), o⟩).2 = _
    rw [first]
    rfl
  rw [List.append_assoc, both, second, Text.byteLength_append, Nat.add_assoc]

/-- A step may be followed by one that takes nothing. -/
lemma Takes.bind_nil {x : Scan α} {f : α → Scan β} (hx : Takes x front a l)
    (hf : Takes (f a) [] b l) : Takes (x >>= f) front b l := by
  have both : Takes (x >>= f) (front ++ []) b l := hx.bind hf
  rw [List.append_nil] at both
  exact both

/-- A step may follow one that takes nothing. -/
lemma Takes.nil_bind {x : Scan α} {f : α → Scan β} (hx : Takes x [] a (front ++ l))
    (hf : Takes (f a) front b l) : Takes (x >>= f) front b l :=
  hx.bind hf

/-- A look at the text takes nothing. -/
lemma takes_rest : Takes rest [] l l := fun _ => rfl

/-- Skipping takes as many characters as it is told. -/
lemma takes_skip (front : List Char) : Takes (skip front.length) front () l := by
  intro o
  have e : (skip front.length).run ⟨front ++ l, o⟩ =
      (.ok (), Cursor.skip ⟨front ++ l, o⟩ front.length) := rfl
  rw [e, Cursor.skip, List.take_left, List.drop_left]

/-- A step may look at the text first. -/
lemma Takes.look {f : List Char → Scan β} (h : Takes (f (front ++ l)) front b l) :
    Takes (rest >>= f) front b l :=
  takes_rest.nil_bind h

/-- A step may look at its place first. -/
lemma Takes.lookAt {f : Cursor → Scan β} (h : ∀ o, Takes (f ⟨front ++ l, o⟩) front b l) :
    Takes (get >>= f) front b l :=
  fun o => h o o

/-- A step may go past a character first. -/
lemma Takes.past {x : Scan β} {c : Char} (h : Takes x front b l) :
    Takes (skip 1 >>= fun _ => x) (c :: front) b l :=
  (takes_skip [c]).bind h

/-! ## Characters -/

/-- A character of a string is written with a backslash and a letter, as a number, or as it is. -/
lemma escapeChar_cases (c : Char) :
    (∃ letter, escapeChar c = ['\\', letter] ∧ letter ≠ 'u' ∧ shortEscape? letter = some c) ∨
      (c.toNat < 0x20 ∧ escapeChar c =
        ['\\', 'u', '0', '0', hexDigit (c.toNat / 16), hexDigit (c.toNat % 16)]) ∨
      (0x20 ≤ c.toNat ∧ escapeChar c = [c] ∧ c ≠ '"' ∧ c ≠ '\\') := by
  unfold escapeChar
  split
  case h_8 quote backslash _ _ _ _ _ =>
    split
    case isTrue small => exact .inr (.inl ⟨small, rfl⟩)
    case isFalse large => exact .inr (.inr ⟨Nat.le_of_not_lt large, rfl, quote, backslash⟩)
  all_goals exact .inl ⟨_, rfl, by decide, rfl⟩

/-- The digits of a control character spell its number. -/
lemma hexNumber?_control {n : Nat} (h : n < 0x20) :
    hexNumber? ['0', '0', hexDigit (n / 16), hexDigit (n % 16)] = some n := by
  have all : ∀ m < 0x20, hexNumber? ['0', '0', hexDigit (m / 16), hexDigit (m % 16)] = some m := by
    decide
  exact all n h

/-- Four hexadecimal digits are taken as their number. -/
lemma takes_hexEscape {digits : List Char} {n : Nat} (hlength : digits.length = 4)
    (hn : hexNumber? digits = some n) : Takes hexEscape digits n l := by
  -- Digits are counted in bytes and taken in characters.
  have enough : ¬ Text.byteLength (digits ++ l) < 4 := by
    have h := Text.length_le_byteLength (digits ++ l)
    rw [List.length_append] at h
    omega
  have taken : (digits ++ l).take 4 = digits := List.take_left' hlength
  have skips : Takes (skip 4) digits () l := hlength ▸ takes_skip digits
  rw [hexEscape]
  refine .lookAt fun o => ?_
  dsimp only
  rw [if_neg enough, taken, hn]
  exact skips.bind_nil .pure

/-- A control character is found again behind the letter that says that digits follow. -/
lemma takes_unicodeEscape (care : Care) {c : Char} (hc : c.toNat < 0x20) :
    Takes (unicodeEscape care) ['0', '0', hexDigit (c.toNat / 16), hexDigit (c.toNat % 16)] c
      l := by
  have notTrailing : isTrailing c.toNat = false := by
    rw [isTrailing, Bool.and_eq_false_iff]
    exact .inl (decide_eq_false (by omega))
  have notLeading : isLeading c.toNat = false := by
    rw [isLeading, Bool.and_eq_false_iff]
    exact .inl (decide_eq_false (by omega))
  have digits := takes_hexEscape (l := l) rfl (hexNumber?_control hc)
  rw [unicodeEscape]
  refine digits.bind_nil ?_
  rw [notTrailing, notLeading, Char.ofNat_toNat]
  cases care with
  | wanted => exact .pure
  | skipped => exact .pure

/-- A short escape is taken as the character that it stands for. -/
lemma takes_escape_letter (care : Care) {letter c : Char} (hu : letter ≠ 'u')
    (h : shortEscape? letter = some c) : Takes (escape care) [letter] c l := by
  rw [escape]
  refine .look ?_
  rw [List.singleton_append, List.head?_cons]
  split
  case h_1 none => cases none
  case h_2 some => exact absurd (Option.some.inj some) hu
  case h_3 d some =>
    cases some
    rw [h]
    exact .past .pure

/-- The escape of a control character is taken as that character. -/
lemma takes_escape_control (care : Care) {c : Char} (hc : c.toNat < 0x20) :
    Takes (escape care)
      ['u', '0', '0', hexDigit (c.toNat / 16), hexDigit (c.toNat % 16)] c l := by
  rw [escape]
  refine .look ?_
  exact .past (takes_unicodeEscape care hc)

/-! ## Strings -/

variable {text : String}

/-- A written character is added to those before it, whichever form it is written in. -/
lemma takes_character (care : Care) {fuel : Nat} {before : List Char} (c : Char)
    (h : Takes (stringLoop care fuel (c :: before)) front text l) :
    Takes (stringLoop care (fuel + 1) before) (escapeChar c ++ front) text l := by
  rw [stringLoop]
  -- One case for each form in which a character is written.
  rcases escapeChar_cases c with ⟨letter, e, hu, hc⟩ | ⟨small, e⟩ | ⟨large, e, quote, backslash⟩
  · rw [e]
    refine .look (.past ?_)
    exact (takes_escape_letter care hu hc).bind h
  · rw [e]
    refine .look (.past ?_)
    exact (takes_escape_control care small).bind h
  · rw [e]
    refine .look ?_
    rw [List.singleton_append, List.cons_append, List.head?_cons]
    split
    case h_1 none => cases none
    case h_2 some => exact absurd (Option.some.inj some) quote
    case h_3 some => exact absurd (Option.some.inj some) backslash
    case h_4 d some =>
      cases some
      rw [if_neg (Nat.not_lt_of_le large)]
      exact .past h

/-- The written characters of a string are read up to the closing quote. -/
lemma takes_stringLoop (care : Care) {fuel : Nat} (before : List Char) {letters : List Char}
    (hfuel : letters.length < fuel) :
    Takes (stringLoop care fuel before) (letters.flatMap escapeChar ++ ['"'])
      (String.ofList (before.reverse ++ letters)) l := by
  -- Every turn adds one character of the string to those before it, however many it takes.
  induction letters generalizing fuel before with
  | nil =>
    obtain ⟨fuel, rfl⟩ := Nat.exists_eq_succ_of_ne_zero (Nat.ne_zero_of_lt hfuel)
    rw [stringLoop, List.append_nil]
    exact .look (.past .pure)
  | cons c letters ih =>
    obtain ⟨fuel, rfl⟩ := Nat.exists_eq_succ_of_ne_zero (Nat.ne_zero_of_lt hfuel)
    have left : letters.length < fuel := Nat.lt_of_succ_lt_succ hfuel
    have read : (c :: before).reverse ++ letters = before.reverse ++ c :: letters := by
      rw [List.reverse_cons, List.append_assoc, List.singleton_append]
    rw [List.flatMap_cons, List.append_assoc, ← read]
    exact takes_character care c (ih (c :: before) left)

/-- Escaping makes no text shorter. -/
lemma length_le_flatMap_escapeChar (letters : List Char) :
    letters.length ≤ (letters.flatMap escapeChar).length := by
  induction letters with
  | nil => exact Nat.le_refl 0
  | cons c letters ih =>
    have one : 1 ≤ (escapeChar c).length := by
      rcases escapeChar_cases c with ⟨letter, e, -⟩ | ⟨-, e⟩ | ⟨-, e, -⟩
      all_goals
        rw [e]
        exact Nat.succ_le_succ (Nat.zero_le _)
    rw [List.flatMap_cons, List.length_append, List.length_cons, Nat.add_comm]
    exact Nat.add_le_add one ih

/-- Every string is read as it was before it was written. -/
theorem takes_string (care : Care) (text : String) :
    Takes (string care) (quoteChars text.toList) text l := by
  rw [string, quoteChars]
  refine .past (.look ?_)
  have enough : text.toList.length <
      ((text.toList.flatMap escapeChar ++ ['"']) ++ l).length + 1 := by
    have h := length_le_flatMap_escapeChar text.toList
    rw [List.length_append, List.length_append]
    omega
  have reads := takes_stringLoop (l := l) care [] enough
  rw [List.reverse_nil, List.nil_append, String.ofList_toList] at reads
  exact reads

end MessageCatalog.Json.Scan
