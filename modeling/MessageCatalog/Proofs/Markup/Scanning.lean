import MessageCatalog.Markup.Reader
import MessageCatalog.Proofs.Markup.Mixed

/-!
# Scanning a printed front

What the single steps of the reader do where a known front stands before an arbitrary rest: each
goes past exactly that front and leaves the builder alone. Later modules chain these lemmas and
never open the steps.
-/

namespace MessageCatalog.Markup.Read

open Text (Leaves)

variable {α β : Type} {s t : ReaderState} {b : Builder} {o : Nat} {l : List Char}

/-- A step that gives a result is followed by what the result selects. -/
lemma run_bind_of_ok {x : Read α} {f : α → Read β} {a : α} (h : x.run s = .ok (a, t)) :
    (x >>= f).run s = (f a).run t := by
  rw [StateT.run_bind, h]
  rfl

/-! ## Single characters -/

/-- Asking for the rest gives it and takes nothing. -/
lemma run_rest : rest.run ⟨⟨l, o⟩, b⟩ = .ok (l, ⟨⟨l, o⟩, b⟩) := rfl

/-- Asking for the place gives it and takes nothing. -/
lemma run_offset : offset.run ⟨⟨l, o⟩, b⟩ = .ok (o, ⟨⟨l, o⟩, b⟩) := rfl

/-- Asking for the state gives it. -/
lemma run_get : (get : Read ReaderState).run s = .ok (s, s) := rfl

/-- The state can be changed at any place. -/
lemma run_modify (f : ReaderState → ReaderState) :
    (modify f : Read Unit).run s = .ok ((), f s) := rfl

/-- A step of the builder that succeeds is taken where the reader stands. -/
lemma run_build {f : Builder → Except Fault Builder} {b' : Builder} (h : f b = .ok b') :
    (build f).run ⟨⟨l, o⟩, b⟩ = .ok ((), ⟨⟨l, o⟩, b'⟩) := by
  have e : (build f).run ⟨⟨l, o⟩, b⟩ =
      (f b).bind fun b' => .ok ((), ⟨⟨l, o⟩, b'⟩) := by
    cases hf : f b <;> simp [build, hf] <;> rfl
  rw [e, h]
  rfl

/-- Looking ahead for a text takes nothing. -/
lemma run_ahead (text : String) :
    (ahead text).run ⟨⟨l, o⟩, b⟩ =
      .ok (Text.startsWith text.toList l, ⟨⟨l, o⟩, b⟩) := rfl

/-- Outside entities the reader knows so. -/
lemma run_withinEntity (hb : b.entityDepth = 0) :
    withinEntity.run ⟨⟨l, o⟩, b⟩ = .ok (false, ⟨⟨l, o⟩, b⟩) := by
  rw [withinEntity, run_bind_of_ok run_get, hb]
  rfl

/-- Peeking gives the next character and takes nothing. -/
lemma run_peek (c : Char) :
    peek.run ⟨⟨c :: l, o⟩, b⟩ = .ok (c, ⟨⟨c :: l, o⟩, b⟩) := rfl

/-- Skipping takes as many characters as it is told. -/
lemma run_skip {n : Nat} (front : List Char) (h : front.length = n) :
    (skip n).run ⟨⟨front ++ l, o⟩, b⟩ =
      .ok ((), ⟨⟨l, o + Text.byteLength front⟩, b⟩) := by
  subst h
  have e : (skip front.length).run ⟨⟨front ++ l, o⟩, b⟩ =
      .ok ((), ⟨⟨(front ++ l).drop front.length,
        o + Text.byteLength ((front ++ l).take front.length)⟩, b⟩) := rfl
  rw [e, List.take_left, List.drop_left]

/-- Skipping one takes the next character. -/
lemma run_skip_one (c : Char) :
    (skip 1).run ⟨⟨c :: l, o⟩, b⟩ = .ok ((), ⟨⟨l, o + c.utf8Size⟩, b⟩) := rfl

/-- A character that is expected is taken. -/
lemma run_expectChar (c : Char) :
    (expectChar c).run ⟨⟨c :: l, o⟩, b⟩ = .ok ((), ⟨⟨l, o + c.utf8Size⟩, b⟩) := by
  rw [expectChar, run_bind_of_ok (run_peek c), if_pos rfl]
  exact run_skip_one c

/-- A text that is expected is taken. -/
lemma run_expectText (text : String) :
    (expectText text).run ⟨⟨text.toList ++ l, o⟩, b⟩ =
      .ok ((), ⟨⟨l, o + Text.byteLength text.toList⟩, b⟩) := by
  rw [expectText, run_bind_of_ok (run_ahead text), Text.startsWith_append, if_pos rfl]
  exact run_skip _ String.length_toList

/-- A quote that is expected is taken. -/
lemma run_expectQuote :
    expectQuote.run ⟨⟨'"' :: l, o⟩, b⟩ = .ok ('"', ⟨⟨l, o + 1⟩, b⟩) := by
  rw [expectQuote, run_bind_of_ok (run_peek '"'), if_pos (.inl rfl)]
  rfl

/-- Whether white space comes next is seen without taking it. -/
lemma run_atSpace (c : Char) :
    atSpace.run ⟨⟨c :: l, o⟩, b⟩ = .ok (isSpace c, ⟨⟨c :: l, o⟩, b⟩) := rfl

/-! ## Runs of characters -/

/-- Characters of a class are taken up to where it is left. -/
lemma run_takeWhile {p : Char → Bool} {front : List Char} (hf : ∀ c ∈ front, p c = true)
    (ht : Leaves p l) :
    (takeWhile p).run ⟨⟨front ++ l, o⟩, b⟩ =
      .ok (front, ⟨⟨l, o + Text.byteLength front⟩, b⟩) := by
  have e : (takeWhile p).run ⟨⟨front ++ l, o⟩, b⟩ =
      .ok ((front ++ l).takeWhile p, ⟨⟨(front ++ l).dropWhile p,
        o + Text.byteLength ((front ++ l).takeWhile p)⟩, b⟩) := rfl
  rw [e, ht.takeWhile_append hf, ht.dropWhile_append hf]

/-- White space is skipped up to where it ends. -/
lemma run_skipSpaces (front : List Char) (hf : ∀ c ∈ front, isSpace c = true)
    (ht : Leaves isSpace l) :
    skipSpaces.run ⟨⟨front ++ l, o⟩, b⟩ =
      .ok ((), ⟨⟨l, o + Text.byteLength front⟩, b⟩) := by
  rw [skipSpaces, run_bind_of_ok (run_takeWhile hf ht)]
  rfl

/-- Where no white space comes next, nothing is skipped. -/
lemma run_skipSpaces_nil (ht : Leaves isSpace l) :
    skipSpaces.run ⟨⟨l, o⟩, b⟩ = .ok ((), ⟨⟨l, o⟩, b⟩) :=
  run_skipSpaces [] nofun ht

/-- A run ends at the first place where `stop` holds. -/
lemma splitWhere_append {stop : List Char → Bool} {front : List Char}
    (hf : ∀ c ∈ front, ∀ left, stop (c :: left) = false) (ht : l = [] ∨ stop l = true) :
    splitWhere stop (front ++ l) = (front, l) := by
  induction front with
  | nil =>
    cases l with
    | nil => rfl
    | cons c l =>
      have h := ht.resolve_left (List.cons_ne_nil c l)
      simp [splitWhere, h]
  | cons c front ih =>
    have hc := hf c List.mem_cons_self (front ++ l)
    have hf' : ∀ d ∈ front, ∀ left, stop (d :: left) = false :=
      fun d m => hf d (List.mem_cons_of_mem c m)
    simp [splitWhere, hc, ih hf']

/-- A run of characters that a document may hold is taken up to a character of the class that
`stop` asks for. -/
lemma run_takeUntil (stop : List Char → Bool) {p : Char → Bool} {front : List Char}
    (hs : ∀ c left, stop (c :: left) = p c)
    (hf : ∀ c ∈ front, isXmlChar c = true ∧ p c = false)
    (ht : ∀ c ∈ l.head?, isXmlChar c = true ∧ p c = true) :
    (takeUntil stop).run ⟨⟨front ++ l, o⟩, b⟩ =
      .ok (front, ⟨⟨l, o + Text.byteLength front⟩, b⟩) := by
  have split : splitWhere (fun left => stop left || !isXmlChar (left.headD ' '))
      (front ++ l) = (front, l) := by
    apply splitWhere_append
    · intro c m left
      simp [hs, hf c m]
    · cases l with
      | nil => exact .inl rfl
      | cons c l => simp [hs, ht c rfl]
  rw [takeUntil, run_bind_of_ok run_rest]
  simp only [split]
  cases l with
  | nil => rfl
  | cons c l =>
    have hc := (ht c rfl).1
    rw [StateT.run_bind]
    simp only [hc, if_true]
    rfl

/-! ## Names -/

/-- The first character of a plain name and the rest. -/
lemma isPlainName_iff {name : String} :
    isPlainName name = true ↔
      (∃ c, name.toList.head? = some c ∧ isNameStart c = true) ∧
        ∀ c ∈ name.toList, isNameChar c = true ∧ c ≠ ':' := by
  simp [isPlainName, Option.any_eq_true]

/-- A plain name begins with a character that may begin a name. -/
lemma head_of_isPlainName {name : String} (h : isPlainName name = true) :
    ∃ c text, name.toList = c :: text ∧ isNameStart c = true := by
  obtain ⟨⟨c, hc, hs⟩, -⟩ := isPlainName_iff.1 h
  cases e : name.toList with
  | nil => rw [e] at hc; cases hc
  | cons d text =>
    rw [e] at hc
    cases hc
    exact ⟨c, text, rfl, hs⟩

/-- No name starts as white space or any markup but a start tag does. -/
lemma ne_of_isNameStart {c : Char} (h : isNameStart c = true) :
    isSpace c = false ∧ c ≠ '/' ∧ c ≠ '>' ∧ c ≠ '!' ∧ c ≠ '?' := by
  have ne : ∀ d, isNameStart d = false → c ≠ d := by
    rintro d hd rfl
    rw [h] at hd
    cases hd
  have blank := ne ' ' (by decide)
  have tab := ne '\t' (by decide)
  have newline := ne '\n' (by decide)
  have cr := ne '\r' (by decide)
  exact ⟨by simp [isSpace, blank, tab, newline, cr], ne '/' (by decide), ne '>' (by decide),
    ne '!' (by decide), ne '?' (by decide)⟩

/-- A plain name starts as names do. -/
lemma startsAsName_of_isPlainName {name : String} (h : isPlainName name = true) :
    startsAsName name.toList = true := by
  obtain ⟨c, text, e, hs⟩ := head_of_isPlainName h
  rw [e]
  exact hs

/-- A plain name is a name without a namespace in front of it. -/
lemma splitName_of_isPlainName {name : String} (h : isPlainName name = true) :
    splitName name.toList = some ([], name.toList) := by
  obtain ⟨-, hn⟩ := isPlainName_iff.1 h
  have hc : ':' ∉ name.toList := fun m => (hn ':' m).2 rfl
  rw [splitName, Text.cutAt?_eq_none List.mem_cons_self hc]

/-- A plain name is read without a prefix. -/
lemma run_qualifiedName {name : String} (h : isPlainName name = true)
    (ht : Leaves isNameChar l) :
    qualifiedName.run ⟨⟨name.toList ++ l, o⟩, b⟩ =
      .ok (("", name), ⟨⟨l, o + Text.byteLength name.toList⟩, b⟩) := by
  have hf : ∀ c ∈ name.toList, isNameChar c = true := fun c m => ((isPlainName_iff.1 h).2 c m).1
  rw [qualifiedName, run_bind_of_ok run_offset, run_bind_of_ok (run_takeWhile hf ht)]
  simp only [splitName_of_isPlainName h, startsAsName_of_isPlainName h, List.isEmpty_nil,
    Bool.true_or, Bool.and_true, if_true, String.ofList_toList]
  rfl

end MessageCatalog.Markup.Read
