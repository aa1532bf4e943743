import MessageCatalog.Proofs.Block
import MessageCatalog.Proofs.Message

/-!
# The identity of a message

A message has an id of its own or that of its text and meaning, and keeps every other id that it is
known by. Only a part with a block that is not closed keeps a template from being a message.
-/

namespace MessageCatalog

/-- The cooked and the raw string of a part of a template. A missing raw string is the cooked one;
the first part is there in any case. -/
def Template.part (t : Template) (index : Nat) : String × String :=
  let cooked := t.cooked.getD index ""
  (cooked, t.raw.getD index cooked)

/-- The digest of the text and the meaning of a message. -/
def Message.digest (m : Message) : String :=
  Digest.messageId m.text m.meaning

/-! ## Parts that are not read -/

/-- A step that leads on whenever it succeeds fails for itself or for what comes then. -/
lemma bind_eq_error_iff {α β ε : Type} {x : Except ε α} {f : α → Except ε β} {e fault : ε}
    {Fails Later : Prop} (hx : ∀ e, x = .error e ↔ Fails ∧ e = fault)
    (hf : ∀ a, f a = .error e ↔ Later) :
    x >>= f = .error e ↔ (Fails ∧ e = fault) ∨ (¬ Fails ∧ Later) := by
  cases x with
  | error e' =>
    have fails := (hx e').1 rfl
    rw [or_iff_left fun h => h.1 fails.1, and_iff_right fails.1, ← fails.2, eq_comm]
    exact ⟨Except.error.inj, congrArg Except.error⟩
  | ok a =>
    have succeeds : ¬ Fails := fun fails => nomatch (hx fault).2 ⟨fails, rfl⟩
    rw [or_iff_right fun h => succeeds h.1, and_iff_right succeeds]
    exact hf a

/-- A step behind which nothing fails is the only one to fail. -/
lemma bind_eq_error_of_ok {α β ε : Type} {x : Except ε α} {f : α → Except ε β}
    (hf : ∀ a, ∃ b, f a = .ok b) {e : ε} : x >>= f = .error e ↔ x = .error e := by
  cases x with
  | error e' =>
    constructor
    · exact fun h => congrArg _ (Except.error.inj h)
    · exact fun h => congrArg _ (Except.error.inj h)
  | ok a =>
    obtain ⟨b, hb⟩ := hf a
    exact iff_of_false (fun h => nomatch hb.symm.trans h) nofun

/-- Two steps succeed when the first does and the second does with what it gives. -/
lemma bind_eq_ok {α β ε : Type} {x : Except ε α} {f : α → Except ε β} {b : β}
    (h : x >>= f = .ok b) : ∃ a, x = .ok a ∧ f a = .ok b := by
  cases x with
  | error e => cases h
  | ok a => exact ⟨a, rfl, h⟩

/-- Metadata cannot be read when its block is not closed, and the error shows the raw text. -/
lemma Metadata.parse_eq_error_iff {cooked raw : String} (e : UnterminatedBlock) :
    parse cooked raw = .error e ↔ Block.Unclosed cooked raw ∧ e = ⟨raw⟩ := by
  rw [← Block.split_eq_error_iff]
  refine bind_eq_error_of_ok ?_
  rintro ⟨_ | block, text⟩ <;> exact ⟨_, rfl⟩

/-- A placeholder cannot be read when its block is not closed, and the error shows the raw text. -/
lemma PlaceholderPart.parse_eq_error_iff {cooked raw : String} (e : UnterminatedBlock) :
    parse cooked raw = .error e ↔ Block.Unclosed cooked raw ∧ e = ⟨raw⟩ := by
  rw [← Block.split_eq_error_iff]
  refine bind_eq_error_of_ok ?_
  rintro ⟨_ | block, text⟩ <;> exact ⟨_, rfl⟩

/-- A part is the first, from one on and below another, with a block that is not closed. -/
structure FirstUnclosed (part : Nat → String × String) (first bound index : Nat) : Prop where
  le : first ≤ index
  lt : index < bound
  unclosed : Block.Unclosed (part index).1 (part index).2
  closed_before : ∀ i, first ≤ i → i < index → ¬ Block.Unclosed (part i).1 (part i).2

/-- The first unclosed part is the one at hand or the first of those behind it. -/
lemma exists_firstUnclosed_iff {part : Nat → String × String} {first bound : Nat}
    (h : first < bound) {e : UnterminatedBlock} :
    (∃ i, FirstUnclosed part first bound i ∧ e = ⟨(part i).2⟩) ↔
      (Block.Unclosed (part first).1 (part first).2 ∧ e = ⟨(part first).2⟩) ∨
        (¬ Block.Unclosed (part first).1 (part first).2 ∧
          ∃ i, FirstUnclosed part (first + 1) bound i ∧ e = ⟨(part i).2⟩) := by
  constructor
  · rintro ⟨i, found, rfl⟩
    rcases Nat.eq_or_lt_of_le found.le with rfl | later
    · exact .inl ⟨found.unclosed, rfl⟩
    · refine .inr ⟨found.closed_before first (Nat.le_refl first) later, i, ?_, rfl⟩
      exact ⟨later, found.lt, found.unclosed, fun j hj => found.closed_before j (Nat.le_of_lt hj)⟩
  · rintro (⟨unclosed, rfl⟩ | ⟨closed, i, found, rfl⟩)
    · exact ⟨first, ⟨Nat.le_refl first, h, unclosed, fun j hj hj' => by omega⟩, rfl⟩
    · refine ⟨i, ⟨Nat.le_of_lt found.le, found.lt, found.unclosed, fun j hj hj' => ?_⟩, rfl⟩
      rcases Nat.eq_or_lt_of_le hj with rfl | later
      · exact closed
      · exact found.closed_before j later hj'

namespace Message

/-- A cooked part is paired with the raw part of the same number, or with itself. -/
lemma pairRaw_eq_map (cooked raw : List String) :
    pairRaw cooked raw =
      (List.range cooked.length).map fun index =>
        (cooked.getD index "", raw.getD index (cooked.getD index "")) := by
  induction cooked generalizing raw with
  | nil => cases raw <;> rfl
  | cons c cooked ih =>
    cases raw with
    | nil =>
      rw [pairRaw, ih, List.length_cons, List.range_succ_eq_map, List.map_cons, List.map_map]
      rfl
    | cons r raw =>
      rw [pairRaw, ih, List.length_cons, List.range_succ_eq_map, List.map_cons, List.map_map]
      rfl

/-- The later parts of a template in order. -/
lemma pairRaw_drop_one (t : Template) :
    pairRaw (t.cooked.drop 1) (t.raw.drop 1) =
      (List.range' 1 (t.cooked.length - 1)).map t.part := by
  rw [pairRaw_eq_map, List.length_drop, List.range'_eq_map_range, List.map_map]
  refine List.map_congr_left fun index _ => ?_
  simp only [Function.comp_apply, Template.part, List.getD_eq_getElem?_getD, List.getElem?_drop]

/-- A run of parts is not read exactly when one of them has a block that is not closed. -/
lemma laterParts_eq_error_iff {part : Nat → String × String} (index : Nat) {first count : Nat}
    {e : UnterminatedBlock} :
    laterParts index ((List.range' first count).map part) = .error e ↔
      ∃ i, FirstUnclosed part first (first + count) i ∧ e = ⟨(part i).2⟩ := by
  induction count generalizing index first with
  | zero =>
    refine iff_of_false nofun ?_
    rintro ⟨i, found, -⟩
    exact Nat.not_lt.2 found.le found.lt
  | succ count ih =>
    have later : first + 1 + count = first + (count + 1) := by omega
    rw [List.range'_succ, List.map_cons, laterParts, exists_firstUnclosed_iff (by omega), ← later]
    refine bind_eq_error_iff PlaceholderPart.parse_eq_error_iff fun p => ?_
    rw [← ih (index + 1)]
    exact bind_eq_error_of_ok fun more => ⟨_, rfl⟩

/-- There are as many texts behind placeholders as there are parts for them. -/
lemma length_of_laterParts {index : Nat} {pairs later : List (String × String)}
    (h : laterParts index pairs = .ok later) : later.length = pairs.length := by
  induction pairs generalizing index later with
  | nil =>
    cases h
    rfl
  | cons pair pairs ih =>
    obtain ⟨p, -, h⟩ := bind_eq_ok h
    obtain ⟨more, rest, h⟩ := bind_eq_ok h
    cases h
    rw [List.length_cons, List.length_cons, ih rest]

/-- Each part that is read gives a name and a text at its place. -/
lemma getElem?_of_laterParts {part : Nat → String × String} {index first count : Nat}
    {later : List (String × String)}
    (h : laterParts index ((List.range' first count).map part) = .ok later) {i : Nat}
    (hi : i < count) :
    ∃ p, PlaceholderPart.parse (part (first + i)).1 (part (first + i)).2 = .ok p ∧
      later[i]? = some (p.name.getD (Placeholder.positionalName (index + i)), p.text) := by
  induction count generalizing index first later i with
  | zero => exact absurd hi i.not_lt_zero
  | succ count ih =>
    rw [List.range'_succ, List.map_cons] at h
    obtain ⟨p, read, h⟩ := bind_eq_ok h
    obtain ⟨more, rest, h⟩ := bind_eq_ok h
    cases h
    cases i with
    | zero => exact ⟨p, read, rfl⟩
    | succ i =>
      obtain ⟨q, readLater, there⟩ := ih rest (Nat.lt_of_succ_lt_succ hi)
      rw [Nat.add_right_comm] at readLater there
      exact ⟨q, readLater, there⟩

/-- A message is made of all parts of a template in order. -/
lemma ofTemplate_eq (t : Template) :
    ofTemplate t = (do
      let metadata ← Metadata.parse (t.part 0).1 (t.part 0).2
      let later ← laterParts 1 ((List.range' 1 (t.cooked.length - 1)).map t.part)
      return assemble metadata later t.substitutions) := by
  have first : t.part 0 = (t.cooked.headD "", t.raw.headD (t.cooked.headD "")) := by
    rw [Template.part, List.headD_eq_head?_getD, List.headD_eq_head?_getD, List.head?_eq_getElem?,
      List.head?_eq_getElem?, ← List.getD_eq_getElem?_getD, ← List.getD_eq_getElem?_getD]
  rw [ofTemplate, first, pairRaw_drop_one]

/-- A template is no message exactly when a block is not closed; the first such block is named. -/
lemma ofTemplate_eq_error_iff {t : Template} {e : UnterminatedBlock} :
    ofTemplate t = .error e ↔
      ∃ i, FirstUnclosed t.part 0 (max 1 t.cooked.length) i ∧ e = ⟨(t.part i).2⟩ := by
  have bound : max 1 t.cooked.length = 1 + (t.cooked.length - 1) := by omega
  rw [ofTemplate_eq, exists_firstUnclosed_iff (by omega), bound]
  refine bind_eq_error_iff Metadata.parse_eq_error_iff fun metadata => ?_
  rw [← laterParts_eq_error_iff 1]
  exact bind_eq_error_of_ok fun later => ⟨_, rfl⟩

/-! ## What a message is made of -/

/-- A first text and, in turn, a placeholder and a text. -/
lemma interleave_eq (first : String) (later : List (String × String)) :
    Placeholder.interleave (first :: later.map Prod.snd) (later.map Prod.fst) =
      first ++ String.join (later.map fun p => Placeholder.token p.1 ++ p.2) := by
  rw [← String.toList_inj, Placeholder.toList_interleave]
  induction later generalizing first with
  | nil => simp [Placeholder.joinChars]
  | cons pair later ih =>
    rw [List.map_cons, Placeholder.joinChars, ih pair.2]
    simp [Placeholder.token, String.join_cons]

/-- The id is not among the other ids. -/
lemma id_not_mem_otherIds (metadata : Metadata) (digest id : String) :
    id ∉ otherIds metadata digest id := by
  have listed : id ∉ metadata.legacyIds.filter (· ≠ id) := by simp
  rw [otherIds]
  split
  case isTrue hidden =>
    rw [List.mem_append, List.mem_singleton, not_or]
    exact ⟨listed, Ne.symm hidden.2.1⟩
  case isFalse => exact listed

/-- The listed ids come first, and at most the digest behind them. -/
lemma otherIds_eq (metadata : Metadata) (digest id : String) :
    otherIds metadata digest id = metadata.legacyIds.filter (· ≠ id) ∨
      otherIds metadata digest id = metadata.legacyIds.filter (· ≠ id) ++ [digest] := by
  rw [otherIds]
  split
  case isTrue => exact .inr rfl
  case isFalse => exact .inl rfl

/-- The digest is another id exactly when an id of the message's own hides it. -/
lemma digest_mem_otherIds_iff (metadata : Metadata) (digest : String) :
    digest ∈ otherIds metadata digest (metadata.customId.getD digest) ↔
      ∃ id, metadata.customId = some id ∧ id ≠ digest := by
  cases e : metadata.customId with
  | none =>
    refine iff_of_false ?_ nofun
    exact id_not_mem_otherIds metadata digest digest
  | some id =>
    have own : (∃ id', some id = some id' ∧ id' ≠ digest) ↔ id ≠ digest := by simp
    rw [own, Option.getD_some, otherIds]
    split
    case isTrue hidden =>
      exact iff_of_true (List.mem_append_right _ (List.mem_singleton_self _)) (Ne.symm hidden.2.1)
    case isFalse shown =>
      constructor
      · rintro listed rfl
        simp at listed
      · intro ne
        by_contra missing
        exact shown ⟨by rw [e]; rfl, Ne.symm ne, missing⟩

/-- The description takes part in nothing but itself. -/
lemma assemble_description (metadata : Metadata) (description : Option String)
    (later : List (String × String)) (substitutions substitutions' : List String) :
    assemble { metadata with description } later substitutions' =
      { assemble metadata later substitutions with
        description := description.getD ""
        substitutions := substitutions' } := rfl

/-- What a message has of its template, the first block of which says `block`. -/
structure MadeOf (t : Template) (block : Metadata) (m : Message) : Prop where
  parts_length : m.parts.length = max 1 t.cooked.length
  names_length : m.placeholderNames.length + 1 = m.parts.length
  first_part : m.parts.head? = some block.text
  /-- A part has the text of its string, and names the placeholder before it or leaves that to its
  place. -/
  later_part : ∀ i, i + 1 < t.cooked.length →
    ∃ p, PlaceholderPart.parse (t.part (i + 1)).1 (t.part (i + 1)).2 = .ok p ∧
      m.placeholderNames[i]? = some (p.name.getD (Placeholder.positionalName (i + 1))) ∧
      m.parts[i + 1]? = some p.text
  text : m.text = m.parts.headD "" ++
    String.join ((m.placeholderNames.zip (m.parts.drop 1)).map fun p =>
      "\x7b$" ++ p.1 ++ "\x7d" ++ p.2)
  meaning : m.meaning = block.meaning.getD ""
  id : m.id = block.customId.getD m.digest
  id_not_mem : m.id ∉ m.legacyIds
  /-- The other ids that the block lists, in their order, and nothing but the digest behind them. -/
  legacyIds : m.legacyIds = block.legacyIds.filter (· ≠ m.id) ∨
    m.legacyIds = block.legacyIds.filter (· ≠ m.id) ++ [m.digest]
  digest_mem_iff : m.digest ∈ m.legacyIds ↔ ∃ id, block.customId = some id ∧ id ≠ m.digest

/-- A message is put together from the block of its first part and what the later parts give. -/
lemma madeOf_assemble {t : Template} {block : Metadata} {later : List (String × String)}
    (h : laterParts 1 ((List.range' 1 (t.cooked.length - 1)).map t.part) = .ok later)
    (substitutions : List String) : MadeOf t block (assemble block later substitutions) := by
  have length := length_of_laterParts h
  rw [List.length_map, List.length_range'] at length
  have pairs : (later.map Prod.fst).zip (later.map Prod.snd) = later := by
    rw [List.zip_map', List.map_id'']
    exact fun _ => rfl
  refine ⟨?_, ?_, rfl, ?_, ?_, rfl, rfl, id_not_mem_otherIds _ _ _, otherIds_eq _ _ _,
    digest_mem_otherIds_iff _ _⟩
  · rw [assemble, List.length_cons, List.length_map, length]
    omega
  · rw [assemble, List.length_cons, List.length_map, List.length_map]
  · intro i hi
    obtain ⟨p, read, there⟩ := getElem?_of_laterParts h (i := i) (by omega)
    rw [Nat.add_comm 1 i] at read there
    refine ⟨p, read, ?_, ?_⟩
    · rw [assemble, List.getElem?_map, there]
      rfl
    · rw [assemble, List.getElem?_cons_succ, List.getElem?_map, there]
      rfl
  · rw [assemble, List.headD_cons, List.drop_one, List.tail_cons, pairs]
    exact interleave_eq block.text later

/-- A message has a part for each string of its template and a placeholder between two of them, and
its text shows them in turn. Its id is its own one, where its block gives that, else the digest of
text and meaning; its other ids are those that the block lists, and the digest where an own id hides
it. The description has a say in none of this: a template that says the same but for the description
is the same message. A template is no message exactly when a block is not closed, and the first such
block is named. -/
theorem ofTemplate_identity (t : Template) :
    (∀ m, ofTemplate t = .ok m →
      ∃ block, Metadata.parse (t.part 0).1 (t.part 0).2 = .ok block ∧ MadeOf t block m ∧
        ∀ (t' : Template) (description : Option String),
          t'.cooked.drop 1 = t.cooked.drop 1 → t'.raw.drop 1 = t.raw.drop 1 →
            Metadata.parse (t'.part 0).1 (t'.part 0).2 = .ok { block with description } →
              ofTemplate t' = .ok { m with
                description := description.getD ""
                substitutions := t'.substitutions }) ∧
    ∀ e, ofTemplate t = .error e ↔
      ∃ i, FirstUnclosed t.part 0 (max 1 t.cooked.length) i ∧ e = ⟨(t.part i).2⟩ := by
  refine ⟨fun m h => ?_, fun e => ofTemplate_eq_error_iff⟩
  rw [ofTemplate_eq] at h
  obtain ⟨block, hblock, h⟩ := bind_eq_ok h
  obtain ⟨later, hlater, h⟩ := bind_eq_ok h
  cases h
  refine ⟨block, hblock, madeOf_assemble hlater _, ?_⟩
  intro t' description hcooked hraw hblock'
  rw [ofTemplate_eq, ← pairRaw_drop_one, hcooked, hraw, pairRaw_drop_one, hlater, hblock',
    ← assemble_description block description later t.substitutions t'.substitutions]
  rfl

/-- A message with an id of its own, listed ids and fewer raw strings than cooked ones. -/
def ownIdTemplate : Template where
  cooked := [":m|d@@hi␟old␟hi:Hi ", ":name: and ", "!"]
  raw := [":m|d@@hi␟old␟hi:Hi "]

/-- The same message with another description. -/
def redescribedTemplate : Template where
  cooked := [":m|@|@@hi␟old␟hi:Hi ", ":name: and ", "!"]
  raw := [":m|@|@@hi␟old␟hi:Hi "]

/-- A template with an id of its own, and the same template described in another way. -/
theorem ofTemplate_ownIdTemplate :
    ∃ m, ofTemplate ownIdTemplate = .ok m ∧ m.text = "Hi \x7b$name\x7d and \x7b$PH_1\x7d!" ∧
      m.id = "hi" ∧ m.id ∉ m.legacyIds ∧ m.digest ∈ m.legacyIds ∧
      ofTemplate redescribedTemplate = .ok { m with description := "@|", substitutions := [] } := by
  let block : Metadata := ⟨"Hi ", some "m", some "d", some "hi", ["old", "hi"]⟩
  let m := assemble block [("name", " and "), ("PH_1", "!")] []
  have read : ofTemplate ownIdTemplate = .ok m := by decide +kernel
  have hblock : Metadata.parse (ownIdTemplate.part 0).1 (ownIdTemplate.part 0).2 = .ok block := by
    decide +kernel
  obtain ⟨block', hblock', made, described⟩ := (ofTemplate_identity ownIdTemplate).1 m read
  obtain rfl : block = block' := Except.ok.inj (hblock.symm.trans hblock')
  have hidden := made.digest_mem_iff.2 ⟨"hi", rfl, by decide +kernel⟩
  refine ⟨m, read, by decide +kernel, made.id, made.id_not_mem, hidden, ?_⟩
  exact described redescribedTemplate (some "@|") rfl rfl (by decide +kernel)

end Message

end MessageCatalog
