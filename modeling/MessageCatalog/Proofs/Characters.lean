import MessageCatalog.Proofs.Identity

/-!
# The characters of a message

Reading a template makes up hardly a character: the text, the notes, the ids and the names of a
message are cut out of the template, apart from digests, which are numbers, and from positional
names.
-/

namespace MessageCatalog

/-! ## Cuts -/

/-- Cutting at a separator makes up no characters. -/
lemma Text.subset_of_mem_pieces {separator : Char} {text piece : List Char}
    (h : piece ∈ pieces separator text) : piece ⊆ text := by
  induction text generalizing piece with
  | nil =>
    cases List.mem_singleton.1 h
    exact List.Subset.refl _
  | cons c text ih =>
    rw [pieces] at h
    split at h
    case isTrue =>
      rcases List.mem_cons.1 h with rfl | h
      · exact List.nil_subset _
      · exact List.subset_cons_of_subset c (ih h)
    case isFalse =>
      split at h
      case h_1 =>
        cases List.mem_singleton.1 h
        exact List.cons_subset_cons c (List.nil_subset text)
      case h_2 first rest cut =>
        rw [cut] at ih
        rcases List.mem_cons.1 h with rfl | h
        · exact List.cons_subset_cons c (ih List.mem_cons_self)
        · exact List.subset_cons_of_subset c (ih (List.mem_cons_of_mem first h))

/-- Cutting in two makes up no characters. -/
lemma Text.subset_of_cutAt? {separator text before after : List Char}
    (h : cutAt? separator text = some (before, after)) : before ⊆ text ∧ after ⊆ text := by
  rw [eq_append_of_cutAt? h]
  refine ⟨List.subset_append_left _ _, ?_⟩
  exact List.Subset.trans (List.subset_append_right _ _) (List.subset_append_right _ _)

namespace Block

/-- A block and the text behind it are parts of the cooked text. -/
lemma subset_of_split {cooked raw text : String} {block : Option String}
    (h : split cooked raw = .ok (block, text)) :
    (∀ b ∈ block, b.toList ⊆ cooked.toList) ∧ text.toList ⊆ cooked.toList := by
  rw [split_eq] at h
  split at h
  case isTrue =>
    split at h
    case h_1 inside behind cut =>
      cases h
      have cooked : cooked.toList.drop 1 = inside ++ marker :: behind :=
        eq_append_of_cutAtMarker? cut
      have all : inside ++ marker :: behind ⊆ _ := cooked ▸ List.drop_subset 1 _
      refine ⟨?_, ?_⟩
      · rintro _ ⟨⟩
        rw [String.toList_ofList]
        exact List.Subset.trans (List.subset_append_left _ _) all
      · rw [String.toList_ofList]
        exact List.Subset.trans (List.subset_cons_self _ _)
          (List.Subset.trans (List.subset_append_right _ _) all)
    case h_2 => cases h
  case isFalse =>
    cases h
    refine ⟨?_, List.Subset.refl _⟩
    rintro _ ⟨⟩

/-- Cutting off the id makes up no characters. -/
lemma subset_of_cutId (text : List Char) :
    (cutId text).1 ⊆ text ∧ ∀ id ∈ (cutId text).2, id ⊆ text := by
  rw [cutId]
  split
  case h_1 front id cut =>
    obtain ⟨before, after⟩ := Text.subset_of_cutAt? cut
    refine ⟨before, ?_⟩
    rintro _ ⟨⟩
    exact after
  case h_2 =>
    refine ⟨List.Subset.refl _, ?_⟩
    rintro _ ⟨⟩

/-- Cutting off the meaning makes up no characters. -/
lemma subset_of_cutMeaning (text : List Char) :
    (∀ meaning ∈ (cutMeaning text).1, meaning ⊆ text) ∧ (cutMeaning text).2 ⊆ text := by
  rw [cutMeaning]
  split
  case h_1 meaning description cut =>
    obtain ⟨before, after⟩ := Text.subset_of_cutAt? cut
    refine ⟨?_, after⟩
    rintro _ ⟨⟩
    exact before
  case h_2 =>
    refine ⟨?_, List.Subset.refl _⟩
    rintro _ ⟨⟩

end Block

/-! ## Parts -/

/-- Everything that the first part says about a message is made of these characters. -/
structure Metadata.Within (chars : List Char) (m : Metadata) : Prop where
  text : m.text.toList ⊆ chars
  meaning : ∀ meaning ∈ m.meaning, meaning.toList ⊆ chars
  description : ∀ description ∈ m.description, description.toList ⊆ chars
  customId : ∀ id ∈ m.customId, id.toList ⊆ chars

namespace Metadata

/-- Metadata has only characters of the block and of the text behind it. -/
lemma within_ofBlock {chars block : List Char} {text : String} (ht : text.toList ⊆ chars)
    (hb : block ⊆ chars) : (ofBlock text block).Within chars := by
  -- everything but the text is cut from what stands before the first separator of legacy ids
  have head : (Text.pieces Block.legacySeparator block).headD [] ⊆ chars := by
    cases cut : Text.pieces Block.legacySeparator block with
    | nil => exact List.nil_subset _
    | cons first rest =>
      have first : first ∈ Text.pieces Block.legacySeparator block := by
        rw [cut]
        exact List.mem_cons_self
      exact List.Subset.trans (Text.subset_of_mem_pieces first) hb
  have front := Block.subset_of_cutId ((Text.pieces Block.legacySeparator block).headD [])
  have notes := Block.subset_of_cutMeaning
    (Block.cutId ((Text.pieces Block.legacySeparator block).headD [])).1
  constructor
  case text => exact ht
  case meaning =>
    intro meaning h
    obtain ⟨chars, cut, rfl⟩ := Option.map_eq_some_iff.1 h
    rw [String.toList_ofList]
    exact List.Subset.trans (notes.1 chars cut) (List.Subset.trans front.1 head)
  case description =>
    intro description h
    rw [ofBlock] at h
    dsimp only at h
    split at h
    case isTrue => cases h
    case isFalse =>
      cases h
      rw [String.toList_ofList]
      exact List.Subset.trans notes.2 (List.Subset.trans front.1 head)
  case customId =>
    intro id h
    obtain ⟨chars, cut, rfl⟩ := Option.map_eq_some_iff.1 h
    rw [String.toList_ofList]
    exact List.Subset.trans (front.2 chars cut) head

/-- Parsed metadata has only characters of the cooked text. -/
lemma within_of_parse {cooked raw : String} {m : Metadata} (h : parse cooked raw = .ok m) :
    m.Within cooked.toList := by
  obtain ⟨⟨block, text⟩, cut, h⟩ := bind_eq_ok h
  obtain ⟨inside, behind⟩ := Block.subset_of_split cut
  cases block with
  | none =>
    cases h
    exact ⟨behind, nofun, nofun, nofun⟩
  | some block =>
    cases h
    exact within_ofBlock behind (inside block rfl)

end Metadata

/-- A parsed placeholder has only characters of the cooked text. -/
lemma PlaceholderPart.subset_of_parse {cooked raw : String} {p : PlaceholderPart}
    (h : parse cooked raw = .ok p) :
    p.text.toList ⊆ cooked.toList ∧ ∀ name ∈ p.name, name.toList ⊆ cooked.toList := by
  obtain ⟨⟨block, text⟩, cut, h⟩ := bind_eq_ok h
  obtain ⟨inside, behind⟩ := Block.subset_of_split cut
  cases block with
  | none =>
    cases h
    exact ⟨behind, nofun⟩
  | some block =>
    cases h
    refine ⟨behind, ?_⟩
    rintro _ ⟨⟩
    rw [String.toList_ofList]
    exact List.Subset.trans (Block.subset_of_cutId block.toList).1 (inside block rfl)

/-! ## Messages -/

variable {P : Char → Prop}

/-- A class of characters that numbers and positional names are made of. -/
structure HoldsMadeUp (P : Char → Prop) : Prop where
  digit : ∀ c : Char, c.isDigit = true → P c
  letter : ∀ c ∈ "PH_".toList, P c

/-- The digits of a number are characters that may be made up. -/
lemma HoldsMadeUp.toString (h : HoldsMadeUp P) (n : Nat) : ∀ c ∈ (toString n).toList, P c := by
  intro c m
  rw [Nat.toString_eq_repr, Nat.toList_repr] at m
  exact h.digit c (Nat.isDigit_of_mem_toDigits (by decide) (by decide) m)

/-- A positional name has only characters that may be made up. -/
lemma HoldsMadeUp.positionalName (h : HoldsMadeUp P) (index : Nat) :
    ∀ c ∈ (Placeholder.positionalName index).toList, P c := by
  rw [Placeholder.positionalName]
  split
  case isTrue => exact fun c m => h.letter c (List.mem_append_left _ m : c ∈ ['P', 'H'] ++ ['_'])
  case isFalse =>
    rw [String.toList_append]
    exact List.forall_mem_append.2 ⟨h.letter, h.toString (index - 1)⟩

/-- A message all of whose strings are made of characters of a class. -/
structure Message.MadeWithin (P : Char → Prop) (m : Message) : Prop where
  id : ∀ c ∈ m.id.toList, P c
  parts : ∀ part ∈ m.parts, ∀ c ∈ part.toList, P c
  placeholderNames : ∀ name ∈ m.placeholderNames, ∀ c ∈ name.toList, P c
  meaning : ∀ c ∈ m.meaning.toList, P c
  description : ∀ c ∈ m.description.toList, P c

namespace Message

/-- The names and the texts behind placeholders have only characters of the parts or made-up
ones. -/
lemma within_of_laterParts (made : HoldsMadeUp P) {index : Nat}
    {pairs later : List (String × String)} (hpairs : ∀ p ∈ pairs, ∀ c ∈ p.1.toList, P c)
    (h : laterParts index pairs = .ok later) :
    ∀ p ∈ later, (∀ c ∈ p.1.toList, P c) ∧ ∀ c ∈ p.2.toList, P c := by
  induction pairs generalizing index later with
  | nil =>
    cases h
    exact nofun
  | cons pair pairs ih =>
    obtain ⟨part, read, h⟩ := bind_eq_ok h
    obtain ⟨more, rest, h⟩ := bind_eq_ok h
    cases h
    obtain ⟨text, named⟩ := PlaceholderPart.subset_of_parse read
    have within := hpairs pair List.mem_cons_self
    refine List.forall_mem_cons.2 ⟨⟨?_, fun c m => within c (text m)⟩, ?_⟩
    · cases given : part.name with
      | none => exact made.positionalName index
      | some name => exact fun c m => within c (named name given m)
    · exact ih (fun p m => hpairs p (List.mem_cons_of_mem pair m)) rest

/-- A message is made of the characters of its template and of those that are made up. -/
theorem madeWithin_of_ofTemplate (made : HoldsMadeUp P) {t : Template} {m : Message}
    (hcooked : ∀ s ∈ t.cooked, ∀ c ∈ s.toList, P c) (h : ofTemplate t = .ok m) :
    m.MadeWithin P := by
  have within (index : Nat) : ∀ c ∈ (t.part index).1.toList, P c := by
    change ∀ c ∈ (t.cooked.getD index "").toList, P c
    rw [List.getD_eq_getElem?_getD]
    cases there : t.cooked[index]? with
    | none => exact nofun
    | some s => exact hcooked s (List.mem_of_getElem? there)
  rw [ofTemplate_eq] at h
  obtain ⟨metadata, read, h⟩ := bind_eq_ok h
  obtain ⟨later, readLater, h⟩ := bind_eq_ok h
  cases h
  have first := Metadata.within_of_parse read
  have pairs : ∀ p ∈ later, (∀ c ∈ p.1.toList, P c) ∧ ∀ c ∈ p.2.toList, P c := by
    refine within_of_laterParts made ?_ readLater
    intro p hp
    obtain ⟨index, -, rfl⟩ := List.mem_map.1 hp
    exact within index
  have given : ∀ value : Option String, (∀ text ∈ value, text.toList ⊆ (t.part 0).1.toList) →
      ∀ c ∈ (value.getD "").toList, P c := by
    intro value subset c hc
    cases value with
    | none => cases hc
    | some text => exact within 0 c (subset text rfl hc)
  constructor
  case id =>
    intro c hc
    change c ∈ (metadata.customId.getD (Digest.messageId _ _)).toList at hc
    cases custom : metadata.customId with
    | none =>
      rw [custom] at hc
      -- the digest is written in digits
      exact made.toString _ c hc
    | some id =>
      rw [custom] at hc
      exact within 0 c (first.customId id custom hc)
  case parts =>
    refine List.forall_mem_cons.2 ⟨fun c hc => within 0 c (first.text hc), ?_⟩
    intro part hpart
    obtain ⟨p, hp, rfl⟩ := List.mem_map.1 hpart
    exact (pairs p hp).2
  case placeholderNames =>
    intro name hname
    obtain ⟨p, hp, rfl⟩ := List.mem_map.1 hname
    exact (pairs p hp).1
  case meaning => exact given metadata.meaning first.meaning
  case description => exact given metadata.description first.description

end Message

end MessageCatalog
