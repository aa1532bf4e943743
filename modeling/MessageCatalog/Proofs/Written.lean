import MessageCatalog.FileFormat.Render
import MessageCatalog.Proofs.Message
import MessageCatalog.Proofs.OrderedMap

/-!
# What is written of messages

A message with a part around each placeholder is written whole: in each format the parts of all
messages stand in the file in their order, each escaped as the format escapes text. A writer only
adds to its output, so it is enough to know which parts each step of it adds.
-/

namespace MessageCatalog

/-! ## Texts in order -/

/-- Pieces stand in a text in their order, one behind the other. -/
inductive Text.InOrder : (pieces : List (List Char)) → (text : List Char) → Prop
  | nil (text : List Char) : InOrder [] text
  | cons (front piece : List Char) {pieces : List (List Char)} {rest : List Char}
      (later : InOrder pieces rest) : InOrder (piece :: pieces) (front ++ (piece ++ rest))

namespace Text.InOrder

variable {pieces later : List (List Char)} {piece text rest : List Char}

/-- More text in front leaves the pieces in order. -/
lemma lead (front : List Char) (h : InOrder pieces text) : InOrder pieces (front ++ text) := by
  cases h with
  | nil => exact .nil _
  | cons before piece later =>
    rw [← List.append_assoc]
    exact .cons (front ++ before) piece later

/-- Pieces of two texts stand in order in one behind the other. -/
lemma append (h : InOrder pieces text) (hlater : InOrder later rest) :
    InOrder (pieces ++ later) (text ++ rest) := by
  induction h with
  | nil text => exact hlater.lead text
  | cons front piece _ ih =>
    rw [List.cons_append, List.append_assoc, List.append_assoc]
    exact .cons front piece ih

/-- A text is a piece of itself. -/
lemma whole (piece : List Char) : InOrder [piece] piece := by
  have one : InOrder [piece] ([] ++ (piece ++ [])) := .cons [] piece (.nil [])
  rwa [List.nil_append, List.append_nil] at one

end Text.InOrder

open Text (InOrder)

/-! ## Whole messages -/

/-- A message with a part around each placeholder, whose text is made of them. -/
structure Message.Whole (m : Message) : Prop where
  length : m.parts.length = m.placeholderNames.length + 1
  text : m.text = Placeholder.interleave m.parts m.placeholderNames

/-! ## Markup -/

namespace Markup.Writer

/-- What a writer has written since then holds pieces in order. -/
def Adds (pieces : List (List Char)) (w w' : Writer) : Prop :=
  ∃ more, w'.output.toList = w.output.toList ++ more ∧ InOrder pieces more

variable {pieces later : List (List Char)} {w w' w'' : Writer}

/-- What is added first stands before what is added later. -/
lemma Adds.trans (h : Adds pieces w w') (hlater : Adds later w' w'') :
    Adds (pieces ++ later) w w'' := by
  obtain ⟨more, e, first⟩ := h
  obtain ⟨evenMore, e', second⟩ := hlater
  refine ⟨more ++ evenMore, ?_, first.append second⟩
  rw [e', e, List.append_assoc]

/-- Nothing that matters is added first. -/
lemma Adds.behind (h : Adds [] w w') (hlater : Adds later w' w'') : Adds later w w'' :=
  h.trans hlater

/-- Nothing that matters is added afterwards. -/
lemma Adds.before (h : Adds pieces w w') (hlater : Adds [] w' w'') : Adds pieces w w'' := by
  have both : Adds (pieces ++ []) w w'' := h.trans hlater
  rwa [List.append_nil] at both

/-- What is added need not matter. -/
lemma Adds.forget (h : Adds pieces w w') : Adds [] w w' := by
  obtain ⟨more, e, -⟩ := h
  exact ⟨more, e, .nil more⟩

/-- A step that only adds to the output adds nothing that matters. -/
lemma adds_of_output {more : String} (h : w'.output = w.output ++ more) : Adds [] w w' :=
  ⟨more.toList, by rw [h, String.toList_append], .nil _⟩

/-- Doing nothing adds nothing. -/
lemma adds_self (w : Writer) : Adds [] w w := adds_of_output String.append_empty.symm

/-- What may be left out need not matter. -/
lemma adds_unless {p : Prop} [Decidable p] (h : Adds [] w w') :
    Adds [] w (if p then w else w') := by
  split
  case isTrue => exact adds_self w
  case isFalse => exact h

/-- Markup that is written as it is need not matter. -/
lemma adds_raw (w : Writer) (markup : String) : Adds [] w (w.raw markup) := adds_of_output rfl

/-- A text that is written is added as an escaped piece. -/
lemma adds_text (w : Writer) (content : String) :
    Adds [escapeChars content.toList] w (w.text content) := by
  refine ⟨escapeChars content.toList, ?_, .whole _⟩
  rw [text, raw, String.toList_append, escape, String.toList_ofList]

/-- The end of a line need not matter. -/
lemma adds_settle (w : Writer) (style : TagStyle) : Adds [] w (w.settle style) := by
  rw [settle]
  split
  case isTrue => exact adds_of_output String.append_empty.symm
  case isFalse => exact adds_of_output rfl

/-- A start tag need not matter. -/
lemma adds_startTag (w : Writer) (name : String) (attributes : List (String × Option String))
    (style : TagStyle) : Adds [] w (w.startTag name attributes style) := by
  rw [startTag]
  refine Adds.behind ?_ (adds_settle _ style)
  dsimp only
  split
  case isTrue => exact adds_of_output String.append_assoc
  case isFalse => exact adds_of_output String.append_assoc

/-- An end tag need not matter. -/
lemma adds_endTag (w : Writer) (name : String) (style : TagStyle) :
    Adds [] w (w.endTag name style) := by
  rw [endTag]
  refine Adds.behind ?_ (adds_settle _ style)
  apply adds_of_output
  simp only [String.append_assoc]
  rfl

/-- What is added inside an element is added by the whole element. -/
lemma Adds.inElement {name : String} {attributes : List (String × Option String)}
    {style : TagStyle} {pieces : List (List Char)} {w w' : Writer}
    (h : Adds pieces (w.startTag name attributes style) w') (closing : String) (after : TagStyle) :
    Adds pieces w (w'.endTag closing after) :=
  ((adds_startTag w name attributes style).behind h).before (adds_endTag w' closing after)

/-- What is written one after the other is added in order. -/
lemma adds_foldl {α : Type} {f : Writer → α → Writer} {pieces : α → List (List Char)} {as : List α}
    (h : ∀ a ∈ as, ∀ w, Adds (pieces a) w (f w a)) (w : Writer) :
    Adds (as.flatMap pieces) w (as.foldl f w) := by
  induction as generalizing w with
  | nil => exact adds_self w
  | cons a as ih =>
    rw [List.flatMap_cons, List.foldl_cons]
    exact (h a List.mem_cons_self w).trans
      (ih (fun b m => h b (List.mem_cons_of_mem a m)) (f w a))

end Markup.Writer

open Markup.Writer

namespace Message

/-- The parts of a message as they are written in markup. -/
def markupParts (m : Message) : List (List Char) :=
  m.parts.map fun part => Markup.escapeChars part.toList

variable {m : Message}

/-- Placeholders are written between the parts, which are all written. -/
lemma adds_writeContent (h : m.Whole)
    {placeholder : Markup.Writer → Nat → String → Markup.Writer}
    (hplaceholder : ∀ w index name, Adds [] w (placeholder w index name)) (w : Markup.Writer) :
    Adds m.markupParts w (m.writeContent placeholder w) := by
  obtain ⟨first, later, parts, -, pairs⟩ := Placeholder.exists_later h.length
  have counted : later.map Prod.snd = later.zipIdx.map fun p => p.1.2 := by
    change _ = later.zipIdx.map (Prod.snd ∘ Prod.fst)
    rw [← List.map_map, List.zipIdx_map_fst]
  have written : m.markupParts = [Markup.escapeChars first.toList] ++
      later.zipIdx.flatMap fun p => [Markup.escapeChars p.1.2.toList] := by
    rw [markupParts, parts, counted, List.map_cons, List.map_map, List.map_eq_flatMap]
    rfl
  rw [writeContent, pairs, written, parts, List.headD_cons]
  refine (adds_text w first).trans (adds_foldl ?_ _)
  rintro ⟨⟨name, part⟩, index⟩ - w
  exact (hplaceholder w index name).behind (adds_text _ part)

end Message

namespace FileFormat

variable {messages : List Message} {m : Message}

/-! ## XTB and XMB -/

namespace Xtb

/-- The parts of a message stand in its element in order. -/
lemma adds_writeMessage (h : m.Whole) (element : String) (w : Markup.Writer) :
    Adds m.markupParts w (writeMessage element w m) := by
  have placeholder (w : Markup.Writer) (index : Nat) (name : String) :
      Adds [] w (writePlaceholder w index name) := adds_startTag _ _ _ _
  rw [writeMessage]
  exact (Message.adds_writeContent h placeholder _).inElement _ _

/-- The parts of all messages stand in an XTB file in order. -/
lemma adds_writeFile (h : ∀ m ∈ messages, m.Whole) (locale : String) :
    Adds (messages.flatMap Message.markupParts) {} (writeFile messages locale) := by
  rw [writeFile]
  refine (adds_raw _ _).behind ((adds_foldl ?_ _).inElement _ _)
  exact fun m hm => adds_writeMessage (h m hm) messageName

end Xtb

/-- The parts of all messages stand in an XMB file in order. -/
lemma Xmb.adds_writeFile (h : ∀ m ∈ messages, m.Whole) :
    Adds (messages.flatMap Message.markupParts) {} (writeFile messages) := by
  rw [writeFile]
  refine (adds_raw _ _).behind ((adds_foldl ?_ _).inElement _ _)
  exact fun m hm => Xtb.adds_writeMessage (h m hm) messageName

/-! ## XLIFF -/

namespace Xliff1

/-- The parts of a message stand in the text of an XLIFF 1.2 unit in order. -/
lemma adds_writeText (h : m.Whole) (w : Markup.Writer) (element : String) :
    Adds m.markupParts w (writeText w element m) := by
  have placeholder (w : Markup.Writer) (index : Nat) (name : String) :
      Adds [] w (writePlaceholder w index name) := adds_startTag _ _ _ _
  rw [writeText]
  exact (Message.adds_writeContent h placeholder _).inElement _ _

/-- A note need not matter. -/
lemma adds_writeNote (w : Markup.Writer) (kind value : String) :
    Adds [] w (writeNote w kind value) := by
  rw [writeNote]
  exact adds_unless ((adds_text _ _).forget.inElement _ _)

/-- A unit holds the parts of its message in the target, and perhaps before that in the source. -/
lemma adds_writeUnit (h : m.Whole) (isTarget : Bool) (w : Markup.Writer) :
    Adds m.markupParts w (writeUnit isTarget w m) := by
  have source (w : Markup.Writer) : Adds [] w (if isTarget then w else writeText w "source" m) :=
    adds_unless (adds_writeText h w "source").forget
  rw [writeUnit]
  apply Adds.inElement
  refine Adds.before (Adds.before ?_ (adds_writeNote _ _ _)) (adds_writeNote _ _ _)
  exact (source _).behind (adds_writeText h _ _)

/-- The parts of all messages stand in an XLIFF 1.2 file in order. -/
lemma adds_writeFile (h : ∀ m ∈ messages, m.Whole) (locale : String) (isTarget : Bool) :
    Adds (messages.flatMap Message.markupParts) {} (writeFile messages locale isTarget) := by
  rw [writeFile]
  apply Adds.inElement
  apply Adds.inElement
  apply Adds.inElement
  exact adds_foldl (fun m hm => adds_writeUnit (h m hm) isTarget) _

end Xliff1

namespace Xliff2

/-- The parts of a message stand in the text of an XLIFF 2.0 segment in order. -/
lemma adds_writeText (h : m.Whole) (w : Markup.Writer) (element : String) :
    Adds m.markupParts w (writeText w element m) := by
  have placeholder (w : Markup.Writer) (index : Nat) (name : String) :
      Adds [] w (writePlaceholder m.substitutions w index name) := adds_startTag _ _ _ _
  rw [writeText]
  exact (Message.adds_writeContent h placeholder _).inElement _ _

/-- A unit holds the parts of its message in the target, and perhaps before that in the source. -/
lemma adds_writeUnit (h : m.Whole) (isTarget : Bool) (w : Markup.Writer) :
    Adds m.markupParts w (writeUnit isTarget w m) := by
  have source (w : Markup.Writer) : Adds [] w (if isTarget then w else writeText w "source" m) :=
    adds_unless (adds_writeText h w "source").forget
  rw [writeUnit]
  apply Adds.inElement
  apply Adds.inElement
  exact (source _).behind (adds_writeText h _ _)

/-- The parts of all messages stand in an XLIFF 2.0 file in order. -/
lemma adds_writeFile (h : ∀ m ∈ messages, m.Whole) (locale : String) (isTarget : Bool) :
    Adds (messages.flatMap Message.markupParts) {} (writeFile messages locale isTarget) := by
  rw [writeFile]
  apply Adds.inElement
  apply Adds.inElement
  exact adds_foldl (fun m hm => adds_writeUnit (h m hm) isTarget) _

end Xliff2

/-! ## JSON -/

end FileFormat

namespace Json

/-- A string as it is written between its quotes. -/
def escapeText (text : String) : List Char := text.toList.flatMap escapeChar

/-- A text that is escaped holds its parts escaped. -/
lemma inOrder_joinChars (first : List Char) (later : List (List Char × List Char)) :
    InOrder ((first :: later.map Prod.snd).map (·.flatMap escapeChar))
      ((Placeholder.joinChars first later).flatMap escapeChar) := by
  induction later generalizing first with
  | nil => exact .whole _
  | cons pair later ih =>
    obtain ⟨name, part⟩ := pair
    have token : (Placeholder.joinChars first ((name, part) :: later)).flatMap escapeChar =
        first.flatMap escapeChar ++ (('{' :: '$' :: (name ++ ['}'])).flatMap escapeChar ++
          (Placeholder.joinChars part later).flatMap escapeChar) := by
      simp [Placeholder.joinChars]
    rw [token]
    exact (InOrder.whole (first.flatMap escapeChar)).append ((ih part).lead _)

/-- The parts of a message stand in its text, written as a string. -/
lemma inOrder_quote {m : Message} (h : m.Whole) :
    InOrder (m.parts.map escapeText) (quote m.text).toList := by
  obtain ⟨first, later, parts, names, -⟩ := Placeholder.exists_later h.length
  have joined := inOrder_joinChars first.toList (later.map fun p => (p.1.toList, p.2.toList))
  rw [← Placeholder.toList_interleave, ← parts, ← names, ← h.text] at joined
  have pieces : m.parts.map escapeText = (first.toList ::
      (later.map fun p => (p.1.toList, p.2.toList)).map Prod.snd).map (·.flatMap escapeChar) := by
    rw [parts, List.map_map, List.map_cons, List.map_cons, List.map_map, List.map_map]
    rfl
  rw [← pieces] at joined
  have closed : InOrder (m.parts.map escapeText ++ [])
      (m.text.toList.flatMap escapeChar ++ ['"']) := joined.append (.nil _)
  rw [List.append_nil] at closed
  rw [quote, String.toList_ofList]
  exact closed.lead ['"']

variable {members : List (List (List Char) × String × String)}

/-- What stands in the values of an object stands in its lines, in the order of its members. -/
lemma inOrder_memberLines (indent : String) (h : ∀ m ∈ members, InOrder m.1 m.2.2.toList) :
    InOrder (members.flatMap Prod.fst) (memberLines indent (members.map Prod.snd)).toList := by
  induction members with
  | nil => exact .nil _
  | cons member rest ih =>
    obtain ⟨pieces, key, value⟩ := member
    have first : InOrder pieces value.toList := h _ List.mem_cons_self
    have later := ih fun m hm => h m (List.mem_cons_of_mem _ hm)
    cases rest with
    | nil =>
      have line : memberLines indent [(key, value)] =
          indent ++ quote key ++ ": " ++ value ++ "\n" := rfl
      change InOrder (pieces ++ []) (memberLines indent [(key, value)]).toList
      rw [line, String.toList_append, String.toList_append]
      exact (first.lead _).append (.nil _)
    | cons next rest =>
      have lines : memberLines indent (((pieces, key, value) :: next :: rest).map Prod.snd) =
          indent ++ quote key ++ ": " ++ value ++ ",\n" ++
            memberLines indent ((next :: rest).map Prod.snd) := rfl
      rw [lines, List.flatMap_cons, String.toList_append, String.toList_append,
        String.toList_append, List.append_assoc]
      exact (first.lead _).append (later.lead _)

/-- Pieces of the values of members stand in order in the object. -/
lemma inOrder_writeObject (indent : String) (h : ∀ m ∈ members, InOrder m.1 m.2.2.toList) :
    InOrder (members.flatMap Prod.fst) (writeObject indent (members.map Prod.snd)).toList := by
  cases members with
  | nil => exact .nil _
  | cons member rest =>
    have text : writeObject indent ((member :: rest).map Prod.snd) = "\x7b\n" ++
        memberLines (indent ++ "  ") ((member :: rest).map Prod.snd) ++ indent ++ "\x7d" := rfl
    have lines := inOrder_memberLines (indent ++ "  ") h
    have closed := lines.append (.nil (indent ++ "\x7d").toList)
    rw [List.append_nil] at closed
    rw [text, String.append_assoc, String.append_assoc, String.toList_append,
      String.toList_append]
    exact closed.lead _

end Json

namespace FileFormat

/-- A text as it is written in a format. -/
def escaped : FileFormat → String → List Char
  | json, text => Json.escapeText text
  | _, text => Markup.escapeChars text.toList

/-- The parts of all messages stand in a JSON file in order. -/
lemma Json.inOrder_render (h : ∀ m ∈ messages, m.Whole) (ids : (messages.map Message.id).Nodup)
    (locale : String) :
    InOrder (messages.flatMap fun m => m.parts.map MessageCatalog.Json.escapeText)
      (render messages locale).toList := by
  -- Each member of the inner object comes with the parts that its value holds.
  let texts := messages.map fun m =>
    (m.parts.map MessageCatalog.Json.escapeText, m.id, MessageCatalog.Json.quote m.text)
  have held : ∀ t ∈ texts, InOrder t.1 t.2.2.toList := by
    intro t member
    obtain ⟨m, hm, rfl⟩ := List.mem_map.1 member
    exact MessageCatalog.Json.inOrder_quote (h m hm)
  have inner := MessageCatalog.Json.inOrder_writeObject "  " held
  have keys : ((messages.map fun m => (m.id, m.text)).map Prod.fst).Nodup := by
    rw [List.map_map]
    exact ids
  have entries : (OrderedMap.ofList (messages.map fun m => (m.id, m.text))).entries.map
      (fun e => (e.1, MessageCatalog.Json.quote e.2)) = texts.map Prod.snd := by
    rw [OrderedMap.ofList_of_nodup keys, List.map_map, List.map_map]
    rfl
  have pieces : texts.flatMap Prod.fst =
      messages.flatMap fun m => m.parts.map MessageCatalog.Json.escapeText := by
    rw [List.flatMap_map]
  let document : List (List (List Char) × String × String) :=
    [([], localeKey, MessageCatalog.Json.quote locale),
      (texts.flatMap Prod.fst, translationsKey,
        MessageCatalog.Json.writeObject "  " (texts.map Prod.snd))]
  have whole : ∀ m ∈ document, InOrder m.1 m.2.2.toList :=
    List.forall_mem_cons.2 ⟨.nil _, List.forall_mem_singleton.2 inner⟩
  have outer := MessageCatalog.Json.inOrder_writeObject "" whole
  rw [List.flatMap_cons, List.flatMap_singleton, List.nil_append, pieces] at outer
  rw [render]
  dsimp only
  rw [entries]
  exact outer

/-- Nothing of a message gets lost when messages are written, in whatever format. -/
theorem inOrder_render (format : FileFormat) (h : ∀ m ∈ messages, m.Whole)
    (ids : (messages.map Message.id).Nodup) (locale : String) (isTarget : Bool) :
    InOrder (messages.flatMap fun m => m.parts.map format.escaped)
      (format.render messages locale isTarget).toList := by
  have output {w : Markup.Writer} (adds : Adds (messages.flatMap Message.markupParts) {} w) :
      InOrder (messages.flatMap Message.markupParts) w.output.toList := by
    obtain ⟨more, e, inOrder⟩ := adds
    rw [e]
    exact inOrder.lead _
  cases format with
  | json => exact Json.inOrder_render h ids locale
  | xliff1 => exact output (Xliff1.adds_writeFile h locale isTarget)
  | xliff2 => exact output (Xliff2.adds_writeFile h locale isTarget)
  | xmb => exact output (Xmb.adds_writeFile h)
  | xtb => exact output (Xtb.adds_writeFile h locale)

end FileFormat

end MessageCatalog
