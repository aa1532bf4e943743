import MessageCatalog.FileFormat.Content
import MessageCatalog.Proofs.Markup.Layout

/-!
# Message content from writing to reading

The content of a message is written as texts with placeholders between them. Walking what is read
of it takes the steps of the message, whatever elements stand for the placeholders: all the walk
needs is that the rules of the format find each name again.
-/

namespace MessageCatalog

open Markup (Mixed WrittenTag WrittenElement)

/-! ## Written content -/

/-- Texts with placeholders between them; `tag` is what stands for the placeholder with an index and
a name. -/
def Markup.Mixed.ofParts (tag : Nat → String → WrittenTag) (first : String) (index : Nat) :
    List (String × String) → Mixed
  | [] => .text first
  | (name, part) :: rest => .leaf first (tag index name) (ofParts tag part (index + 1) rest)

namespace Message

/-- The placeholders of a message, each with the part behind it. -/
def laterPairs (m : Message) : List (String × String) := m.placeholderNames.zip (m.parts.drop 1)

/-- The content of a message as markup. -/
def mixed (tag : Nat → String → WrittenTag) (m : Message) : Mixed :=
  .ofParts tag (m.parts.headD "") 0 m.laterPairs

/-- What a file says that holds a message: its content without notes. -/
def replayed (m : Message) : Translation := (({} : Replay).run m.steps).finish

/-- What a file says that holds a message with its notes. -/
def annotated (m : Message) : Translation :=
  { m.replayed with
    description := Text.unlessEmpty m.description
    meaning := Text.unlessEmpty m.meaning }

/-- What makes a message one that a markup file can hold. -/
structure Ready (m : Message) : Prop where
  id_ne : m.id ≠ ""
  id_text : Markup.isLineText m.id = true
  length : m.parts.length = m.placeholderNames.length + 1
  parts_text : ∀ part ∈ m.parts, Markup.isPlainText part = true
  names_ne : ∀ name ∈ m.placeholderNames, name ≠ ""
  names_text : ∀ name ∈ m.placeholderNames, Markup.isLineText name = true
  /-- No expansion is left open at the end. -/
  closed : (({} : Replay).run m.steps).inExpansion = false

instance (m : Message) : Decidable m.Ready :=
  decidable_of_iff
    (m.id ≠ "" ∧ Markup.isLineText m.id = true ∧ m.parts.length = m.placeholderNames.length + 1 ∧
      (∀ part ∈ m.parts, Markup.isPlainText part = true) ∧
      (∀ name ∈ m.placeholderNames, name ≠ "") ∧
      (∀ name ∈ m.placeholderNames, Markup.isLineText name = true) ∧
      (({} : Replay).run m.steps).inExpansion = false)
    ⟨fun ⟨ne, text, length, parts, names, lines, closed⟩ =>
        ⟨ne, text, length, parts, names, lines, closed⟩,
      fun h => ⟨h.id_ne, h.id_text, h.length, h.parts_text, h.names_ne, h.names_text, h.closed⟩⟩

/-- A message whose strings are ones that a markup file can hold, whether or not it can be read
again. -/
structure HasText (m : Message) : Prop where
  id_text : Markup.isLineText m.id = true
  parts_text : ∀ part ∈ m.parts, Markup.isPlainText part = true
  names_text : ∀ name ∈ m.placeholderNames, Markup.isLineText name = true

/-- A message that can be read again is one whose strings a file can hold. -/
lemma Ready.hasText {m : Message} (h : m.Ready) : m.HasText :=
  ⟨h.id_text, h.parts_text, h.names_text⟩

/-- A message that a markup file can hold, with a character that is escaped in text and one that is
read as another in an attribute. -/
def greeting : Message where
  id := "greeting"
  parts := ["Hello <b>", "</b> & \n{welcome}!"]
  placeholderNames := ["USER-NAME"]
  description := "Shown \"once\""
  substitutions := ["user\n.name"]

/-- A message without placeholders, with a meaning and nothing else said of it. -/
def farewell : Message where
  id := "bye"
  parts := ["'Bye' > \"so long\""]
  meaning := "parting"

/-- Two messages in another order than that of their ids. -/
def greetings : List Message := [greeting, farewell]

/-- Placeholders with the parts behind them are made of the names and the parts. -/
lemma names_laterPairs {m : Message} {pair : String × String} (h : pair ∈ m.laterPairs) :
    pair.1 ∈ m.placeholderNames ∧ pair.2 ∈ m.parts :=
  ⟨(List.of_mem_zip h).1, List.mem_of_mem_drop (List.of_mem_zip h).2⟩

variable {tag : Nat → String → WrittenTag}

/-- Texts with placeholders between them are put one after the other. -/
lemma puts_ofParts {placeholder : Markup.Writer → Nat → String → Markup.Writer}
    (h : ∀ index name, Markup.Writer.Puts (placeholder · index name)
      ((tag index name).opening ++ ['/', '>'])) (first : String) (index : Nat)
    (pairs : List (String × String)) :
    Markup.Writer.Puts
      (fun w => (pairs.zipIdx index).foldl
        (fun w ((name, part), index) => (placeholder w index name).text part) (w.text first))
      (Mixed.ofParts tag first index pairs).print := by
  induction pairs generalizing first index with
  | nil => exact Markup.Writer.puts_text first
  | cons pair rest ih =>
    obtain ⟨name, part⟩ := pair
    have print : (Mixed.ofParts tag first index ((name, part) :: rest)).print =
        Markup.escapeChars first.toList ++ (((tag index name).opening ++ ['/', '>']) ++
          (Mixed.ofParts tag part (index + 1) rest).print) := by
      simp only [Mixed.ofParts, Mixed.print, List.append_assoc, List.cons_append, List.nil_append]
    rw [print]
    exact (Markup.Writer.puts_text first).comp ((h index name).comp (ih part (index + 1)))

/-- The content of a message is written as it is. -/
theorem puts_writeContent {placeholder : Markup.Writer → Nat → String → Markup.Writer}
    (h : ∀ index name, Markup.Writer.Puts (placeholder · index name)
      ((tag index name).opening ++ ['/', '>'])) (m : Message) :
    Markup.Writer.Puts (m.writeContent placeholder) (m.mixed tag).print :=
  puts_ofParts h (m.parts.headD "") 0 m.laterPairs

/-- The content of a message can be read. -/
lemma sound_mixed (htag : ∀ index name, Markup.isLineText name = true → (tag index name).Sound)
    {m : Message} (hm : m.HasText) : (m.mixed tag).Sound := by
  have general : ∀ (pairs : List (String × String)) (first : String) (index : Nat),
      Markup.isPlainText first = true →
      (∀ pair ∈ pairs, Markup.isLineText pair.1 = true ∧ Markup.isPlainText pair.2 = true) →
        (Mixed.ofParts tag first index pairs).Sound := by
    intro pairs
    induction pairs with
    | nil => exact fun first index hfirst _ => hfirst
    | cons pair rest ih =>
      intro first index hfirst hpairs
      obtain ⟨hname, hpart⟩ := hpairs pair List.mem_cons_self
      exact ⟨hfirst, htag index pair.1 hname,
        ih pair.2 (index + 1) hpart fun d m => hpairs d (List.mem_cons_of_mem pair m)⟩
  have hfirst : Markup.isPlainText (m.parts.headD "") = true := by
    cases e : m.parts with
    | nil => rfl
    | cons first rest => exact hm.parts_text first (e ▸ List.mem_cons_self)
  refine general m.laterPairs _ 0 hfirst fun pair h => ?_
  obtain ⟨hname, hpart⟩ := names_laterPairs h
  exact ⟨hm.names_text pair.1 hname, hm.parts_text pair.2 hpart⟩

end Message

/-! ## Read content -/

/-- An empty text says nothing. -/
lemma Replay.step_text_empty (r : Replay) : r.step (.text "") = r := by
  obtain ⟨parts, names, current, depth⟩ := r
  rw [Replay.step, String.append_empty]
  rfl

namespace Content

variable {rules : ContentRules} {file : FileText} {tag : Nat → String → WrittenTag}

/-- What the rules of a format say about what stands for placeholders: each is one, and its name is
found again. -/
structure Finds (rules : ContentRules) (tag : Nat → String → WrittenTag) (attr : String) :
    Prop where
  role : ∀ index name, rules.roleOf (tag index name).name = .placeholder attr
  name : ∀ index name start stop, name ≠ "" → Markup.isLineText name = true →
    ((tag index name).toTag start stop).attribute? attr = some name

/-- A text is a step of the walk, and no text is none. -/
lemma walk_text (r : Replay) (value : String) (rest : List Markup.Node) :
    walk rules file r (Markup.textNodes value ++ rest) =
      walk rules file (r.step (.text value)) rest := by
  rw [Markup.textNodes]
  split
  case isTrue empty =>
    rw [String.isEmpty_iff.1 empty, Replay.step_text_empty]
    rfl
  case isFalse => rfl

/-- The element of a placeholder is the step of its name, whatever is inside it. -/
lemma walk_placeholder {attr : String} (h : Finds rules tag attr) (r : Replay) (index : Nat)
    {name : String} (hne : name ≠ "") (hname : Markup.isLineText name = true) (start stop : Nat)
    (children rest : List Markup.Node) :
    walk rules file r (.element ((tag index name).toTag start stop) children :: rest) =
      walk rules file (r.step (.placeholder name)) rest := by
  have role : rules.roleOf ((tag index name).toTag start stop).name = .placeholder attr :=
    h.role index name
  have found : placeholderAttribute file ((tag index name).toTag start stop) attr = .ok name := by
    rw [placeholderAttribute, h.name index name start stop hne hname]
  rw [walk, walkNode, role]
  dsimp only
  rw [found]
  rfl

/-- Walking texts with placeholders between them takes their steps. -/
lemma walk_ofParts {attr : String} (h : Finds rules tag attr) (r : Replay) (first : String)
    (index : Nat) {pairs : List (String × String)}
    (hpairs : ∀ pair ∈ pairs, pair.1 ≠ "" ∧ Markup.isLineText pair.1 = true) (start : Nat) :
    walk rules file r ((Mixed.ofParts tag first index pairs).nodes start) =
      .ok (r.run (.text first ::
        pairs.flatMap fun (name, part) => [.placeholder name, .text part])) := by
  -- The text before a placeholder is a step of its own, also where it is empty and not written.
  induction pairs generalizing r first index start with
  | nil =>
    have walked : walk rules file r (Markup.textNodes first ++ []) =
        walk rules file (r.step (.text first)) [] := walk_text r first []
    rw [List.append_nil] at walked
    exact walked
  | cons pair rest ih =>
    obtain ⟨name, part⟩ := pair
    obtain ⟨hne, hname⟩ := hpairs (name, part) List.mem_cons_self
    rw [Mixed.ofParts, Mixed.nodes, walk_text, walk_placeholder h _ _ hne hname]
    exact ih _ part (index + 1) (fun d m => hpairs d (List.mem_cons_of_mem _ m)) _

/-- Texts with a placeholder between them whose name is empty, and so is not written, are not
read. -/
lemma exists_error_of_walk_ofParts {attr : String} (h : Finds rules tag attr)
    (missing : ∀ index start stop, ((tag index "").toTag start stop).attribute? attr = none)
    (r : Replay) (first : String) (index : Nat) {pairs : List (String × String)}
    (hpairs : ∀ pair ∈ pairs, Markup.isLineText pair.1 = true) (empty : "" ∈ pairs.map Prod.fst)
    (start : Nat) :
    ∃ e, walk rules file r ((Mixed.ofParts tag first index pairs).nodes start) = .error e := by
  induction pairs generalizing r first index start with
  | nil => cases empty
  | cons pair rest ih =>
    obtain ⟨name, part⟩ := pair
    rw [Mixed.ofParts, Mixed.nodes, walk_text]
    -- the walk stops at the first placeholder without a name
    by_cases hne : name = ""
    · subst hne
      have notFound (start stop : Nat) :
          placeholderAttribute file ((tag index "").toTag start stop) attr =
            .error (.atElement file ((tag index "").toTag start stop)
              (.incompletePlaceholder attr)) := by
        rw [placeholderAttribute, missing]
      have role (start stop : Nat) :
          rules.roleOf ((tag index "").toTag start stop).name = .placeholder attr :=
        h.role index ""
      rw [walk, walkNode, role]
      dsimp only
      rw [notFound]
      exact ⟨_, rfl⟩
    · have later : "" ∈ rest.map Prod.fst :=
        (List.mem_cons.1 empty).resolve_left fun e => hne e.symm
      rw [walk_placeholder h _ _ hne (hpairs _ List.mem_cons_self)]
      exact ih _ part (index + 1) (fun d m => hpairs d (List.mem_cons_of_mem _ m)) later _

/-- The written content of a message is read as what the message says. -/
theorem read_mixed {attr : String} (h : Finds rules tag attr) {m : Message} (hm : m.Ready)
    (t : Markup.Tag) (start : Nat) :
    Content.read rules file ⟨t, (m.mixed tag).nodes start⟩ = .ok m.replayed := by
  have hpairs : ∀ pair ∈ m.laterPairs, pair.1 ≠ "" ∧ Markup.isLineText pair.1 = true := by
    intro pair hp
    obtain ⟨hname, -⟩ := Message.names_laterPairs hp
    exact ⟨hm.names_ne _ hname, hm.names_text _ hname⟩
  have walked : walk rules file {} ((m.mixed tag).nodes start) =
      .ok (({} : Replay).run m.steps) :=
    walk_ofParts h {} (m.parts.headD "") 0 hpairs start
  have closed := hm.closed
  rw [Content.read, walked]
  change (if (({} : Replay).run m.steps).inExpansion = true then _ else _) = _
  rw [closed, if_neg Bool.false_ne_true]
  rfl

end Content

/-- An attribute that is there meets a requirement. -/
lemma FileText.requiredAttribute_of_some {file : FileText} {tag : Markup.Tag}
    {name value : String} (h : tag.attribute? name = some value) :
    file.requiredAttribute tag name = .ok value := by
  rw [requiredAttribute, h]

/-- A reading of nodes in order that passes over all nodes but elements takes the elements one after
the other. -/
lemma Markup.eq_foldlM_elements {σ ε : Type} {readNode : σ → Markup.Node → Except ε σ}
    {readNodes : σ → List Markup.Node → Except ε σ} (nil : ∀ held, readNodes held [] = .ok held)
    (cons : ∀ held node rest, readNodes held (node :: rest) =
      readNode held node >>= fun held => readNodes held rest)
    (other : ∀ held node, node.element? = none → readNode held node = .ok held)
    (held : σ) (nodes : List Markup.Node) :
    readNodes held nodes = (nodes.filterMap Markup.Node.element?).foldlM
      (fun held e => readNode held (.element e.tag e.children)) held := by
  induction nodes generalizing held with
  | nil => exact nil held
  | cons node rest ih =>
    rw [cons]
    cases h : node.element? with
    | none =>
      rw [other held node h, List.filterMap_cons_none h]
      exact ih held
    | some e =>
      have element : node = .element e.tag e.children := by
        cases node with
        | element tag children => cases h; rfl
        | _ => cases h
      rw [List.filterMap_cons_some h, List.foldlM_cons, element]
      exact congrArg (readNode held (.element e.tag e.children) >>= ·) (funext ih)

/-! ## Messages in order -/

namespace Message

/-- The map of messages by their ids. -/
def listed (f : Message → Translation) (messages : List Message) : OrderedMap String Translation :=
  ⟨messages.map fun m => (m.id, f m)⟩

variable {f : Message → Translation} {messages : List Message} {m : Message}

/-- The ids of a listing are those of the messages. -/
lemma keys_listed : (listed f messages).keys = messages.map id := by
  rw [listed, OrderedMap.keys, List.map_map]
  rfl

/-- A message with a new id is not in the listing. -/
lemma contains_listed (h : m.id ∉ messages.map id) : (listed f messages).contains m.id = false :=
  OrderedMap.contains_eq_false (keys_listed ▸ h)

/-- A message with a new id is listed behind the others. -/
lemma insert_listed (h : m.id ∉ messages.map id) :
    (listed f messages).insert m.id (f m) = listed f (messages ++ [m]) := by
  rw [OrderedMap.insert_of_not_mem (keys_listed ▸ h), listed, listed, List.map_append]
  rfl

/-- A listing is empty when there are no messages. -/
lemma isEmpty_listed : (listed f messages).isEmpty = messages.isEmpty :=
  List.isEmpty_map

end Message

/-- Reading messages one after the other holds them all, when each new id can be added to those
before it. -/
theorem reads_messages {σ ε : Type} {step : σ → Markup.Element → Except ε σ}
    {element : Message → WrittenElement} {held : List Message → σ} {done todo : List Message}
    (hstep : ∀ done, ∀ m ∈ todo, m.id ∉ done.map Message.id → ∀ start,
      step (held done) ((element m).toElement start) = .ok (held (done ++ [m])))
    (hids : ((done ++ todo).map Message.id).Nodup) :
    Markup.Reads step (todo.map element) (held done) (held (done ++ todo)) := by
  -- What has been read grows at its end, message by message.
  induction todo generalizing done with
  | nil =>
    rw [List.append_nil]
    exact .nil
  | cons m rest ih =>
    have hnew : m.id ∉ done.map Message.id := by
      rw [List.map_append, List.nodup_append] at hids
      exact fun h => hids.2.2 _ h _ List.mem_cons_self rfl
    rw [List.append_cons] at hids ⊢
    refine .cons (hstep done m List.mem_cons_self hnew) (ih ?_ hids)
    exact fun done d hd => hstep done d (List.mem_cons_of_mem m hd)

end MessageCatalog
