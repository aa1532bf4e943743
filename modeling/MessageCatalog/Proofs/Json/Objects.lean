import MessageCatalog.Proofs.Json.Strings

/-!
# Objects from writing to reading

An object is written with one member per line. What is written between the members is white space,
a comma or a colon, which the reader goes past; so an object is read as its members, whatever their
values are, as long as each value is read as it was.
-/

namespace MessageCatalog.Json

open Text (Leaves)

namespace Scan

variable {front lead l : List Char} {care : Care} {first : Bool}

/-! ## Single characters -/

/-- A level of indentation is white space. -/
lemma isSpace_indentStep : ∀ c ∈ "  ".toList, isSpace c = true :=
  List.all_eq_true.1 (rfl : "  ".toList.all isSpace = true)

/-- Looking for the next character goes past white space only. -/
lemma takes_next? (hlead : ∀ c ∈ lead, isSpace c = true) (hl : Leaves isSpace l) :
    Takes next? lead l.head? l := by
  have skips : Takes (skip ((lead ++ l).takeWhile isSpace).length) lead () l := by
    rw [hl.takeWhile_append hlead]
    exact takes_skip lead
  rw [next?]
  refine .look (skips.bind_nil ?_)
  exact .look .pure

/-- The next character is taken when it is there. -/
lemma takes_nextOr (cause : Cause) {c : Char} (hlead : ∀ c ∈ lead, isSpace c = true)
    (hc : isSpace c = false) : Takes (nextOr cause) lead c (c :: l) := by
  have looks : Takes next? lead (some c) (c :: l) := takes_next? hlead (.cons hc)
  rw [nextOr]
  exact looks.bind_nil .pure

/-- A colon is taken. -/
lemma takes_colon : Takes colon [':'] () l := by
  have looks : Takes (nextOr .endInObject) [] ':' (':' :: l) := takes_nextOr _ nofun rfl
  rw [colon]
  refine looks.nil_bind ?_
  exact takes_skip [':']

/-! ## Members -/

/-- A key is taken with the white space in front of it. -/
lemma takes_key (care : Care) (lead : List Char) (hlead : ∀ c ∈ lead, isSpace c = true)
    (name : String) :
    Takes (key care) (lead ++ quoteChars name.toList) name l := by
  have looks : Takes next? lead (some '"') (quoteChars name.toList ++ l) :=
    takes_next? hlead (.cons rfl)
  rw [key]
  exact looks.bind (takes_string care name)

/-- The key of the first member stands right behind the brace. -/
lemma takes_nextKey?_first (care : Care) (hlead : ∀ c ∈ lead, isSpace c = true) (name : String) :
    Takes (nextKey? care true) (lead ++ quoteChars name.toList) (some name) l := by
  have looks : Takes (nextOr .endInObject) lead '"' (quoteChars name.toList ++ l) :=
    takes_nextOr _ hlead rfl
  have reads : Takes (key care) (quoteChars name.toList) name l :=
    takes_key care [] nofun name
  rw [nextKey?]
  exact looks.bind (reads.bind_nil .pure)

/-- The key of a later member stands behind a comma. -/
lemma takes_nextKey?_later (care : Care) (hlead : ∀ c ∈ lead, isSpace c = true) (name : String) :
    Takes (nextKey? care false) (',' :: (lead ++ quoteChars name.toList)) (some name) l := by
  have looks : Takes (nextOr .endInObject) [] ',' (',' :: (lead ++ quoteChars name.toList) ++ l) :=
    takes_nextOr _ nofun rfl
  have reads : Takes (key care) (lead ++ quoteChars name.toList) name l :=
    takes_key care lead hlead name
  rw [nextKey?]
  exact looks.nil_bind (.past (reads.bind_nil .pure))

/-- Behind the last member stands the closing brace. -/
lemma takes_nextKey?_none (care : Care) (first : Bool) (hlead : ∀ c ∈ lead, isSpace c = true) :
    Takes (nextKey? care first) lead none ('}' :: l) := by
  have looks : Takes (nextOr .endInObject) lead '}' ('}' :: l) := takes_nextOr _ hlead rfl
  rw [nextKey?]
  exact looks.bind_nil .pure

/-- A step takes a written value for that value, wherever it stands. -/
def Recovers (item : Scan Value) (written : String) (value : Value) : Prop :=
  ∀ lead l : List Char, (∀ c ∈ lead, isSpace c = true) →
    Takes item (lead ++ written.toList) value l

end Scan

/-- A member of an object with the written form of its value. -/
structure WrittenMember where
  key : String
  written : String
  value : Value

/-- A text is quoted character by character. -/
lemma toList_quote (text : String) : (quote text).toList = quoteChars text.toList :=
  String.toList_ofList

/-- An object starts with its brace. -/
lemma head?_writeObject (indent : String) (members : List (String × String)) :
    (writeObject indent members).toList.head? = some '{' := by
  rw [writeObject]
  split
  case isTrue => rfl
  case isFalse =>
    rw [String.toList_append, String.toList_append, String.toList_append]
    rfl

namespace WrittenMember

/-- What the writer is given. -/
def line (m : WrittenMember) : String × String := (m.key, m.written)

/-- What the reader finds. -/
def member (m : WrittenMember) : String × Value := (m.key, m.value)

/-- The text of a member on its line. -/
def print (m : WrittenMember) : List Char :=
  quoteChars m.key.toList ++ (':' :: ' ' :: m.written.toList)

/-- What stands behind a member: the end of its line and the lines of the members that follow. -/
def printLater (indent : List Char) : List WrittenMember → List Char
  | [] => ['\n']
  | m :: rest => ',' :: '\n' :: (indent ++ (m.print ++ printLater indent rest))

/-- Members stand on lines of their own, with commas between them. -/
lemma toList_memberLines (indent : String) (m : WrittenMember) (rest : List WrittenMember) :
    (memberLines indent ((m :: rest).map line)).toList =
      indent.toList ++ (m.print ++ printLater indent.toList rest) := by
  induction rest generalizing m with
  | nil => simp [memberLines, line, print, printLater, toList_quote]
  | cons next rest ih =>
    have lines : memberLines indent ((m :: next :: rest).map line) =
        indent ++ quote m.key ++ ": " ++ m.written ++ ",\n" ++
          memberLines indent ((next :: rest).map line) := rfl
    rw [lines, String.toList_append, ih next]
    simp [print, printLater, toList_quote]

/-- The text of an object behind its opening brace. -/
def printInside (indent inner : List Char) : List WrittenMember → List Char
  | [] => ['}']
  | m :: rest => ('\n' :: inner) ++ (m.print ++ (printLater inner rest ++ (indent ++ ['}'])))

/-- An object is a brace, its members on lines, and a brace. -/
lemma toList_writeObject (indent : String) (members : List WrittenMember) :
    (writeObject indent (members.map line)).toList =
      '{' :: printInside indent.toList (indent ++ "  ").toList members := by
  cases members with
  | nil =>
    have text : writeObject indent [] = "\x7b\x7d" := rfl
    rw [List.map_nil, text]
    rfl
  | cons m rest =>
    have text : writeObject indent ((m :: rest).map line) =
        "\x7b\n" ++ memberLines (indent ++ "  ") ((m :: rest).map line) ++ indent ++ "\x7d" := rfl
    have opening : "\x7b\n".toList = ['{', '\n'] := rfl
    have closing : "\x7d".toList = ['}'] := rfl
    rw [text, String.toList_append, String.toList_append, String.toList_append,
      toList_memberLines, opening, closing, printInside]
    simp only [List.append_assoc, List.cons_append, List.nil_append]

/-- Printed members take more characters than there are members, so there is fuel for all of
them. -/
lemma length_lt_printLater (indent : List Char) (members : List WrittenMember) :
    members.length < (printLater indent members).length := by
  induction members with
  | nil => exact Nat.zero_lt_one
  | cons m rest ih =>
    rw [printLater, List.length_cons, List.length_cons, List.length_cons, List.length_append,
      List.length_append]
    omega

end WrittenMember

namespace Scan

variable {item : Scan Value} {front lead indent l : List Char} {members : List (String × Value)}

/-- A member is read behind its key, and then the members that follow. -/
lemma takes_memberLoop_cons {care : Care} {first : Bool} {fuel : Nat} {m : WrittenMember}
    (hkey : ∀ {l}, Takes (nextKey? care first) (lead ++ quoteChars m.key.toList) (some m.key) l)
    (hm : Recovers item m.written m.value)
    (h : Takes (memberLoop care item fuel false) front members l) :
    Takes (memberLoop care item (fuel + 1) first) (lead ++ (m.print ++ front))
      (m.member :: members) l := by
  have value : Takes item (' ' :: m.written.toList) m.value (front ++ l) :=
    hm [' '] _ (List.forall_mem_singleton.2 rfl)
  have print : lead ++ (m.print ++ front) =
      (lead ++ quoteChars m.key.toList) ++ ([':'] ++ ((' ' :: m.written.toList) ++ front)) := by
    simp [WrittenMember.print]
  rw [memberLoop, print]
  refine hkey.bind (takes_colon.bind ?_)
  exact value.bind (h.bind_nil .pure)

/-- The members behind the first one are read up to the closing brace. -/
lemma takes_memberLoop_later {care : Care} {fuel : Nat} {written : List WrittenMember}
    (hindent : ∀ c ∈ indent, isSpace c = true) (hlead : ∀ c ∈ lead, isSpace c = true)
    (hfuel : written.length < fuel) (h : ∀ m ∈ written, Recovers item m.written m.value) :
    Takes (memberLoop care item fuel false)
      (WrittenMember.printLater indent written ++ (lead ++ ['}']))
      (written.map WrittenMember.member) l := by
  -- The text behind a member starts with a comma unless that member is the last one.
  induction written generalizing fuel with
  | nil =>
    obtain ⟨fuel, rfl⟩ := Nat.exists_eq_succ_of_ne_zero (Nat.ne_zero_of_lt hfuel)
    have spaces : ∀ c ∈ '\n' :: lead, isSpace c = true :=
      List.forall_mem_cons.2 ⟨by decide, hlead⟩
    have ends : Takes (nextKey? care false) ('\n' :: lead) none (['}'] ++ l) :=
      takes_nextKey?_none care false spaces
    rw [memberLoop, WrittenMember.printLater, ← List.append_assoc]
    exact ends.bind (.past .pure)
  | cons m rest ih =>
    obtain ⟨fuel, rfl⟩ := Nat.exists_eq_succ_of_ne_zero (Nat.ne_zero_of_lt hfuel)
    have spaces : ∀ c ∈ '\n' :: indent, isSpace c = true :=
      List.forall_mem_cons.2 ⟨by decide, hindent⟩
    have left : rest.length < fuel := Nat.lt_of_succ_lt_succ hfuel
    have reads := ih left fun d hd => h d (List.mem_cons_of_mem m hd)
    have print : WrittenMember.printLater indent (m :: rest) ++ (lead ++ ['}']) =
        (',' :: '\n' :: indent) ++
          (m.print ++ (WrittenMember.printLater indent rest ++ (lead ++ ['}']))) := by
      simp [WrittenMember.printLater]
    rw [print]
    exact takes_memberLoop_cons (takes_nextKey?_later care spaces m.key) (h m List.mem_cons_self)
      reads

/-! ## Values -/

/-- How deep a value is nested matters for lists and objects only. -/
lemma value_eq (care : Care) (depth : Nat) :
    ∃ list object, value care depth = valueWith care list object := by
  cases depth with
  | zero => exact ⟨_, _, rfl⟩
  | succ depth => exact ⟨_, _, rfl⟩

/-- A written string is read as that string. -/
lemma recovers_quote (care : Care) (depth : Nat) (text : String) :
    Recovers (value care depth) (quote text) (.string text) := by
  obtain ⟨list, object, e⟩ := value_eq care depth
  intro lead l hlead
  have looks : Takes (nextOr .endInValue) lead '"' (quoteChars text.toList ++ l) :=
    takes_nextOr _ hlead rfl
  have reads : Takes (string care) (quoteChars text.toList) text l := takes_string care text
  rw [e, valueWith, toList_quote]
  exact looks.bind (reads.bind_nil .pure)

/-- An object is read behind white space as its members are. -/
lemma takes_object {care : Care} {depth : Nat} {members : List (String × Value)}
    (hlead : ∀ c ∈ lead, isSpace c = true)
    (h : Takes (memberLoop care (value care depth) ((front ++ l).length + 1) true) front members
      l) :
    Takes (value care (depth + 1)) (lead ++ '{' :: front) (.ofMembers members) l := by
  have looks : Takes (nextOr .endInValue) lead '{' ('{' :: front ++ l) :=
    takes_nextOr _ hlead rfl
  have reads : Takes (object care (value care depth)) ('{' :: front) (.ofMembers members) l := by
    rw [object]
    exact .past (.look (h.bind_nil .pure))
  rw [value, valueWith]
  exact looks.bind reads

/-- A written object is read as an object with its members, when each value is read as it was. -/
theorem recovers_writeObject (care : Care) (depth : Nat) (indent : String)
    (hindent : ∀ c ∈ indent.toList, isSpace c = true) {written : List WrittenMember}
    (h : ∀ m ∈ written, Recovers (value care depth) m.written m.value) :
    Recovers (value care (depth + 1)) (writeObject indent (written.map WrittenMember.line))
      (.ofMembers (written.map WrittenMember.member)) := by
  intro lead l hlead
  rw [WrittenMember.toList_writeObject]
  refine takes_object hlead ?_
  cases written with
  -- Without members the brace is closed at once; else the first member has no comma before it.
  | nil =>
    have ends : Takes (nextKey? care true) [] none (['}'] ++ l) :=
      takes_nextKey?_none care true nofun
    rw [memberLoop]
    exact ends.nil_bind (.past .pure)
  | cons m rest =>
    have inner : ∀ c ∈ (indent ++ "  ").toList, isSpace c = true := by
      rw [String.toList_append]
      exact List.forall_mem_append.2 ⟨hindent, isSpace_indentStep⟩
    have spaces : ∀ c ∈ '\n' :: (indent ++ "  ").toList, isSpace c = true :=
      List.forall_mem_cons.2 ⟨by decide, inner⟩
    have enough : rest.length < (WrittenMember.printInside indent.toList
        (indent ++ "  ").toList (m :: rest) ++ l).length := by
      have lines := WrittenMember.length_lt_printLater (indent ++ "  ").toList rest
      rw [WrittenMember.printInside]
      simp only [List.length_append]
      omega
    have key : ∀ {l}, Takes (nextKey? care true)
        (('\n' :: (indent ++ "  ").toList) ++ quoteChars m.key.toList) (some m.key) l :=
      takes_nextKey?_first care spaces m.key
    have tail : ∀ d ∈ rest, Recovers (value care depth) d.written d.value :=
      fun d hd => h d (List.mem_cons_of_mem m hd)
    exact takes_memberLoop_cons key (h m List.mem_cons_self)
      (takes_memberLoop_later inner hindent enough tail)

end Scan

/-- A document of one value. -/
theorem read_of_recovers {written : String} {value : Value}
    (h : Scan.Recovers (Scan.value .wanted Scan.maxDepth) written value) :
    read written = .ok value := by
  have reads : Scan.Takes (Scan.value .wanted Scan.maxDepth) written.toList value [] :=
    h [] [] nofun
  have ends : Scan.Takes Scan.finish [] () [] := by
    have looks : Scan.Takes Scan.next? [] none [] := Scan.takes_next? nofun .nil
    rw [Scan.finish]
    exact looks.bind_nil .pure
  have document : Scan.Takes
      (do let a ← Scan.value .wanted Scan.maxDepth; Scan.finish; return a)
      written.toList value [] := reads.bind_nil (ends.bind_nil .pure)
  have run := document 0
  rw [List.append_nil] at run
  rw [read, Scan.runDocument]
  exact congrArg Prod.fst run

end MessageCatalog.Json
