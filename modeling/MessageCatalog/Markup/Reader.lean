import MessageCatalog.Markup.Builder

/-!
# Reading markup

Reading is one pass over the characters, and the first problem is the fault that is reported. The
content of elements is read by one loop that counts the open elements, so an element that its own
end tag does not close is noticed where the end tag stands. The value of an entity is read as
content where text refers to it, by the same loop one level further inside.
-/

namespace MessageCatalog.Markup

/-- Where the reading is and what has been built. -/
structure ReaderState where
  cursor : Cursor
  builder : Builder := {}
  deriving Repr

/-- A reading step. -/
abbrev Read := StateT ReaderState (Except Fault)

namespace Read

/-! ## Single characters -/

/-- The characters that are left. -/
def rest : Read (List Char) := do return (← get).cursor.rest

/-- The byte offset of the next character. -/
def offset : Read Nat := do return (← get).cursor.offset

/-- Stop with a fault about a place. -/
def faultAt {α : Type} (cause : Cause) (offset : Nat) : Read α := throw ⟨cause, offset⟩

/-- Stop with a fault about the next character. -/
def fault {α : Type} (cause : Cause) : Read α := do faultAt cause (← offset)

/-- Stop because the document ends too early. -/
def faultEnd {α : Type} : Read α := faultAt .endOfInput 0

/-- Go past `taken`, which is the front of what is left. -/
def advance (taken rest : List Char) : Read Unit :=
  modify fun s => { s with cursor := ⟨rest, s.cursor.offset + Text.byteLength taken⟩ }

/-- Take the longest run of characters of a class. -/
def takeWhile (p : Char → Bool) : Read (List Char) := do
  let left ← rest
  let taken := left.takeWhile p
  advance taken (left.dropWhile p)
  return taken

/-- Whether a text comes next. -/
def ahead (text : String) : Read Bool := do
  return Text.startsWith text.toList (← rest)

/-- Skip white space. -/
def skipSpaces : Read Unit := do
  let _ ← takeWhile isSpace

/-- The next character, which must be there. -/
def peek : Read Char := do
  match ← rest with
  | [] => faultEnd
  | c :: _ => return c

/-- Go past the next `count` characters. -/
def skip (count : Nat) : Read Unit := do
  let left ← rest
  advance (left.take count) (left.drop count)

/-- Go past one character, which must be this one. -/
def expectChar (wanted : Char) : Read Unit := do
  let c ← peek
  if c = wanted then skip 1 else fault (.expectedChar wanted c)

/-- Go past a text, which must come next. -/
def expectText (wanted : String) : Read Unit := do
  if ← ahead wanted then skip wanted.length else fault (.expectedText wanted)

/-- Skip white space, of which there must be some. -/
def expectSpaces : Read Unit := do
  let c ← peek
  if isSpace c then skipSpaces else fault (.expectedClass "a whitespace" c)

/-- Take a quote of either kind. -/
def expectQuote : Read Char := do
  let c ← peek
  if c = '"' ∨ c = '\'' then
    skip 1
    return c
  else fault (.expectedClass "a quote" c)

/-- Whether white space comes next. -/
def atSpace : Read Bool := do
  match ← rest with
  | [] => return false
  | c :: _ => return isSpace c

/-! ## Runs of characters -/

/-- The front of a text that ends where `stop` holds of what is left, and the rest. -/
def splitWhere (stop : List Char → Bool) : List Char → List Char × List Char
  | [] => ([], [])
  | c :: text =>
    if stop (c :: text) then ([], c :: text)
    else
      let (front, rest) := splitWhere stop text
      (c :: front, rest)

/-- Take characters up to where `stop` holds of what is left; none of them may be a character that
no document may hold. -/
def takeUntil (stop : List Char → Bool) : Read (List Char) := do
  let left ← rest
  let (taken, after) := splitWhere (fun text => stop text || !isXmlChar (text.headD ' ')) left
  advance taken after
  match after with
  | c :: _ => if isXmlChar c then return taken else fault (.nonXmlChar c)
  | [] => return taken

/-- Take a name. -/
def name : Read String := do
  let start ← offset
  match ← rest with
  | [] => faultAt .invalidName start
  | c :: _ =>
    if isNameStart c then return String.ofList (← takeWhile isNameChar)
    else faultAt .invalidName start

/-- Skip a name; the end of the document will do for one. -/
def skipName : Read Unit := do
  match ← rest with
  | [] => return
  | _ => let _ ← name

/-- The two parts of a name at its only colon. -/
def splitName (text : List Char) : Option (List Char × List Char) :=
  match Text.cutAt? [':'] text with
  | none => some ([], text)
  | some (space, name) => if ':' ∈ name then none else some (space, name)

/-- Whether a part of a name starts as a name may. -/
def startsAsName : List Char → Bool
  | [] => false
  | c :: _ => isNameStart c

/-- Take a name with an optional prefix. -/
def qualifiedName : Read (String × String) := do
  let start ← offset
  let text ← takeWhile isNameChar
  match splitName text with
  | none => faultAt .invalidName start
  | some (space, name) =>
    if (space.isEmpty || startsAsName space) && startsAsName name then
      return (String.ofList space, String.ofList name)
    else faultAt .invalidName start

/-- Apply an operation of the builder. -/
def build (f : Builder → Except Fault Builder) : Read Unit := do
  let s ← get
  let builder ← f s.builder
  set { s with builder }

/-! ## References -/

/-- What a reference stands for. -/
inductive Reference where
  | char (c : Char)
  | entity (name : String)

/-- The character of a number; a number that is no character stands for the replacement
character. -/
def charOfNumber (n : Nat) : Char :=
  if n.isValidChar then Char.ofNat n else '\uFFFD'

/-- The value of a digit of a hexadecimal number. -/
def digitValue (c : Char) : Nat :=
  if c.isDigit then c.toNat - '0'.toNat
  else if c.isLower then c.toNat - 'a'.toNat + 10
  else c.toNat - 'A'.toNat + 10

/-- Whether a character is a hexadecimal digit. -/
def isHexDigit (c : Char) : Bool :=
  c.isDigit || ('a' ≤ c && c ≤ 'f') || ('A' ≤ c && c ≤ 'F')

/-- The number that digits spell, if it fits into 32 bits and there are digits. -/
def number? (base : Nat) (digits : List Char) : Option Nat :=
  let n := digits.foldl (fun n c => n * base + digitValue c) 0
  if digits.isEmpty || n ≥ Nat.pow 2 32 then none else some n

/-- The character for a numeric reference. -/
def numericReference? (base : Nat) (digits : List Char) : Option Reference :=
  match number? base digits with
  | none => none
  | some n => if isXmlChar (charOfNumber n) then some (.char (charOfNumber n)) else none

/-- The names that stand for single characters, and what other names refer to. -/
def namedReference (name : String) : Reference :=
  match name with
  | "quot" => .char '"'
  | "amp" => .char '&'
  | "apos" => .char '\''
  | "lt" => .char '<'
  | "gt" => .char '>'
  | name => .entity name

/-- The reference between `&` and `;`, given its text. -/
def referenceOf? (text : List Char) : Option Reference :=
  match text with
  | '#' :: 'x' :: digits => if digits.all isHexDigit then numericReference? 16 digits else none
  | '#' :: digits => if digits.all Char.isDigit then numericReference? 10 digits else none
  | text =>
    if startsAsName text && text.all isNameChar then some (namedReference (String.ofList text))
    else none

/-- Take a reference, at whose ampersand the reading is. -/
def reference : Read Reference := do
  let start ← offset
  let left ← rest
  match Text.cutAt? [';'] (left.drop 1) with
  | none => faultAt .malformedReference start
  | some (text, after) =>
    match referenceOf? text with
    | none => faultAt .malformedReference start
    | some r =>
      advance ('&' :: text ++ [';']) after
      return r

/-- The value of an entity that is referred to at `start`. -/
def entityValue (name : String) (start : Nat) : Read Cursor := do
  match (← get).builder.entity? name with
  | some value => return value
  | none => faultAt (.unknownEntity name) start

/-- How deep entities may refer to entities. -/
def maxEntityDepth : Nat := 10

/-- How many references the outermost entity may lead to. -/
def maxEntityReferences : Nat := 255

/-- Read the value of an entity with `body`, counting how deep the reading is, and return to where
it was. -/
def inEntity {α : Type} (value : Cursor) (body : Read α) : Read α := do
  let b := (← get).builder
  if b.entityDepth > 0 then
    if b.entityReferences ≥ maxEntityReferences then fault .referenceLoop
  if b.entityDepth ≥ maxEntityDepth then fault .referenceLoop
  let cursor := (← get).cursor
  let references := if b.entityDepth > 0 then b.entityReferences + 1 else b.entityReferences
  set (⟨value, { b with entityDepth := b.entityDepth + 1, entityReferences := references }⟩ :
    ReaderState)
  let result ← body
  let b := (← get).builder
  let depth := b.entityDepth - 1
  set (⟨cursor, { b with
    entityDepth := depth
    entityReferences := if depth = 0 then 0 else b.entityReferences }⟩ : ReaderState)
  return result

/-- Whether the reading is inside the value of an entity. -/
def withinEntity : Read Bool := do
  return (← get).builder.entityDepth > 0

/-! ## Text -/

/-- Add a character of the document to a text that is kept in reverse: a carriage return becomes a
newline, together with a newline after it. -/
def pushText (text : List Char) (c : Char) (atEnd : Bool) : List Char :=
  match text with
  | '\r' :: before =>
    if atEnd && c = '\r' then '\n' :: '\n' :: before
    else if c ≠ '\n' then c :: '\n' :: before
    else '\n' :: before
  | text => if atEnd && c = '\r' then '\n' :: text else c :: text

/-- Attach a text that is kept in reverse, if there is any. -/
def flushText (text : List Char) : Read Unit := do
  unless text.isEmpty do
    build fun b => .ok (b.addText (String.ofList text.reverse))

/-- Read the value of an entity as content. -/
def entityContent (content : Read Unit) (value : Cursor) : Read Unit := do
  let tagName := (← get).builder.tagName
  inEntity value do
    build fun b => .ok { b with tagName := none }
    content
  build fun b => .ok { b with tagName }

/-- Read all of what is left as text with references. `literal` says that the next character stands
as it is, because a reference to a character stands right before it. -/
def textLoop (content : Read Unit) :
    (fuel : Nat) → (text : List Char) → (literal : Bool) → Read Unit
  | 0, text, _ => flushText text
  | fuel + 1, text, literal => do
    match ← rest with
    | [] => flushText text
    | '&' :: _ =>
      let start ← offset
      match ← reference with
      | .char c =>
        if ← withinEntity then
          textLoop content fuel (pushText text c (← rest).isEmpty) literal
        else textLoop content fuel (c :: text) true
      | .entity name =>
        let value ← entityValue name start
        flushText text
        entityContent content value
        textLoop content fuel [] false
    | c :: after =>
      advance [c] after
      if literal then textLoop content fuel (c :: text) false
      else textLoop content fuel (pushText text c after.isEmpty) false

/-- Read a run of text up to the next tag. -/
def text (content : Read Unit) : Read Unit := do
  let start := (← get).cursor.offset
  let run ← takeUntil fun left => left.head? = some '<'
  let after := (← get).cursor
  if Text.contains "]]>".toList run then fault .sectionEndInText
  modify fun s => { s with cursor := ⟨run, start⟩ }
  textLoop content (run.length + 1) [] false
  modify fun s => { s with cursor := after }

/-- The text of a section, with line ends as newlines. -/
def sectionText : (text : List Char) → List Char → List Char
  | text, [] => text
  | text, c :: rest => sectionText (pushText text c rest.isEmpty) rest

/-- Read a section of characters that are not markup. -/
def characterSection : Read Unit := do
  skip "<![CDATA[".length
  let run ← takeUntil fun left => Text.startsWith "]]>".toList left
  expectText "]]>"
  build fun b => .ok (b.addText (String.ofList (sectionText [] run).reverse))

/-- Read a comment. -/
def comment : Read Unit := do
  let start ← offset
  skip "<!--".length
  let run ← takeUntil fun left => Text.startsWith "-->".toList left
  expectText "-->"
  if Text.contains ['-', '-'] run || run.getLast? = some '-' then faultAt .dashesInComment start
  build fun b => .ok (b.addNode (.comment (String.ofList run)))

/-- Read a processing instruction. -/
def instruction : Read Unit := do
  if ← ahead "<?xml " then fault .unexpectedDeclaration
  skip "<?".length
  let target ← name
  skipSpaces
  let _ ← takeUntil fun left => Text.startsWith "?>".toList left
  expectText "?>"
  build fun b => .ok (b.addNode (.instruction target))

/-! ## Tags -/

/-- Read all of what is left as the value of an attribute, adding to a value kept in reverse.
Entities are read by `inner`. -/
def valueLoop (inner : List Char → Read (List Char)) :
    (fuel : Nat) → (value : List Char) → Read (List Char)
  | 0, value => return value
  | fuel + 1, value => do
    match ← rest with
    | [] => return value
    | '&' :: _ =>
      let start ← offset
      match ← reference with
      | .char c =>
        if ← withinEntity then
          if c = '<' then fault .lessThanInValue
          valueLoop inner fuel ((if isSpace c then ' ' else c) :: value)
        else valueLoop inner fuel (c :: value)
      | .entity name =>
        let place ← entityValue name start
        let value ← inEntity place (inner value)
        valueLoop inner fuel value
    | '\r' :: '\n' :: after =>
      advance ['\r'] ('\n' :: after)
      valueLoop inner fuel value
    | c :: after =>
      advance [c] after
      valueLoop inner fuel ((if isSpace c then ' ' else c) :: value)

/-- Read all of what is left as the value of an attribute, inside at most `nesting` entities. -/
def value : (nesting : Nat) → (value : List Char) → Read (List Char)
  | 0, value => return value
  | nesting + 1, before => do
    valueLoop (value nesting) ((← rest).length + 1) before

/-- Take the name of an attribute and its value as it is written, with the place of the value. -/
def attributeParts : Read (String × String × Cursor) := do
  let (space, name) ← qualifiedName
  skipSpaces
  expectChar '='
  skipSpaces
  let quote ← expectQuote
  let start ← offset
  let run ← takeUntil fun left => left.head? = some quote || left.head? = some '<'
  expectChar quote
  return (space, name, ⟨run, start⟩)

/-- Read an attribute of an element. -/
def tagAttribute : Read Unit := do
  let start ← offset
  let (space, name, written) ← attributeParts
  let after := (← get).cursor
  modify fun s => { s with cursor := written }
  let value ← value (maxEntityDepth + 1) []
  modify fun s => { s with cursor := after }
  build (·.addAttribute ⟨space, name, String.ofList value.reverse, start⟩)

/-- Read the attributes and the end of a start tag: whether content follows. A document that ends
inside the tag leaves the element unopened. -/
def tagRest (tag : TagName) : (fuel : Nat) → Read Bool
  | 0 => return false
  | fuel + 1 => do
    if (← rest).isEmpty then return false
    let spaced ← atSpace
    skipSpaces
    match ← peek with
    | '/' =>
      skip 1
      expectChar '>'
      let stop ← offset
      build (·.endEmptyTag tag stop)
      return false
    | '>' =>
      skip 1
      let stop ← offset
      build (·.endOpenTag tag stop)
      return true
    | c =>
      if !spaced then fault (.expectedClass "a whitespace" c)
      tagAttribute
      tagRest tag fuel

/-- Read a start tag: whether content follows. -/
def startTag : Read Bool := do
  let start ← offset
  skip 1
  let (space, name) ← qualifiedName
  build (·.beginTag space name start)
  tagRest ⟨space, name, start⟩ ((← rest).length + 1)

/-- Read an end tag. -/
def endTag : Read Unit := do
  let start ← offset
  skip "</".length
  let (space, name) ← qualifiedName
  skipSpaces
  expectChar '>'
  let stop ← offset
  build (·.closeTag space name start stop)

/-! ## Content -/

/-- Read content inside `depth` open elements until the outermost of them is closed or nothing is
left. Entities are read by `inner`. -/
def contentLoop (inner : Read Unit) : (fuel : Nat) → (depth : Nat) → Read Unit
  | 0, _ => return
  | fuel + 1, depth => do
    match ← rest with
    | [] => return
    | '<' :: '!' :: _ =>
      if ← ahead "<!--" then comment
      else if ← ahead "<![CDATA[" then characterSection
      else fault .unknownToken
      contentLoop inner fuel depth
    | '<' :: '?' :: _ =>
      instruction
      contentLoop inner fuel depth
    | '<' :: '/' :: _ =>
      endTag
      if depth > 1 then contentLoop inner fuel (depth - 1)
    | ['<'] => fault .unknownToken
    | '<' :: _ =>
      if ← startTag then contentLoop inner fuel (depth + 1) else contentLoop inner fuel depth
    | _ =>
      text inner
      contentLoop inner fuel depth

/-- Read content inside at most `nesting` entities. -/
def content : (nesting : Nat) → Read Unit
  | 0 => return
  | nesting + 1 => do contentLoop (content nesting) ((← rest).length + 1) 1

/-! ## The document -/

/-- Read white space, comments and processing instructions. -/
def misc : (fuel : Nat) → Read Unit
  | 0 => return
  | fuel + 1 => do
    skipSpaces
    if ← ahead "<!--" then
      comment
      misc fuel
    else if ← ahead "<?" then
      instruction
      misc fuel

/-- Skip white space in the declaration, where the declaration does not end. -/
def declarationSpaces : Read Unit := do
  if ← atSpace then skipSpaces
  else if !(← ahead "?>") then fault (.expectedClass "a whitespace" (← peek))

/-- Read the declaration of the document. -/
def declaration : Read Unit := do
  skip "<?xml".length
  declarationSpaces
  if !(← ahead "version") then fault (.expectedText "version")
  let _ ← attributeParts
  declarationSpaces
  if ← ahead "encoding" then
    let _ ← attributeParts
    declarationSpaces
  if ← ahead "standalone" then
    let _ ← attributeParts
  skipSpaces
  expectText "?>"

/-- Read a quoted text. -/
def quotedText : Read Cursor := do
  let quote ← expectQuote
  let start ← offset
  let run ← takeWhile (· ≠ quote)
  expectChar quote
  return ⟨run, start⟩

/-- Read the place of something outside the document, if there is one: whether there is. -/
def externalId : Read Bool := do
  if ← ahead "SYSTEM" then
    skip "SYSTEM".length
    expectSpaces
    let _ ← quotedText
    return true
  else if ← ahead "PUBLIC" then
    skip "PUBLIC".length
    expectSpaces
    let _ ← quotedText
    expectSpaces
    let _ ← quotedText
    return true
  else return false

/-- Read the value of an entity; one outside the document has none. -/
def entityDefinition (general : Bool) : Read (Option Cursor) := do
  let c ← peek
  if c = '"' ∨ c = '\'' then return some (← quotedText)
  else if c = 'S' ∨ c = 'P' then
    if !(← externalId) then fault .invalidExternalId
    if general then
      skipSpaces
      if ← ahead "NDATA" then
        skip "NDATA".length
        expectSpaces
        skipName
    return none
  else fault (.expectedClass "a quote, SYSTEM or PUBLIC" c)

/-- Read the declaration of an entity. -/
def entityDeclaration : Read Unit := do
  skip "<!ENTITY".length
  expectSpaces
  let general := (← rest).head? ≠ some '%'
  if !general then
    skip 1
    expectSpaces
  let name ← name
  expectSpaces
  if let some value ← entityDefinition general then
    build fun b => .ok { b with entities := b.entities ++ [(name, value)] }
  skipSpaces
  expectChar '>'

/-- Whether a declaration comes next that is skipped. -/
def aheadSkipped : Read Bool := do
  return (← ahead "<!ELEMENT") || (← ahead "<!ATTLIST") || (← ahead "<!NOTATION")

/-- Read the declarations of a document type up to the end of the document type. -/
def typeDeclarations : (fuel : Nat) → Read Unit
  | 0 => return
  | fuel + 1 => do
    if (← rest).isEmpty then return
    skipSpaces
    if ← ahead "<!ENTITY" then
      entityDeclaration
      typeDeclarations fuel
    else if ← ahead "<!--" then
      comment
      typeDeclarations fuel
    else if ← ahead "<?" then
      instruction
      typeDeclarations fuel
    else if ← ahead "]" then
      skip 1
      skipSpaces
      expectChar '>'
    else if ← aheadSkipped then
      let _ ← takeWhile (· ≠ '>')
      if (← rest).isEmpty then fault .unknownToken
      skip 1
      typeDeclarations fuel
    else fault .unknownToken

/-- Read the document type. -/
def documentType : Read Unit := do
  skip "<!DOCTYPE".length
  expectSpaces
  skipName
  skipSpaces
  let _ ← externalId
  skipSpaces
  let c ← peek
  if c = '[' then
    skip 1
    typeDeclarations ((← rest).length + 1)
  else if c = '>' then skip 1
  else fault (.expectedClass "'[' or '>'" c)

/-- Read the whole document. -/
def document : Read Unit := do
  let fuel := (← rest).length + 1
  if ← ahead "\uFEFF" then skip 1
  if ← ahead "<?xml " then declaration
  misc fuel
  skipSpaces
  if ← ahead "<!DOCTYPE" then
    documentType
    misc fuel
  skipSpaces
  if ← ahead "<" then
    if ← startTag then content (maxEntityDepth + 1)
  misc fuel
  if !(← rest).isEmpty then fault .unknownToken

end Read

/-- The root element of what was built. -/
def Builder.root (b : Builder) : Except Fault Element :=
  match b.nodes.reverse.findSome? Node.element?, b.opened with
  | some root, [] => .ok root
  | none, [] => .error ⟨.noRoot, 0⟩
  | _, _ => .error ⟨.rootNotClosed, 0⟩

/-- Read a document: its root element. -/
def read (contents : String) : Except Fault Element := do
  let (_, s) ← Read.document.run { cursor := ⟨contents.toList, 0⟩ }
  s.builder.root

end MessageCatalog.Markup
