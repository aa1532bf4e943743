import MessageCatalog.Script.Binding

/-!
# Elements in expressions

Markup in a script: its text has rules of its own, and what stands in braces is an expression. An
element leaves the last `>` of it as the current token, since what follows an element is text inside
another element and a token elsewhere.
-/

namespace MessageCatalog.Script.Reading

/-! ## Tokens of elements -/

/-- Go to the next token inside an element, which is text, a tag or an expression in braces. -/
def advanceInContent : Reading Unit :=
  modify fun s =>
    let behind : Lexeme := ⟨.malformed, s.lexeme.after, s.lexeme.after, false⟩
    { s with lexeme := behind.again readElementText, lastStop := s.lexeme.stop }

/-- Go past a name in a tag. -/
def takeElementName : Reading String := do
  again readElementName
  takeAnyWord

/-! ## Tags -/

/-- Go past the name of an element with its qualifiers. -/
def elementName : Reading String := do
  let first ← takeElementName
  let more ← many do
    if ← takePunct? ":" then return some (":" ++ (← takeElementName))
    else if ← takePunct? "." then return some ("." ++ (← takeElementName))
    else return none
  return first ++ String.join more

/-- Read an expression in braces. -/
def embedded (g : Grammar) : Reading Node := do
  takePunct "\x7b"
  let _ ← takePunct? "..."
  let inner ← enclosed (g .expression)
  require (← isPunct "\x7d")
  return inner

/-- Read the value of an attribute. -/
def attributeValue (g : Grammar) : Reading Node := do
  let start ← here
  if ← isPunct "\x7b" then
    let inner ← embedded g
    advance
    group start [inner]
  else if ← isPunct "<" then
    let inner ← g .element
    advance
    group start [inner]
  else
    again readElementString
    require ((← token) matches .string _)
    advance
    group start []

/-- Read an attribute. -/
def attributeItem (g : Grammar) : Reading Node := do
  let start ← here
  if ← isPunct "\x7b" then
    require ((← following).token = .punct "...")
    let inner ← embedded g
    advance
    group start [inner]
  else
    let _ ← takeElementName
    if ← takePunct? ":" then
      let _ ← takeElementName
    if ← takePunct? "=" then
      let value ← attributeValue g
      group start [value]
    else group start []

/-- Read the attributes of a tag. -/
def attributeItems (g : Grammar) : Reading (List Node) :=
  many do
    if (← isPunct ">") || (← isPunct "/") then return none
    else some <$> attributeItem g

/-! ## Elements -/

/-- Read a piece of content; a tag that closes the element is no content. -/
def contentItem? (g : Grammar) : Reading (Option Node) := do
  let start ← here
  match ← token with
  | .elementText =>
    advanceInContent
    some <$> group start []
  | .punct "\x7b" =>
    if (← following).token = .punct "\x7d" then
      advance
      advanceInContent
      some <$> group start []
    else
      let inner ← embedded g
      advanceInContent
      some <$> group start [inner]
  | .punct "<" =>
    if (← following).token = .punct "/" then return none
    else
      let inner ← g .element
      advanceInContent
      some <$> group start [inner]
  | _ => return none

/-- Read the content of an element and its closing tag. -/
def elementContent (g : Grammar) (name : String) : Reading (List Node) := do
  require (← isPunct ">")
  advanceInContent
  let content ← many (contentItem? g)
  takePunct "<"
  takePunct "/"
  let closing ← if ← isPunct ">" then pure "" else elementName
  require (closing = name)
  require (← isPunct ">")
  return content

/-- Read an element, or elements without one around them. -/
def element (g : Grammar) : Reading Node := do
  let start ← here
  takePunct "<"
  if ← isPunct ">" then
    let content ← elementContent g ""
    group start content
  else
    let name ← elementName
    if (← isTyped) && (← isPunct "<") then typeArguments g
    let attributes ← attributeItems g
    if ← takePunct? "/" then
      require (← isPunct ">")
      group start attributes
    else
      let content ← elementContent g name
      group start (attributes ++ content)

end MessageCatalog.Script.Reading
