import MessageCatalog.Script.Element
import MessageCatalog.Script.Member

/-!
# Expressions
-/

namespace MessageCatalog.Script.Reading

/-! ## Targets of assignments -/

/-- Read an expression that was read already as the target of an assignment. -/
def asTarget (node : Node) : Reading Unit := do
  match node.targetDefaults? false with
  | some defaults =>
    modify fun s => { s with pendingDefaults := s.pendingDefaults.filter (· ∉ defaults) }
  | none => refuse

/-! ## Templates -/

/-- Read the pieces of a template and the substitutions between them. -/
def templatePieces (g : Grammar) : Reading (List Quoted.Quasi × List Node) := do
  let pieces ← many do
    match ← token with
    | .template quasi false =>
      advance
      let inner ← enclosed (g .expression)
      require (← isPunct "\x7d")
      again fun text => readQuasi (text.drop 1)
      return some (quasi, inner)
    | _ => return none
  match ← token with
  | .template quasi true =>
    advance
    return (pieces.map Prod.fst ++ [quasi], pieces.map Prod.snd)
  | _ => refuse

/-- Read a template without a tag, in which every escape must be well formed. -/
def templateLiteral (g : Grammar) : Reading Node := do
  let start ← here
  let (quasis, substitutions) ← templatePieces g
  require (quasis.all fun q => q.cooked.isSome)
  group start substitutions

/-! ## Primary expressions -/

/-- Read an item of an array. -/
def arrayItem (g : Grammar) : Reading Node := do
  let start ← here
  if ← isPunct "," then return .hole
  else if ← takePunct? "..." then
    let inner ← enclosed (g .assignment)
    return .spread (← rangeFrom start) inner
  else enclosed (g .assignment)

/-- Read an array. -/
def arrayLiteral (g : Grammar) : Reading Node := do
  let start ← here
  takePunct "["
  let (items, trailingComma) ← enclosed (listUntil "]" (arrayItem g))
  return .array (← rangeFrom start) items trailingComma

/-- Read an expression in parentheses. -/
def parenthesized (g : Grammar) : Reading Node := do
  let start ← here
  takePunct "("
  let inner ← enclosed (g .expression)
  takePunct ")"
  return .parenthesized (← rangeFrom start) inner

/-- Read the arguments of a call. -/
def callArguments (g : Grammar) : Reading (List Node) := do
  takePunct "("
  let (items, _) ← enclosed <| listUntil ")" do
    require !(← isPunct ",")
    arrayItem g
  return items

/-- Read what begins with `import`: facts about the module, or the loading of another one. -/
def importExpression (g : Grammar) (allowCall : Bool) : Reading Node := do
  let start ← here
  takeWord "import"
  let isFact ← takePunct? "."
  if ← pure isFact <&&> takeWord? "meta" then group start []
  else
    if isFact then require (← takeWord? "source" <||> takeWord? "defer")
    require allowCall
    takePunct "("
    let first ← enclosed (g .assignment)
    let options ← many do
      if ← takePunct? "," then
        if ← isPunct ")" then return none
        else some <$> enclosed (g .assignment)
      else return none
    require (options.length ≤ 1)
    takePunct ")"
    group start (first :: options)

/-- Read `new` and what it is applied to. -/
def newExpression (g : Grammar) : Reading Node := do
  let start ← here
  takeWord "new"
  if ← takePunct? "." then
    takeWord "target"
    group start []
  else
    let callee ← g .constructor
    let arguments ← if ← isPunct "(" then callArguments g else pure []
    group start (callee :: arguments)

/-- Read the parent of the class around this place, of which something must be asked. -/
def superReference : Reading Node := do
  let start ← here
  takeWord "super"
  require ((← isPunct "(") || (← isPunct ".") || (← isPunct "["))
  group start []

/-- Read a pattern, of which the slash is the current token. -/
def patternLiteral : Reading Node := do
  let start ← here
  again fun text => readPattern (text.drop 1)
  require ((← token) = .pattern)
  advance
  group start []

/-- The words that stand for a value. -/
def valueWords : List String := ["this", "null", "true", "false"]

/-- Read an expression that begins with a word. -/
def wordExpression (g : Grammar) (word : String) : Reading Node := do
  let start ← here
  if word ∈ valueWords then
    advance
    group start []
  else if word = "function" then functionExpression g
  else if word = "class" then classExpression g
  else if word = "new" then newExpression g
  else if word = "super" then superReference
  else if ← isAsyncFunction then functionExpression g
  else identifier

/-- Read an expression without operators and without anything behind it. -/
def primary (g : Grammar) : Reading Node := do
  let start ← here
  match ← token with
  | .name word false => wordExpression g word
  | .name _ true => identifier
  | .number =>
    advance
    group start []
  | .string value =>
    advance
    return .string (← rangeFrom start) value
  | .template _ _ => templateLiteral g
  | .punct "/" | .punct "/=" => patternLiteral
  | .punct "[" => arrayLiteral g
  | .punct "\x7b" => objectLiteral g
  | .punct "(" => parenthesized g
  | .punct "@" => classExpression g
  | _ => refuse

/-! ## Properties and calls -/

/-- An expression with what stands behind it so far, and whether an optional part is among that. -/
structure Suffixed where
  node : Node
  isOptional : Bool := false
  deriving Inhabited

/-- Read the name of a property. -/
def propertyName (start : Nat) (object : Node) : Reading Node := do
  let nameStart ← here
  if (← token) matches .privateName then
    advance
    return .element (← rangeFrom start) [object]
  else
    let _ ← takeAnyWord
    return .member (← rangeFrom start) object (← rangeFrom nameStart)

/-- Read a property in brackets. -/
def computedProperty (g : Grammar) (start : Nat) (object : Node) : Reading Node := do
  takePunct "["
  let key ← enclosed (g .expression)
  takePunct "]"
  return .element (← rangeFrom start) [object, key]

/-- Read a call. -/
def callOf (g : Grammar) (start : Nat) (callee : Node) : Reading Node := do
  let arguments ← callArguments g
  return .call (← rangeFrom start) callee arguments

/-- Read a template behind its tag, which must not be an optional part. -/
def taggedTemplate (g : Grammar) (start : Nat) (tag : Suffixed) : Reading Suffixed := do
  require !tag.isOptional
  let (quasis, substitutions) ← templatePieces g
  return { tag with node := .tagged (← rangeFrom start) tag.node quasis substitutions }

/-- Read what follows `?.`. -/
def optionalSuffix (g : Grammar) (start : Nat) (object : Node) : Reading Suffixed := do
  if (← isTyped) && (← isPunct "<") then typeArguments g
  let node ←
    if ← isPunct "(" then callOf g start object
    else if ← isPunct "[" then computedProperty g start object
    else propertyName start object
  return ⟨node, true⟩

/-- Whether types in angles behind an expression are its arguments: what follows them cannot go on
with a comparison. -/
def endsTypeArguments : Reading Bool := do
  match ← token with
  | .punct "(" | .template _ _ => return true
  | .punct "<" | .punct ">" | .punct "+" | .punct "-" => return false
  | .punct "[" | .punct "\x7b" | .punct "/" | .punct "@" | .punct "~" | .punct "!" | .punct "#" =>
    newlineBefore
  | .name word _ =>
    return (← newlineBefore) || word ∈ ["in", "instanceof", "as", "satisfies", "extends",
      "implements"]
  | .number | .string _ | .privateName => newlineBefore
  | _ => return true

/-- Read types in angles behind an expression and what they apply to. -/
def typeArgumentSuffix? (g : Grammar) (start : Nat) (allowCall : Bool) (s : Suffixed) :
    Reading (Option Suffixed) := do
  let found ← attempt do
    typeArguments g
    require (← endsTypeArguments)
  if found.isNone then return none
  match ← token with
  | .template _ _ => some <$> taggedTemplate g start s
  | .punct "(" =>
    if allowCall then return some { s with node := ← callOf g start s.node }
    else return some s
  | _ => return some { s with node := .typed (← rangeFrom start) s.node }

/-- Read the next part behind an expression, if there is one. -/
def suffix? (g : Grammar) (start : Nat) (allowCall : Bool) (s : Suffixed) :
    Reading (Option Suffixed) := do
  match ← token with
  | .punct "." =>
    advance
    return some { s with node := ← propertyName start s.node }
  | .punct "?." =>
    require allowCall
    advance
    some <$> optionalSuffix g start s.node
  | .punct "[" =>
    if (← context).decorator then return none
    return some { s with node := ← computedProperty g start s.node }
  | .template _ _ => some <$> taggedTemplate g start s
  | .punct "(" =>
    if allowCall then return some { s with node := ← callOf g start s.node } else return none
  | .punct "!" =>
    if (← isTyped) && !(← newlineBefore) then
      advance
      return some { s with node := .typed (← rangeFrom start) s.node }
    else return none
  | .punct "<" | .punct "<<" =>
    if ← isTyped then typeArgumentSuffix? g start allowCall s else return none
  | _ => return none

/-- Read everything behind an expression, at most `count` parts. -/
def suffixes (g : Grammar) (start : Nat) (allowCall : Bool) :
    (count : Nat) → Suffixed → Reading Suffixed
  | 0, s => return s
  | count + 1, s => do
    match ← suffix? g start allowCall s with
    | some s => suffixes g start allowCall count s
    | none => return s

/-- Read an expression with the properties and calls behind it. -/
def leftHand (g : Grammar) : Reading Node := do
  let start ← here
  let first ← if ← isWord "import" then importExpression g true else primary g
  let s ← suffixes g start true ((← context).size + 1) { node := first }
  if s.isOptional then return .chain (← rangeFrom start) s.node
  else return s.node

/-- Read what `new` is applied to: an expression with the properties behind it. -/
def constructor (g : Grammar) : Reading Node := do
  let start ← here
  let first ← if ← isWord "import" then importExpression g false else primary g
  let s ← suffixes g start false ((← context).size + 1) { node := first }
  return s.node

/-! ## Operators -/

/-- The words that are applied to an operand. -/
def unaryWords : List String := ["delete", "typeof", "void"]

def unarySigns : List String := ["+", "-", "~", "!"]

/-- Whether the current token is applied to an operand behind it. -/
def isUnaryOperator : Reading Bool := do
  match ← token with
  | .name word false => return word ∈ unaryWords || (word = "await" && (← context).awaits)
  | .punct p => return p ∈ unarySigns
  | _ => return false

/-- Whether the current token changes a variable by one. -/
def isStep : Reading Bool := do return (← isPunct "++") || (← isPunct "--")

/-- Whether an element begins here. -/
def isElement : Reading Bool := do
  if !((← context).language.elements && (← isPunct "<")) then return false
  match (← following).token with
  | .name _ _ | .punct ">" => return true
  | _ => return false

/-- Read an expression with a step before it or behind it. -/
def stepExpression (g : Grammar) : Reading Node := do
  let start ← here
  if ← isStep then
    advance
    let operand ← g .unary
    require operand.isSimpleTarget
    group start [operand]
  else if ← isElement then
    let inner ← g .element
    advance
    group start [inner]
  else
    let operand ← g .leftHand
    if (← isStep) && !(← newlineBefore) then
      require operand.isSimpleTarget
      advance
      group start [operand]
    else return operand

/-- Read an operand. What an operator is applied to is no base of a power. -/
def unary (g : Grammar) : Reading Node := do
  let start ← here
  if ← isUnaryOperator then
    advance
    let operand ← g .unary
    require !(← isPunct "**")
    group start [operand]
  else if (← isTyped) && !(← context).language.elements && (← isPunct "<") then
    advance
    let _ ← enclosed (g .type)
    takePunct ">"
    let operand ← g .unary
    require !(← isPunct "**")
    return .typed (← rangeFrom start) operand
  else stepExpression g

/-- How tightly an operator binds. -/
def strength? : String → Option Nat
  | "??" => some 1
  | "||" => some 2
  | "&&" => some 3
  | "|" => some 4
  | "^" => some 5
  | "&" => some 6
  | "==" | "!=" | "===" | "!==" => some 7
  | "<" | ">" | "<=" | ">=" | "instanceof" | "in" | "as" | "satisfies" => some 8
  | "<<" | ">>" | ">>>" => some 9
  | "+" | "-" => some 10
  | "*" | "/" | "%" => some 11
  | "**" => some 12
  | _ => none

/-- The strength of powers, which group from the right. -/
def powerStrength : Nat := 12

/-- The operator with two operands that is the current token; a `>` is read again with what
follows it. -/
def binaryOperator? : Reading (Option String) := do
  match ← token with
  | .punct ">" =>
    again fun text =>
      match greaterThans.find? fun p => Text.startsWith p.toList text with
      | some p => (.punct p, p.length)
      | none => (.malformed, 1)
    match ← token with
    | .punct p => return some p
    | _ => return none
  | .punct p => return some p
  | .name "instanceof" false => return some "instanceof"
  | .name "in" false => return if (← context).inOperator then some "in" else none
  | .name "as" false =>
    return if (← isTyped) && !(← newlineBefore) then some "as" else none
  | .name "satisfies" false =>
    return if (← isTyped) && !(← newlineBefore) then some "satisfies" else none
  | _ => return none

/-- Whether two shortcut operators may not stand beside each other without parentheses. -/
def clashes (operator : Shortcut) (operand : Node) : Bool :=
  match operand with
  | .shortcut _ inner _ _ => (operator = .coalesce) != (inner = .coalesce)
  | _ => false

/-- The node of an operator with its operands. -/
def combine (start : Nat) (operator : String) (left right : Node) : Reading Node := do
  let shortcut? : Option Shortcut :=
    match operator with
    | "||" => some .or
    | "&&" => some .and
    | "??" => some .coalesce
    | _ => none
  match shortcut? with
  | some s =>
    require !(clashes s left || clashes s right)
    return .shortcut (← rangeFrom start) s left right
  | none => group start [left, right]

/-- Read the next operator and its right side, if it binds more tightly than `above`. -/
def binaryStep? (g : Grammar) (start above : Nat) (left : Node) : Reading (Option Node) := do
  match ← binaryOperator? with
  | none => return none
  | some operator =>
    match strength? operator with
    | none => return none
    | some n =>
      if n ≤ above && !(n = powerStrength && n = above) then return none
      advance
      if operator = "as" || operator = "satisfies" then
        if !(← takeWord? "const") then
          let _ ← g .type
        return some (.typed (← rangeFrom start) left)
      else
        let right ← g (.binary n)
        some <$> combine start operator left right

/-- Read all operators that bind more tightly than `above`, at most `count` of them. -/
def binaryRest (g : Grammar) (start above : Nat) : (count : Nat) → Node → Reading Node
  | 0, left => return left
  | count + 1, left => do
    match ← binaryStep? g start above left with
    | some node => binaryRest g start above count node
    | none => return left

/-- Read operands with operators between them. A private name stands only before `in`. -/
def binary (g : Grammar) (above : Nat) : Reading Node := do
  let start ← here
  let first ←
    if (← token) matches .privateName then do
      advance
      require ((← isWord "in") && (← context).inOperator && above < 8)
      group start []
    else g .unary
  binaryRest g start above ((← context).size + 1) first

/-! ## Assignments -/

def assignmentOperators : List String := [
  "=", "+=", "-=", "*=", "/=", "%=", "**=", "<<=", ">>=", ">>>=", "&=", "|=", "^=", "&&=", "||=",
  "??="]

/-- Read `yield` and what is handed out. -/
def yieldExpression (g : Grammar) : Reading Node := do
  let start ← here
  takeWord "yield"
  if ← newlineBefore then group start []
  else
    let delegates ← takePunct? "*"
    match ← token with
    | .punct p =>
      if !delegates && p ∈ [")", "]", "\x7d", ",", ";", ":"] then group start []
      else
        let inner ← g .assignment
        group start [inner]
    | .endOfInput =>
      require !delegates
      group start []
    | .name "in" false | .name "of" false =>
      if delegates then refuse else group start []
    | _ =>
      let inner ← g .assignment
      group start [inner]

/-- Read the choice behind a condition, if there is one. -/
def conditionalRest (g : Grammar) (start : Nat) (condition : Node) : Reading Node := do
  if ← takePunct? "?" then
    let first ← enclosed (within (fun c => { c with resultTypes := false }) (g .assignment))
    takePunct ":"
    let second ← g .assignment
    group start [condition, first, second]
  else return condition

/-- Read an assignment behind its target, if it is one, or else a conditional expression. -/
def assignmentRest (g : Grammar) (start : Nat) (left : Node) : Reading Node := do
  match ← token with
  | .punct p =>
    if p ∈ assignmentOperators then
      if p = "=" then asTarget left else require left.isSimpleTarget
      advance
      let value ← g .assignment
      return .assignment (← rangeFrom start) (p = "=") left value
    else conditionalRest g start left
  | _ => conditionalRest g start left

/-- Read an expression without a comma. -/
def assignment (g : Grammar) : Reading Node := do
  let start ← here
  if (← isWord "yield") && (← context).yields then yieldExpression g
  else
    match ← arrowFunction? g with
    | some arrow => return arrow
    | none =>
      let behind := (← following)
      if (← isName) && behind.token = .punct "=>" then simpleArrow g start false
      else
        let left ← g (.binary 0)
        assignmentRest g start left

/-- Read expressions with commas between them. -/
def expression (g : Grammar) : Reading Node := do
  let start ← here
  let first ← g .assignment
  let more ← many do
    if ← takePunct? "," then some <$> g .assignment else return none
  if more.isEmpty then return first else group start (first :: more)

end MessageCatalog.Script.Reading
