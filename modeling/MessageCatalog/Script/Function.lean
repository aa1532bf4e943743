import MessageCatalog.Script.TypeNote

/-!
# Functions

A function is a scope with its parameters, and in it a scope with its body: a default of a parameter
does not see what the body declares. Whether parentheses hold the parameters of an arrow function is
known only at the arrow, so where the first tokens leave it open, the parameters are tried first.
-/

namespace MessageCatalog.Script.Reading

/-! ## Bodies -/

/-- Read statements up to a closing brace. -/
def statementsInBraces (g : Grammar) : Reading (List Node) := do
  takePunct "\x7b"
  let statements ← many do
    if ← isPunct "\x7d" then return none
    else some <$> g (.statement false)
  takePunct "\x7d"
  return statements

/-- Read the body of a function. -/
def functionBody (g : Grammar) : Reading Node :=
  within (fun c => { c with returns := true }) (enclosed (inScope true (statementsInBraces g)))

/-- The context of a function's parameters and body. -/
def functionContext (isAsync isGenerator : Bool) (c : Context) : Context :=
  { c with awaits := isAsync, yields := isGenerator }

/-- Read parameters and body of a function. With types a function may be declared without a
body. -/
def callable (g : Grammar) (isAsync isGenerator : Bool) : Reading Node :=
  within (functionContext isAsync isGenerator) <| inScope true do
    typeParameters g
    let items ← parameters g .lexical
    typeNote g
    if ← isPunct "\x7b" then return items ++ [← functionBody g]
    else
      require (← isTyped)
      semicolon
      return items

/-- Go past the words and the star at the front of a function; whether it is asynchronous, and
whether it is a generator. -/
def functionHead : Reading (Bool × Bool) := do
  let isAsync ← takeWord? "async"
  takeWord "function"
  let isGenerator ← takePunct? "*"
  return (isAsync, isGenerator)

/-- Read a function that is an expression. Its name is declared around it alone. -/
def functionExpression (g : Grammar) : Reading Node := inScope false do
  let (isAsync, isGenerator) ← functionHead
  if ← isName then declaredName .lexical
  return [← callable g isAsync isGenerator]

/-- Read a function that is a declaration. -/
def functionDeclaration (g : Grammar) (declaration : Declaration) (needsName : Bool) :
    Reading Node := do
  let start ← here
  let (isAsync, isGenerator) ← functionHead
  if needsName || (← isName) then declaredName declaration
  let body ← callable g isAsync isGenerator
  group start [body]

/-- Whether `async` is followed by a function on the same line. -/
def isAsyncFunction : Reading Bool := do
  let behind ← following
  return (← isWord "async") && behind.token = .name "function" false && !behind.newlineBefore

/-! ## Arrow functions -/

/-- Read the parameters of an arrow function and go to its arrow; the scope of the function stays
open. Also, whether the type of its result is given. -/
def arrowParameters (g : Grammar) (isAsync : Bool) : Reading (List Node × Bool) := do
  openScope true
  typeParameters g
  let items ← within (fun c => { c with awaits := isAsync || c.awaits }) (parameters g .lexical)
  let hasType := (← isTyped) && (← isPunct ":")
  typeNote g
  require ((← isPunct "=>") && !(← newlineBefore))
  return (items, hasType)

/-- Read an arrow and the body behind it, and close the scope of the function. -/
def arrowBody (g : Grammar) (start : Nat) (isAsync : Bool) (items : List Node) :
    Reading Node := do
  takePunct "=>"
  let body ← within (functionContext isAsync false) do
    if ← isPunct "\x7b" then functionBody g
    else inScope true (do return [← g .assignment])
  let names ← closeScope
  return .scope (← rangeFrom start) names (items ++ [body])

/-- Read an arrow function whose parameter is a name without parentheses. -/
def simpleArrow (g : Grammar) (start : Nat) (isAsync : Bool) : Reading Node := do
  openScope true
  declaredName .lexical
  require ((← isPunct "=>") && !(← newlineBefore))
  arrowBody g start isAsync []

/-- What the first tokens say about parentheses. -/
inductive Likelihood where
  | parameters
  | expression
  | unknown
  deriving DecidableEq, Repr

/-- Judge parentheses by what stands behind the opening one. -/
def judgeParenthesis : Reading Likelihood := do
  advance
  if ← takePunct? ")" then
    return if (← isPunct "=>") || (← isPunct ":") || (← isPunct "\x7b") then .parameters
      else .expression
  if (← isPunct "[") || (← isPunct "\x7b") then return .unknown
  if ← isPunct "..." then return .parameters
  if ← isPunct "@" then return .unknown
  let behind := (← following).token
  match ← token with
  | .name word false =>
    if (← isTyped) && word ∈ parameterModifiers && (behind matches .name _ _) &&
        behind ≠ .name "as" false then return .parameters
  | _ => pure ()
  if !((← isName) || (← isWord "this")) then return .expression
  advance
  if ← isPunct ":" then return .parameters
  if ← takePunct? "?" then
    return if (← isPunct ":") || (← isPunct ",") || (← isPunct "=") || (← isPunct ")") then
      .parameters else .expression
  if (← isPunct ",") || (← isPunct "=") || (← isPunct ")") then return .unknown
  return .expression

/-- Judge an angle by what stands behind it: type parameters, an element or a note on a type. -/
def judgeAngle : Reading Likelihood := do
  advance
  let isConst ← takeWord? "const"
  if !(← isName) then return if isConst then .unknown else .expression
  if !(← context).language.elements then return .unknown
  advance
  if (← isPunct ",") || (← isPunct "=") then return .parameters
  if ← takeWord? "extends" then
    return if (← isPunct "=") || (← isPunct ">") || (← isPunct "/") then .expression
      else .parameters
  return .expression

/-- Judge whether an arrow function with parentheses begins here. -/
def judgeArrow : Reading Likelihood := lookahead do
  if ← isWord "async" then
    advance
    if ← newlineBefore then return .expression
  if ← isPunct "(" then judgeParenthesis
  else if (← isTyped) && (← isPunct "<") then judgeAngle
  else return .expression

/-- Read an arrow function with parentheses. -/
def arrowFunction (g : Grammar) : Reading Node := do
  let start ← here
  let isAsync ← takeWord? "async"
  let (items, _) ← arrowParameters g isAsync
  arrowBody g start isAsync items

/-- Read an arrow function in the middle of a conditional expression. With a type of its result it
is one only when the colon of the conditional expression follows. -/
def arrowBeforeColon (g : Grammar) : Reading Node := do
  let start ← here
  let isAsync ← takeWord? "async"
  let (items, hasType) ← arrowParameters g isAsync
  let node ← arrowBody g start isAsync items
  if hasType then require (← isPunct ":")
  return node

/-- Try to read the parameters of an arrow function, and remember when there are none here. -/
def tryArrow (g : Grammar) : Reading (Option Node) := do
  let start ← here
  if start ∈ (← get).noParameters then return none
  let remember : Reading (Option Node) := do
    modify fun s => { s with noParameters := start :: s.noParameters }
    return none
  if (← context).resultTypes then
    let found ← attempt do
      let isAsync ← takeWord? "async"
      return (isAsync, (← arrowParameters g isAsync).1)
    match found with
    | some (isAsync, items) => some <$> arrowBody g start isAsync items
    | none => remember
  else
    match ← attempt (arrowBeforeColon g) with
    | some node => return some node
    | none => return none

/-- Read an arrow function, if one begins here. -/
def arrowFunction? (g : Grammar) : Reading (Option Node) := do
  match ← judgeArrow with
  | .parameters =>
    if (← context).resultTypes || !(← isTyped) then some <$> arrowFunction g
    else tryArrow g
  | .unknown => tryArrow g
  | .expression =>
    let start ← here
    let behind ← following
    let isSimple := (← isWord "async") && !behind.newlineBefore &&
      (nameOf? { ← context with awaits := true } behind.token).isSome
    if isSimple then
      let arrow ← lookahead do
        advance
        advance
        isPunct "=>"
      if arrow then
        advance
        return some (← simpleArrow g start true)
    return none

end MessageCatalog.Script.Reading
