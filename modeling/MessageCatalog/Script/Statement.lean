import MessageCatalog.Script.Expression

/-!
# Statements

Names are declared where the statement puts them: a variable comes to rest in the function around it,
everything else in the block around it.
-/

namespace MessageCatalog.Script.Reading

/-! ## Simple statements -/

/-- Read an expression in parentheses that belongs to a statement. -/
def condition (g : Grammar) : Reading Node := do
  takePunct "("
  let inner ← enclosed (g .expression)
  takePunct ")"
  return inner

/-- Read a block, which is a scope of its own. -/
def block (g : Grammar) : Reading Node := inScope false (statementsInBraces g)

/-- Read an expression that is a statement, or a label with the statement behind it. -/
def expressionStatement (g : Grammar) : Reading Node := do
  let start ← here
  let inner ← enclosed (g .expression)
  if ← pure (inner matches .identifier _) <&&> takePunct? ":" then
    let body ← g (.statement true)
    group start [body]
  else
    semicolon
    group start [inner]

/-! ## Variables -/

/-- How strictly a variable needs an initial value. -/
inductive Initials where
  /-- A pattern needs one, and so does every constant. -/
  | required (isConstant : Bool)
  | optional
  deriving DecidableEq, Repr

/-- Whether a variable may do without an initial value. -/
def Initials.allowMissing : Initials → (isPattern : Bool) → Bool
  | .required isConstant, isPattern => !(isConstant || isPattern)
  | .optional, _ => true

/-- A variable with its initial value. -/
structure Variable where
  node : Node
  isPattern : Bool
  hasInitial : Bool

/-- Read a variable with its initial value. -/
def declarator (g : Grammar) (declaration : Declaration) : Reading Variable := do
  let start ← here
  let isPattern := (← isPunct "[") || (← isPunct "\x7b")
  let pattern ← g (.binding declaration)
  if ← isTyped then
    let _ ← takePunct? "!"
  typeNote g
  let initial ← if ← takePunct? "=" then pure [← g .assignment] else pure []
  return ⟨← group start (pattern :: initial), isPattern, !initial.isEmpty⟩

/-- Require the initial values that variables need. -/
def checkInitials (initials : Initials) (found : List Variable) : Reading Unit := do
  if !(← context).ambient then
    require (found.all fun v => v.hasInitial || initials.allowMissing v.isPattern)

/-- Read the variables of a declaration. -/
def variableList (g : Grammar) (declaration : Declaration) : Reading (List Variable) :=
  commaSeparated (declarator g declaration)

/-- Read a declaration of variables behind its keyword. -/
def variableStatement (g : Grammar) (start : Nat) (declaration : Declaration)
    (isConstant : Bool) : Reading Node := do
  let found ← enclosed (variableList g declaration)
  checkInitials (.required isConstant) found
  semicolon
  group start (found.map Variable.node)

/-- Whether a name follows the current word on its line, so that the word declares it. -/
def nameFollows (excluded : List String) : Reading Bool := do
  let behind ← following
  match nameOf? (← context) behind.token with
  | some name => return !behind.newlineBefore && name ∉ excluded
  | none => return false

/-- Whether a resource is declared here. -/
def isResource : Reading Bool := do
  if ← isWord "using" then nameFollows ["of"]
  else if (← isWord "await") && (← context).awaits then
    lookahead do
      advance
      if !(← isWord "using") || (← newlineBefore) then return false
      nameFollows ["of"]
  else return false

/-- Go past the words that declare a resource. -/
def takeResourceWords : Reading Unit := do
  let _ ← takeWord? "await"
  takeWord "using"

/-- Whether `let` declares something here. -/
def isLetDeclaration (isSingle : Bool) : Reading Bool := do
  let behind := (← following).token
  match behind with
  | .punct "[" => return true
  | .punct "\x7b" => return !isSingle
  | .name word escaped =>
    return !isSingle && (escaped || (word ≠ "in" && word ≠ "instanceof"))
  | _ => return false

/-- Read a statement that begins with `let`, which is a name where it declares nothing. -/
def letStatement (g : Grammar) (isSingle : Bool) : Reading Node := do
  let start ← here
  if ← isLetDeclaration isSingle then
    require !isSingle
    takeWord "let"
    variableStatement g start .lexical false
  else expressionStatement g

/-! ## Loops and choices -/

/-- Read one branch of a choice. A function that is a branch declares nothing. -/
def branch (g : Grammar) : Reading Node := do
  if ← isWord "function" then
    require ((← following).token ≠ .punct "*")
    functionDeclaration g .silent true
  else g (.statement true)

def ifStatement (g : Grammar) : Reading Node := do
  let start ← here
  takeWord "if"
  let test ← condition g
  let first ← branch g
  let second ← if ← takeWord? "else" then pure [← branch g] else pure []
  group start (test :: first :: second)

def doStatement (g : Grammar) : Reading Node := do
  let start ← here
  takeWord "do"
  let body ← g (.statement true)
  takeWord "while"
  let test ← condition g
  let _ ← takePunct? ";"
  group start [body, test]

/-- Read a statement that is a keyword, a condition and a statement. -/
def guardedStatement (g : Grammar) : Reading Node := do
  let start ← here
  advance
  let test ← condition g
  let body ← g (.statement true)
  group start [test, body]

/-- Read an expression up to a punctuator, if there is one. -/
def optionalExpression (g : Grammar) (close : String) : Reading (List Node) := do
  let parts ← if ← isPunct close then pure [] else pure [← enclosed (g .expression)]
  takePunct close
  return parts

/-- Read the condition and the step of a loop behind its start. -/
def countedLoop (g : Grammar) (isAsync : Bool) (first : List Node) : Reading (List Node) := do
  require !isAsync
  takePunct ";"
  let test ← optionalExpression g ";"
  let step ← optionalExpression g ")"
  return first ++ test ++ step

/-- Read what a loop runs over, if it does run over something. -/
def loopSource? (g : Grammar) (isAsync : Bool) : Reading (Option (List Node)) := do
  if ← takeWord? "of" then
    let source ← enclosed (g .assignment)
    takePunct ")"
    return some [source]
  else if ← isWord "in" then
    require !isAsync
    advance
    let source ← enclosed (g .expression)
    takePunct ")"
    return some [source]
  else return none

/-- Read the head of a loop that declares variables, behind the words that declare them. -/
def declaringLoop (g : Grammar) (isAsync : Bool) (declaration : Declaration)
    (isConstant : Bool) : Reading (List Node) := do
  let found ← enclosed (within (fun c => { c with inOperator := false })
    (variableList g declaration))
  let nodes := found.map Variable.node
  match ← loopSource? g isAsync with
  | some source => return nodes ++ source
  | none =>
    checkInitials (.required isConstant) found
    countedLoop g isAsync nodes

/-- Read the head of a loop that begins with an expression. -/
def expressionLoop (g : Grammar) (isAsync : Bool) : Reading (List Node) := do
  let isAsyncName := (← isWord "async") && (← following).token = .name "of" false
  let first ← enclosed (within (fun c => { c with inOperator := false }) (g .expression))
  if (← isWord "of") || (← isWord "in") then
    require (isAsync || !(isAsyncName && (← isWord "of")))
    asTarget first
  match ← loopSource? g isAsync with
  | some source => return first :: source
  | none => countedLoop g isAsync [first]

/-- Read the head of a loop behind its opening parenthesis. -/
def loopHead (g : Grammar) (isAsync : Bool) : Reading (List Node) := do
  if ← isPunct ";" then countedLoop g isAsync []
  else if ← takeWord? "var" then declaringLoop g isAsync .hoisted false
  else if ← takeWord? "const" then declaringLoop g isAsync .lexical true
  else if (← isWord "let") && (← isLetDeclaration false) then
    advance
    declaringLoop g isAsync .lexical false
  else if ← isResource then
    takeResourceWords
    declaringLoop g isAsync .lexical true
  else expressionLoop g isAsync

/-- Read a loop with a head. The scope of what it declares is the whole loop. -/
def forStatement (g : Grammar) : Reading Node := inScope false do
  takeWord "for"
  let isAsync ← takeWord? "await"
  require (!isAsync || (← context).awaits)
  takePunct "("
  let head ← loopHead g isAsync
  let body ← g (.statement true)
  return head ++ [body]

/-- Read a case with its statements. -/
def switchCase (g : Grammar) : Reading Node := do
  let start ← here
  let test ←
    if ← takeWord? "default" then pure []
    else
      takeWord "case"
      pure [← enclosed (g .expression)]
  takePunct ":"
  let body ← many do
    if (← isPunct "\x7d") || (← isWord "case") || (← isWord "default") then return none
    else some <$> g (.statement false)
  group start (test ++ body)

def switchStatement (g : Grammar) : Reading Node := do
  let start ← here
  takeWord "switch"
  let value ← condition g
  let cases ← inScope false do
    takePunct "\x7b"
    let cases ← many do
      if ← isPunct "\x7d" then return none else some <$> switchCase g
    takePunct "\x7d"
    return cases
  group start [value, cases]

/-! ## Leaving -/

/-- Read a keyword that leaves a statement, with its label. -/
def jumpStatement : Reading Node := do
  let start ← here
  advance
  if (← isName) && !(← newlineBefore) then advance
  semicolon
  group start []

def returnStatement (g : Grammar) : Reading Node := do
  let start ← here
  require (← context).returns
  takeWord "return"
  let value ← if ← canEnd then pure [] else pure [← enclosed (g .expression)]
  semicolon
  group start value

def throwStatement (g : Grammar) : Reading Node := do
  let start ← here
  takeWord "throw"
  require !(← newlineBefore)
  let value ← enclosed (g .expression)
  semicolon
  group start [value]

/-- Read what is done with a thrown value, which is declared for that alone. -/
def catchClause (g : Grammar) : Reading Node := inScope false do
  takeWord "catch"
  let parameter ←
    if ← takePunct? "(" then
      let pattern ← g (.binding .lexical)
      typeNote g
      takePunct ")"
      pure [pattern]
    else pure []
  let body ← block g
  return parameter ++ [body]

def tryStatement (g : Grammar) : Reading Node := do
  let start ← here
  takeWord "try"
  let body ← block g
  let handler ← if ← isWord "catch" then pure [← catchClause g] else pure []
  let final ← if ← takeWord? "finally" then pure [← block g] else pure []
  require !(handler.isEmpty && final.isEmpty)
  group start (body :: handler ++ final)

end MessageCatalog.Script.Reading
