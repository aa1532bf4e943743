import MessageCatalog.Script.Node
import MessageCatalog.Script.Token

/-!
# Reading syntax

A reading step looks at the current token, moves on, and may refuse the script. The grammar is a
function from phrases to steps; the steps for a phrase are given the whole grammar for the phrases
inside it, so each of them can be written on its own.
-/

namespace MessageCatalog.Script

/-- What the syntax around a token allows. -/
structure Context where
  language : Language := {}
  /-- The number of characters of the script. -/
  size : Nat := 0
  /-- Whether `in` is an operator. -/
  inOperator : Bool := true
  /-- Whether `await` is an operator. -/
  awaits : Bool := false
  /-- Whether `yield` is an operator. -/
  yields : Bool := false
  /-- Whether a function can be left with `return`. -/
  returns : Bool := false
  /-- Whether things are only declared. -/
  ambient : Bool := false
  /-- Whether a decorator is read. -/
  decorator : Bool := false
  /-- Whether an arrow function may give the type of its result. -/
  resultTypes : Bool := true
  /-- Whether a type may be followed by a condition on it. -/
  conditionalTypes : Bool := true
  deriving Repr, Inhabited

/-- The names declared so far in a scope that is being read. -/
structure Frame where
  /-- Whether hoisted names come to rest here. -/
  isFunction : Bool
  names : List String := []
  deriving Repr, Inhabited

/-- How far the reading is, and what it has to remember. -/
structure State where
  lexeme : Lexeme
  /-- Where the token before the current one ends. -/
  lastStop : Nat := 0
  /-- The scopes around the current token, innermost first. -/
  frames : List Frame := []
  /-- The shorthand members with a default that are no part of a target yet. -/
  pendingDefaults : List Range := []
  /-- The places of parentheses that hold no parameters. -/
  noParameters : List Nat := []
  /-- The names that the module exports. -/
  exported : List String := []
  deriving Repr, Inhabited

/-- The place of a token that makes no sense where it stands. -/
structure Refusal where
  offset : Nat
  deriving DecidableEq, Repr, Inhabited

def Refusal.message (r : Refusal) : String :=
  "unexpected token at character " ++ toString r.offset

/-- A step of reading. -/
abbrev Reading := ReaderT Context (ExceptT Refusal (StateM State))

/-- How the names of a binding are declared. -/
inductive Declaration where
  | hoisted
  | lexical
  /-- The name is not that of a value. -/
  | silent
  deriving DecidableEq, Repr

/-- What the grammar can be asked to read. -/
inductive Phrase where
  | expression
  | assignment
  /-- An expression whose operators bind more tightly than this. -/
  | binary (above : Nat)
  | unary
  | leftHand
  /-- What `new` is applied to. -/
  | constructor
  | binding (declaration : Declaration)
  /-- A statement, which may stand where no declaration may. -/
  | statement (isSingle : Bool)
  | type
  | element
  deriving DecidableEq, Repr

/-- How each phrase is read. -/
abbrev Grammar := Phrase → Reading Node

namespace Reading

/-! ## Tokens -/

/-- What the syntax around the current token allows. -/
def context : Reading Context := read

def lexeme : Reading Lexeme := do return (← get).lexeme

def token : Reading Token := do return (← get).lexeme.token

/-- Where the current token begins. -/
def here : Reading Nat := do return (← get).lexeme.start

def newlineBefore : Reading Bool := do return (← get).lexeme.newlineBefore

/-- Refuse the current token. -/
def refuse {α : Type} : Reading α := do throw ⟨← here⟩

def require (condition : Bool) : Reading Unit := do
  if !condition then refuse

/-- Go to the next token. -/
def advance : Reading Unit := do
  let isModule := (← read).language.isModule
  modify fun s =>
    { s with lexeme := nextLexeme isModule s.lexeme.after, lastStop := s.lexeme.stop }

/-- Read the current token in another way. -/
def again (read : List Char → Token × Nat) : Reading Unit :=
  modify fun s => { s with lexeme := s.lexeme.again read }

def isPunct (p : String) : Reading Bool := do return (← token) = .punct p

def isWord (w : String) : Reading Bool := do return (← token) = .name w false

/-- Go past a punctuator if it stands here. -/
def takePunct? (p : String) : Reading Bool := do
  if ← isPunct p then
    advance
    return true
  else return false

def takeWord? (w : String) : Reading Bool := do
  if ← isWord w then
    advance
    return true
  else return false

def takePunct (p : String) : Reading Unit := do require (← takePunct? p)

def takeWord (w : String) : Reading Unit := do require (← takeWord? w)

/-- Go past an angle that opens a list of types, also where two of them stand together. -/
def takeOpeningAngle : Reading Unit := do
  match ← token with
  | .punct p =>
    require (p.toList.head? = some '<')
    again fun _ => (.punct "<", 1)
    advance
  | _ => refuse

/-! ## Looking ahead -/

/-- Look at what follows without moving. -/
def lookahead {α : Type} (body : Reading α) : Reading α := do
  let saved ← get
  let a ← body
  set saved
  return a

/-- Take a step, or none of it when it refuses. -/
def attempt {α : Type} (body : Reading α) : Reading (Option α) := do
  let saved ← get
  tryCatch (some <$> body) fun _ => do
    modify fun s => { saved with noParameters := s.noParameters }
    return none

/-- Look at the token behind the current one. -/
def following : Reading Lexeme := lookahead do
  advance
  lexeme

/-! ## Repetition -/

def manyUpTo {α : Type} (step : Reading (Option α)) : (count : Nat) → Reading (List α)
  | 0 => return []
  | count + 1 => do
    match ← step with
    | none => return []
    | some a => return a :: (← manyUpTo step count)

/-- Repeat a step until it gives nothing. A script has no more phrases than characters. -/
def many {α : Type} (step : Reading (Option α)) : Reading (List α) := do
  manyUpTo step ((← read).size + 1)

/-- One phrase or more with commas between them. -/
def commaSeparated {α : Type} (item : Reading α) : Reading (List α) := do
  let first ← item
  let more ← many do
    if ← takePunct? "," then some <$> item else return none
  return first :: more

/-- Phrases up to a closing punctuator, with commas between them and perhaps behind the last;
whether there is one behind the last. -/
def listUntil {α : Type} (close : String) (item : Reading α) : Reading (List α × Bool) := do
  let items ← many do
    if ← isPunct close then return none
    let a ← item
    if !(← isPunct close) then
      takePunct ","
      return some (a, true)
    return some (a, false)
  takePunct close
  return (items.map Prod.fst, items.getLast?.any Prod.snd)

/-- Take a step in a changed context. -/
def within {α : Type} (change : Context → Context) (body : Reading α) : Reading α :=
  withReader change body

/-- Take a step where `in` is an operator again. -/
def enclosed {α : Type} (body : Reading α) : Reading α :=
  within (fun c => { c with inOperator := true, decorator := false, resultTypes := true,
                            conditionalTypes := true }) body

/-! ## Nodes -/

/-- The range from a place to the end of the token read last. -/
def rangeFrom (start : Nat) : Reading Range := do return ⟨start, (← get).lastStop⟩

def group (start : Nat) (parts : List Node) : Reading Node := do
  return .group (← rangeFrom start) parts

/-! ## Scopes -/

def openScope (isFunction : Bool) : Reading Unit :=
  modify fun s => { s with frames := ⟨isFunction, []⟩ :: s.frames }

/-- Leave the innermost scope; the names declared in it. -/
def closeScope : Reading (List String) := do
  let s ← get
  set { s with frames := s.frames.drop 1 }
  return (s.frames.headD default).names

/-- Read what is in a scope of its own. -/
def inScope (isFunction : Bool) (body : Reading (List Node)) : Reading Node := do
  let start ← here
  openScope isFunction
  let parts ← body
  let names ← closeScope
  return .scope (← rangeFrom start) names parts

/-- Add a name to the innermost frame that takes it. -/
def declareIn (takes : Frame → Bool) (name : String) : List Frame → List Frame
  | [] => []
  | frame :: frames =>
    if takes frame then { frame with names := name :: frame.names } :: frames
    else frame :: declareIn takes name frames

/-- Declare a name. -/
def declare (declaration : Declaration) (name : String) : Reading Unit :=
  match declaration with
  | .hoisted => modify fun s => { s with frames := declareIn Frame.isFunction name s.frames }
  | .lexical => modify fun s => { s with frames := declareIn (fun _ => true) name s.frames }
  | .silent => return

/-! ## Names -/

/-- The words that are never names. -/
def reserved : List String := [
  "break", "case", "catch", "class", "const", "continue", "debugger", "default", "delete", "do",
  "else", "enum", "export", "extends", "false", "finally", "for", "function", "if", "import", "in",
  "instanceof", "new", "null", "return", "super", "switch", "this", "throw", "true", "try",
  "typeof", "var", "void", "while", "with"]

/-- The name that a token is in a context, if it is one. -/
def nameOf? (c : Context) : Token → Option String
  | .name value _ =>
    if value ∈ reserved then none
    else if value = "await" && c.awaits then none
    else if value = "yield" && c.yields then none
    else some value
  | _ => none

/-- Whether the current token is a name. -/
def isName : Reading Bool := do return (nameOf? (← read) (← token)).isSome

/-- Whether the current token is a name or a keyword. -/
def isAnyWord : Reading Bool := do
  match ← token with
  | .name _ _ => return true
  | _ => return false

/-- Go past a name. -/
def takeName : Reading String := do
  match nameOf? (← read) (← token) with
  | some name =>
    advance
    return name
  | none => refuse

/-- Go past a name or a keyword. -/
def takeAnyWord : Reading String := do
  match ← token with
  | .name value _ =>
    advance
    return value
  | _ => refuse

/-- Read a name that is used as an expression. -/
def identifier : Reading Node := do
  let start ← here
  let _ ← takeName
  return .identifier (← rangeFrom start)

/-- Read a name and declare it. -/
def declaredName (declaration : Declaration) : Reading Unit := do
  declare declaration (← takeName)

/-! ## Ends of statements -/

/-- Whether a statement may end before the current token. -/
def canEnd : Reading Bool := do
  return (← isPunct ";") || (← isPunct "\x7d") || (← token) = .endOfInput || (← newlineBefore)

/-- The end of a statement: a semicolon, or a place where one may be left out. -/
def semicolon : Reading Unit := do
  if ← takePunct? ";" then return
  require (← canEnd)

end Reading

end MessageCatalog.Script
