import MessageCatalog.Script.Declaration

/-!
# The grammar

All phrases together. A phrase is read with an allowance for the phrases inside it, which falls by
one with each level and is far above what a script of its length can use.
-/

namespace MessageCatalog.Script

namespace Reading

/-- Read a declaration with decorators before it. -/
def decoratedStatement (g : Grammar) : Reading Node := do
  let before ← decorators g
  if ← isWord "export" then exportDeclaration g before
  else classDeclaration g before true

/-- Read a statement that begins with `import`. -/
def importStatement (g : Grammar) : Reading Node := do
  match (← following).token with
  | .punct "(" | .punct "." => expressionStatement g
  | _ => importDeclaration g

/-- Read a statement that begins with `const`. -/
def constStatement (g : Grammar) (isSingle : Bool) : Reading Node := do
  let start ← here
  require !isSingle
  takeWord "const"
  if (← isTyped) && (← isWord "enum") then enumDeclaration g
  else variableStatement g start .lexical true

/-- Read a statement whose first word is no keyword of a statement. -/
def otherStatement (g : Grammar) (isSingle : Bool) (word : String) : Reading Node := do
  let start ← here
  if ← beginsTypedDeclaration word then typedDeclaration g word
  else if ← isAsyncFunction then
    require !isSingle
    functionDeclaration g .lexical true
  else if ← isResource then
    takeResourceWords
    variableStatement g start .lexical true
  else expressionStatement g

/-- Read a statement that begins with a word. -/
def wordStatement (g : Grammar) (isSingle : Bool) (word : String) : Reading Node := do
  let start ← here
  match word with
  | "if" => ifStatement g
  | "for" => forStatement g
  | "while" | "with" => guardedStatement g
  | "do" => doStatement g
  | "switch" => switchStatement g
  | "try" => tryStatement g
  | "throw" => throwStatement g
  | "return" => returnStatement g
  | "break" | "continue" => jumpStatement
  | "debugger" =>
    advance
    semicolon
    group start []
  | "var" =>
    advance
    variableStatement g start .hoisted false
  | "let" => letStatement g isSingle
  | "const" => constStatement g isSingle
  | "function" =>
    require (!isSingle || (← following).token ≠ .punct "*")
    functionDeclaration g .lexical true
  | "class" =>
    require !isSingle
    classDeclaration g [] true
  | "import" => importStatement g
  | "export" => exportDeclaration g []
  | _ => otherStatement g isSingle word

/-- Read a statement. -/
def statement (g : Grammar) (isSingle : Bool) : Reading Node := do
  let start ← here
  match ← token with
  | .punct "\x7b" => block g
  | .punct ";" =>
    advance
    group start []
  | .punct "@" => decoratedStatement g
  | .name word false => wordStatement g isSingle word
  | _ => expressionStatement g

end Reading

/-- Read a phrase, with a grammar for the phrases inside it. -/
def readPhrase (g : Grammar) : Grammar
  | .expression => Reading.expression g
  | .assignment => Reading.assignment g
  | .binary above => Reading.binary g above
  | .unary => Reading.unary g
  | .leftHand => Reading.leftHand g
  | .constructor => Reading.constructor g
  | .binding declaration => Reading.binding g declaration
  | .statement isSingle => Reading.statement g isSingle
  | .type => Reading.type g
  | .element => Reading.element g

/-- The grammar for phrases that are nested at most this deep. -/
def grammar : (depth : Nat) → Grammar
  | 0 => fun _ => Reading.refuse
  | depth + 1 => readPhrase (grammar depth)

/-- How deep the phrases of a script with so many characters can be nested: a character opens at
most a handful of them. -/
def maxDepth (size : Nat) : Nat := 16 * size + 64

/-- Read all statements of a script. -/
def program (g : Grammar) : Reading Node := do
  let node ← Reading.inScope true <| Reading.many do
    if (← Reading.token) = .endOfInput then return none
    else some <$> g (.statement false)
  Reading.require (← get).pendingDefaults.isEmpty
  return node

/-- The place behind a byte order mark and a line for the loader of the script. -/
def firstPlace (s : Source) : Place :=
  let marked : Place :=
    match s with
    | '\uFEFF' :: rest => ⟨1, rest⟩
    | _ => ⟨0, s⟩
  if Text.startsWith ['#', '!'] marked.rest then
    marked.skip (marked.rest.takeWhile fun c => !Quoted.isLineEnd c).length
  else marked

/-- Read a script. -/
def read (language : Language) (s : Source) : Except Refusal Node :=
  let context : Context :=
    { language, size := s.length, awaits := language.isModule, ambient := language.ambient }
  let state : State := { lexeme := nextLexeme language.isModule (firstPlace s) }
  (((program (grammar (maxDepth s.length))).run context).run state).1

end MessageCatalog.Script
