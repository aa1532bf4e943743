import MessageCatalog.Script.Function

/-!
# Members of objects and classes
-/

namespace MessageCatalog.Script.Reading

/-- Whether a token can begin a key. -/
def beginsKey : Token → Bool
  | .name _ _ | .string _ | .number | .privateName | .punct "[" => true
  | _ => false

/-- Whether the current token is a word and the member it belongs to follows. -/
def isModifier (word : String) (sameLine orStar : Bool) : Reading Bool := do
  let behind ← following
  return (← isWord word) && (beginsKey behind.token || (orStar && behind.token = .punct "*")) &&
    !(sameLine && behind.newlineBefore)

/-! ## Objects -/

/-- Read a member whose key is read already: a method, a value, or a name that is its own value. -/
def objectMemberRest (g : Grammar) (start : Nat) (name : Option String) (key : List Node) :
    Reading Node := do
  if (← isPunct "(") || (← isPunct "<") then
    let method ← callable g false false
    group start (key ++ [method])
  else if ← takePunct? ":" then
    let value ← enclosed (g .assignment)
    return .property (← rangeFrom start) key value
  else
    require name.isSome
    let identifier : Node := .identifier (← rangeFrom start)
    if ← takePunct? "=" then
      let initial ← enclosed (g .assignment)
      let range ← rangeFrom start
      modify fun s => { s with pendingDefaults := range :: s.pendingDefaults }
      return .shorthand range identifier (some initial)
    else return .shorthand (← rangeFrom start) identifier none

/-- Read a member of an object. -/
def objectMember (g : Grammar) : Reading Node := do
  let start ← here
  if ← takePunct? "..." then
    let inner ← enclosed (g .assignment)
    return .spread (← rangeFrom start) inner
  else if (← isModifier "get" false false) || (← isModifier "set" false false) then
    advance
    let (key, _) ← memberKey g false
    let body ← callable g false false
    group start (key ++ [body])
  else if (← isModifier "async" true true) || (← isPunct "*") then
    let isAsync ← takeWord? "async"
    let isGenerator ← takePunct? "*"
    let (key, _) ← memberKey g false
    let body ← callable g isAsync isGenerator
    group start (key ++ [body])
  else
    let name := nameOf? (← context) (← token)
    let (key, _) ← memberKey g false
    objectMemberRest g start name key

/-- Read an object. -/
def objectLiteral (g : Grammar) : Reading Node := do
  let start ← here
  takePunct "\x7b"
  let (members, trailingComma) ← enclosed (listUntil "\x7d" (objectMember g))
  return .object (← rangeFrom start) members trailingComma

/-! ## Classes -/

/-- The words before a member of a class; the last ones need types. -/
def memberModifiers : List String := ["static", "accessor"]

def typedMemberModifiers : List String :=
  ["public", "private", "protected", "readonly", "abstract", "override", "declare"]

/-- What stands before the key of a member. -/
structure MemberKind where
  isStatic : Bool := false
  isAccessor : Bool := false
  isAsync : Bool := false
  isGenerator : Bool := false
  deriving Repr, Inhabited

/-- Go past a word before a member, if the member follows it. -/
def memberModifier? : Reading (Option String) := do
  match ← token with
  | .name word false =>
    let isKnown := word ∈ memberModifiers || ((← isTyped) && word ∈ typedMemberModifiers)
    if isKnown && (← isModifier word (word ≠ "static") true) then
      advance
      return some word
    else return none
  | _ => return none

/-- Go past everything before the key of a member. -/
def memberKind : Reading MemberKind := do
  let words ← many memberModifier?
  let isAccessor := (← isModifier "get" false false) || (← isModifier "set" false false)
  let isAsync ← isModifier "async" true true
  if isAccessor || isAsync then advance
  let isGenerator ← if isAccessor then pure false else takePunct? "*"
  return { isStatic := "static" ∈ words, isAccessor, isAsync, isGenerator }

/-- Read a method behind its key. The constructor is a plain method, and no static member is named
`prototype`. -/
def methodRest (g : Grammar) (kind : MemberKind) (name : Option String) : Reading Node := do
  let special := kind.isAccessor || kind.isAsync || kind.isGenerator
  require !(name = some "constructor" && !kind.isStatic && special)
  require !(name = some "prototype" && kind.isStatic)
  callable g kind.isAsync kind.isGenerator

/-- Read a field behind its key. -/
def fieldRest (g : Grammar) (kind : MemberKind) (name : Option String) : Reading (List Node) := do
  require (name ≠ some "constructor" && !(name = some "prototype" && kind.isStatic))
  if ← isTyped then
    if !(← takePunct? "?") then
      let _ ← takePunct? "!"
  typeNote g
  let initial ← within (functionContext false false) (initialValue g)
  semicolon
  return initial

/-- Whether an index with its type stands here instead of a member. -/
def isIndexSignature : Reading Bool := do
  if !((← isTyped) && (← isPunct "[")) then return false
  lookahead do
    advance
    if !(← isName) then return false
    advance
    isPunct ":"

/-- Whether a block that runs with the class begins here. -/
def isStaticBlock : Reading Bool := do
  return (← isWord "static") && (← following).token = .punct "\x7b"

/-- Read a block that runs with the class. -/
def staticBlock (g : Grammar) : Reading Node := do
  takeWord "static"
  within (fun c => { c with awaits := true, yields := false, returns := false })
    (enclosed (inScope true (statementsInBraces g)))

/-- Read a member of a class. -/
def classMember (g : Grammar) : Reading Node := do
  let start ← here
  if ← takePunct? ";" then group start []
  else
    let before ← decorators g
    if ← isStaticBlock then
      let block ← staticBlock g
      group start (before ++ [block])
    else
      let kind ← memberKind
      if ← isIndexSignature then
        bracketedKey g
        typeNote g
        typeMemberEnd
        group start before
      else
        let (key, name) ← memberKey g true
        if (← isTyped) && (← isPunct "?") && (← following).token = .punct "(" then advance
        if (← isPunct "(") || (← isPunct "<") || kind.isAccessor || kind.isAsync ||
            kind.isGenerator then
          let method ← methodRest g kind name
          group start (before ++ key ++ [method])
        else
          let initial ← fieldRest g kind name
          group start (before ++ key ++ initial)

/-- Read what a class extends and, with types, go past what it implements. -/
def classHeritage (g : Grammar) : Reading (List Node) := do
  let parent ← if ← takeWord? "extends" then pure [← g .leftHand] else pure []
  if !parent.isEmpty && (← isTyped) then typeArguments? g
  if ← isTyped then
    if ← takeWord? "implements" then
      let _ ← commaSeparated (g .type)
  return parent

/-- Read a class behind its name. -/
def classRest (g : Grammar) : Reading (List Node) := enclosed do
  typeParameters g
  let parent ← classHeritage g
  takePunct "\x7b"
  let members ← many do
    if ← isPunct "\x7d" then return none
    else some <$> classMember g
  takePunct "\x7d"
  return parent ++ members

/-- Whether the current token names a class. -/
def isClassName : Reading Bool := do
  return (← isName) && !((← isTyped) && (← isWord "implements"))

/-- Read a class that is an expression. Its name is declared inside it alone. -/
def classExpression (g : Grammar) : Reading Node := do
  let start ← here
  let before ← decorators g
  takeWord "class"
  let body ← inScope false do
    if ← isClassName then declaredName .lexical
    classRest g
  group start (before ++ [body])

/-- Read a class that is a declaration, behind its decorators. -/
def classDeclaration (g : Grammar) (before : List Node) (needsName : Bool) : Reading Node := do
  let start ← here
  let _ ← takeWord? "abstract"
  takeWord "class"
  if needsName || (← isClassName) then declaredName .lexical
  let body ← classRest g
  group start (before ++ body)

end MessageCatalog.Script.Reading
