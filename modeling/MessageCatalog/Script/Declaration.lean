import MessageCatalog.Script.Statement

/-!
# Declarations of types and modules

Declarations that only scripts with types have, and what a module takes from other modules and gives
to them.
-/

namespace MessageCatalog.Script.Reading

/-! ## Types -/

/-- Go past the declaration of an interface, which declares no value. -/
def interfaceDeclaration (g : Grammar) : Reading Node := do
  let start ← here
  takeWord "interface"
  let _ ← takeName
  typeParameters g
  if ← takeWord? "extends" then
    let _ ← commaSeparated (g .type)
  objectType g
  group start []

/-- Go past the declaration of a name for a type. -/
def typeDeclaration (g : Grammar) : Reading Node := do
  let start ← here
  takeWord "type"
  let _ ← takeName
  typeParameters g
  takePunct "="
  let _ ← enclosed (g .type)
  semicolon
  group start []

/-- Read a member of an enumeration. -/
def enumMember (g : Grammar) : Reading Node := do
  let start ← here
  let (key, name) ← memberKey g false
  match name with
  | some name => declare .lexical name
  | none => require !key.isEmpty
  let initial ← initialValue g
  group start initial

/-- Read an enumeration, whose members see each other. -/
def enumDeclaration (g : Grammar) : Reading Node := do
  let start ← here
  takeWord "enum"
  declaredName .lexical
  let body ← inScope false do
    takePunct "\x7b"
    let (members, _) ← enclosed (listUntil "\x7d" (enumMember g))
    return members
  group start [body]

/-- Read a namespace or the declaration of a module. -/
def namespaceDeclaration (g : Grammar) : Reading Node := do
  let start ← here
  let isGlobal ← isWord "global"
  advance
  let isModule := (← token) matches .string _
  if isModule then advance
  else if !isGlobal then
    declaredName .lexical
    let _ ← many do
      if ← takePunct? "." then some <$> takeAnyWord else return none
  if !isModule || (← isPunct "\x7b") then
    let body ← inScope true (statementsInBraces g)
    group start [body]
  else
    semicolon
    group start []

/-- The words that can follow `declare`. -/
def declarable : List String := [
  "var", "let", "const", "function", "class", "enum", "interface", "type", "namespace", "module",
  "abstract", "async", "global", "import", "using"]

/-- Whether the current word begins a declaration that needs types. -/
def beginsTypedDeclaration (word : String) : Reading Bool := do
  if !(← isTyped) then return false
  let behind ← following
  if behind.newlineBefore then return false
  match word, behind.token with
  | "interface", .name w _ | "type", .name w _ | "namespace", .name w _ | "module", .name w _ =>
    return w ∉ reserved
  | "module", .string _ => return true
  | "global", .punct "\x7b" => return true
  | "declare", .name w _ => return w ∈ declarable
  | "abstract", .name w _ => return w = "class"
  | "enum", .name _ _ => return true
  | _, _ => return false

/-- Read a declaration that needs types. -/
def typedDeclaration (g : Grammar) (word : String) : Reading Node := do
  let start ← here
  match word with
  | "interface" => interfaceDeclaration g
  | "type" => typeDeclaration g
  | "enum" => enumDeclaration g
  | "declare" =>
    advance
    let inner ← within (fun c => { c with ambient := true }) (g (.statement false))
    group start [inner]
  | "abstract" => classDeclaration g [] true
  | _ => namespaceDeclaration g

/-! ## Imports -/

/-- The name of something that a module gives away; whether it can be a name of a script. -/
def moduleName : Reading (String × Bool) := do
  match ← token with
  | .string value =>
    advance
    return (value, false)
  | t =>
    let isName := (nameOf? (← context) t).isSome
    return (← takeAnyWord, isName)

/-- Go past the path of a module and the notes on how it is loaded. -/
def modulePath (g : Grammar) : Reading Unit := do
  require ((← token) matches .string _)
  advance
  let hasNotes := (← isWord "with") || ((← isWord "assert") && !(← newlineBefore))
  if hasNotes then
    advance
    takePunct "\x7b"
    let _ ← listUntil "\x7d" do
      let (key, _) ← memberKey g false
      require key.isEmpty
      takePunct ":"
      require ((← token) matches .string _)
      advance

/-- Whether `type` stands before the name of an item. -/
def isTypeItem : Reading Bool := do
  if !((← isTyped) && (← isWord "type")) then return false
  match (← following).token with
  | .string _ => return true
  | .name "as" _ => lookahead do
    advance
    advance
    let isLast := (← isPunct ",") || (← isPunct "\x7d")
    if !(← isWord "as") then return isLast
    advance
    return !((← isPunct ",") || (← isPunct "\x7d"))
  | .name _ _ => return true
  | _ => return false

/-- Read an item of an import, and declare its name here. -/
def importItem (declaration : Declaration) : Reading Unit := do
  let isType ← isTypeItem
  require !(isType && declaration matches .silent)
  if isType then advance
  let declaration := if isType then .silent else declaration
  let (name, isName) ← moduleName
  if ← takeWord? "as" then declaredName declaration
  else
    require isName
    declare declaration name

/-- Go past what is imported beside the default: everything under a name, or single items. -/
def importItems (declaration : Declaration) : Reading Unit := do
  if ← takePunct? "*" then
    takeWord "as"
    declaredName declaration
  else
    takePunct "\x7b"
    let _ ← listUntil "\x7d" (importItem declaration)

/-- Whether a word stands before what is imported, and is not itself imported. -/
def isImportPhase (word : String) : Reading Bool := do
  if !(← isWord word) then return false
  match (← following).token with
  | .punct "*" => return word ≠ "source"
  | .punct "\x7b" => return word = "type"
  | .name "from" _ => lookahead do
    advance
    advance
    isWord "from"
  | .name _ _ => return word ≠ "defer"
  | _ => return false

/-- Read an import. -/
def importDeclaration (g : Grammar) : Reading Node := do
  let start ← here
  takeWord "import"
  if (← token) matches .string _ then
    modulePath g
    semicolon
    group start []
  else
    let isType := (← isTyped) && (← isImportPhase "type")
    if isType || (← isImportPhase "defer") || (← isImportPhase "source") then advance
    let declaration := if isType then .silent else .lexical
    if ← isName then
      declaredName declaration
      if ← isTyped <&&> takePunct? "=" then
        let _ ← g .expression
        semicolon
        return ← group start []
      if ← takePunct? "," then importItems declaration
    else importItems declaration
    takeWord "from"
    modulePath g
    semicolon
    group start []

/-! ## Exports -/

/-- Record a name that the module exports, which must be new. -/
def export? (name : String) : Reading Unit := do
  if !(← isTyped) then
    require (name ∉ (← get).exported)
    modify fun s => { s with exported := name :: s.exported }

/-- Read a declaration and record the names that it declares. -/
def exportDeclared (body : Reading Node) : Reading Node := do
  let before := ((← get).frames.headD default).names.length
  let node ← body
  let names := ((← get).frames.headD default).names
  for name in (names.take (names.length - before)).reverse do
    export? name
  return node

/-- Read an item of an export: its name outside, and whether its name here can be one. -/
def exportItem : Reading (String × Bool) := do
  if ← isTypeItem then advance
  let (name, isName) ← moduleName
  if ← takeWord? "as" then return ((← moduleName).1, isName)
  else return (name, isName)

/-- Read the items of an export and the module that they are taken from. -/
def exportItems (g : Grammar) : Reading Unit := do
  takePunct "\x7b"
  let (items, _) ← listUntil "\x7d" exportItem
  for (name, _) in items do
    export? name
  if ← takeWord? "from" then modulePath g
  else require (items.all Prod.snd)
  semicolon

/-- Go past an export of everything in another module. -/
def exportAll (g : Grammar) : Reading Unit := do
  takePunct "*"
  if ← takeWord? "as" then export? (← moduleName).1
  takeWord "from"
  modulePath g
  semicolon

/-- Read what a module exports without a name. -/
def exportDefault (g : Grammar) : Reading Node := do
  export? "default"
  let start ← here
  let before ← decorators g
  let behind := (← following).token
  if (← isWord "function") || (← isAsyncFunction) then functionDeclaration g .lexical false
  else if (← isWord "class") || ((← isTyped) && (← isWord "abstract") &&
      behind = .name "class" false) then
    classDeclaration g before false
  else if (← isTyped) && (← isWord "interface") && (behind matches .name _ _) then
    interfaceDeclaration g
  else
    let value ← enclosed (g .assignment)
    semicolon
    group start [value]

/-- Read an export behind its keyword, if it is of a kind that needs types. -/
def typedExport? (g : Grammar) (start : Nat) : Reading (Option Node) := do
  if !(← isTyped) then return none
  let behind := (← following).token
  if ← takePunct? "=" then
    let value ← enclosed (g .expression)
    semicolon
    some <$> group start [value]
  else if (← isWord "as") && behind = .name "namespace" false then
    advance
    advance
    let _ ← takeName
    semicolon
    some <$> group start []
  else if ← isWord "import" then some <$> importDeclaration g
  else if (← isWord "type") && behind = .punct "\x7b" then
    advance
    exportItems g
    some <$> group start []
  else if (← isWord "type") && behind = .punct "*" then
    advance
    exportAll g
    some <$> group start []
  else return none

/-- The words that begin a declaration which can be exported. -/
def exportable : List String := ["var", "let", "const", "function", "class"]

/-- Read an export. -/
def exportDeclaration (g : Grammar) (before : List Node) : Reading Node := do
  let start ← here
  takeWord "export"
  if ← takeWord? "default" then exportDefault g
  else if ← isPunct "*" then
    exportAll g
    group start []
  else if ← isPunct "\x7b" then
    exportItems g
    group start []
  else
    match ← typedExport? g start with
    | some node => return node
    | none =>
      let inner ← exportDeclared do
        match ← token with
        | .name word false =>
          if (← beginsTypedDeclaration word) || word ∈ exportable || (← isAsyncFunction) then
            if word = "class" then classDeclaration g before true else g (.statement false)
          else refuse
        | .punct "@" =>
          let more ← decorators g
          classDeclaration g more true
        | _ => refuse
      group start [inner]

end MessageCatalog.Script.Reading
