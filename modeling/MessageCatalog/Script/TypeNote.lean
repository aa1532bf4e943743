import MessageCatalog.Script.Binding

/-!
# Types

Types take no part in what a script does, so reading one only finds its end.
-/

namespace MessageCatalog.Script.Reading

/-! ## Type parameters and signatures -/

/-- The words before a type parameter. -/
def typeParameterModifiers : List String := ["const", "in", "out"]

/-- Go past a type parameter with its bound and its default. -/
def typeParameter (g : Grammar) : Reading Unit := do
  let _ ← many do
    match ← token with
    | .name word false =>
      if word ∈ typeParameterModifiers && (← following).token matches .name _ _ then
        advance
        return some ()
      else return none
    | _ => return none
  let _ ← takeName
  if ← takeWord? "extends" then
    let _ ← g .type
  if ← takePunct? "=" then
    let _ ← g .type

/-- Go past a list of type parameters, if one stands here. -/
def typeParameters (g : Grammar) : Reading Unit := do
  if ← isTyped then
    if ← isPunct "<" then
      advance
      let (names, _) ← enclosed (listUntil ">" (typeParameter g))
      require !names.isEmpty

/-- Go past the type parameters, the parameters and the result type of a signature. -/
def signature (g : Grammar) : Reading Unit := do
  typeParameters g
  let _ ← parameters g .silent
  typeNote g

/-- Go past a function type behind the words before it. -/
def functionType (g : Grammar) : Reading Unit := do
  typeParameters g
  let _ ← parameters g .silent
  takePunct "=>"
  let _ ← g .type

/-! ## Members of object types -/

/-- Whether a token can begin the name of a member. -/
def beginsMemberName : Token → Bool
  | .name _ _ | .string _ | .number | .privateName | .punct "[" => true
  | _ => false

/-- Go past a word before a member, if the member follows it. -/
def takeMemberWord? (word : String) : Reading Bool := do
  if (← isWord word) && beginsMemberName (← following).token then
    advance
    return true
  else return false

/-- Go past a sign that adds `readonly` or a question mark, or takes it away. -/
def takeSign : Reading Unit := do
  let _ ← takePunct? "+" <||> takePunct? "-"

/-- Go past what stands in brackets at the front of a member: an index with its type, a name that
ranges over a type, or a computed key. -/
def bracketedKey (g : Grammar) : Reading Unit := do
  takePunct "["
  let behind := (← following).token
  if (← isName) && behind = .punct ":" then
    let _ ← takeName
    typeNote g
  else if (← isName) && behind = .name "in" false then
    let _ ← takeName
    takeWord "in"
    let _ ← g .type
    if ← takeWord? "as" then
      let _ ← g .type
  else
    let _ ← g .expression
  takePunct "]"

/-- Go past the end of a member. -/
def typeMemberEnd : Reading Unit := do
  if ← takePunct? ";" <||> takePunct? "," then return
  require (← canEnd)

/-- Go past a member of an object type. -/
def typeMember (g : Grammar) : Reading Unit := do
  takeSign
  let _ ← takeMemberWord? "readonly"
  let behind := (← following).token
  if ← takeMemberWord? "get" <||> takeMemberWord? "set" then
    let _ ← memberKey g false
    signature g
  else if (← isPunct "(") || (← isPunct "<") then signature g
  else if (← isWord "new") && (behind = .punct "(" || behind = .punct "<") then
    advance
    signature g
  else
    if ← isPunct "[" then bracketedKey g
    else
      let _ ← memberKey g false
    takeSign
    let _ ← takePunct? "?"
    if (← isPunct "(") || (← isPunct "<") then signature g
    else typeNote g
  typeMemberEnd

/-- Go past an object type. -/
def objectType (g : Grammar) : Reading Unit := do
  takePunct "\x7b"
  let _ ← enclosed <| many do
    if ← isPunct "\x7d" then return none
    else some <$> typeMember g
  takePunct "\x7d"

/-! ## Types -/

/-- Go past an item of a tuple type, which may have a name. -/
def tupleItem (g : Grammar) : Reading Unit := do
  let _ ← takePunct? "..."
  let behind ← following
  if (← isAnyWord) && behind.token = .punct ":" then
    advance
    advance
  else if (← isAnyWord) && behind.token = .punct "?" then
    let _ ← attempt do
      advance
      takePunct "?"
      takePunct ":"
  let _ ← g .type
  let _ ← takePunct? "?"

/-- Go past a name with its qualifiers. -/
def qualifiedName : Reading Unit := do
  let _ ← takeAnyWord
  let _ ← many do
    if ← takePunct? "." then
      if (← token) matches .privateName then advance
      else
        let _ ← takeAnyWord
      return some ()
    else return none

/-- Whether the types in angles that follow belong to the name before them. -/
def typeArguments? (g : Grammar) : Reading Unit := do
  if !(← newlineBefore) then
    match ← token with
    | .punct "<" | .punct "<<" => typeArguments g
    | _ => return

/-- Go past the pieces of a template in a type. -/
def templateType (g : Grammar) : Reading Unit := do
  let _ ← many do
    match ← token with
    | .template _ false =>
      advance
      let _ ← g .type
      require (← isPunct "\x7d")
      again fun text => readQuasi (text.drop 1)
      return some ()
    | _ => return none
  match ← token with
  | .template _ true => advance
  | _ => refuse

/-- Go past the path of a module and what is named of it, behind `import`. -/
def importType (g : Grammar) : Reading Unit := do
  takePunct "("
  let _ ← enclosed (g .type)
  if ← takePunct? "," then
    if !(← isPunct ")") then
      let _ ← enclosed (g .assignment)
      let _ ← takePunct? ","
  takePunct ")"
  if ← takePunct? "." then qualifiedName
  typeArguments? g

/-- The keywords that are types. -/
def typeKeywords : List String := ["void", "null", "true", "false", "this"]

/-- Go past a type that no operator is applied to. -/
def primaryType (g : Grammar) : Reading Unit := do
  match ← token with
  | .string _ | .number => advance
  | .template _ _ => templateType g
  | .punct "-" =>
    advance
    require ((← token) = .number)
    advance
  | .punct "\x7b" => objectType g
  | .punct "[" =>
    advance
    let _ ← enclosed (listUntil "]" (tupleItem g))
  | .punct "(" =>
    advance
    let _ ← enclosed (g .type)
    takePunct ")"
  | .name word _ =>
    if word ∈ typeKeywords then advance
    else if word = "typeof" then
      advance
      if ← takeWord? "import" then importType g
      else
        qualifiedName
        typeArguments? g
    else if word = "import" then
      advance
      importType g
    else
      require (← isName)
      qualifiedName
      typeArguments? g
  | _ => refuse

/-- Go past brackets behind a type: of an array of it, or of a property of it. -/
def typeBrackets? (g : Grammar) : Reading (Option Unit) := do
  if (← newlineBefore) || !(← isPunct "[") then return none
  advance
  if !(← isPunct "]") then
    let _ ← enclosed (g .type)
  takePunct "]"
  return some ()

/-- The words that are applied to a type. -/
def typeOperators : List String := ["keyof", "unique", "readonly"]

/-- Go past a word that is applied to a type. -/
def typeOperator? : Reading (Option Unit) := do
  match ← token with
  | .name word false =>
    if word ∈ typeOperators then
      advance
      return some ()
    else return none
  | _ => return none

/-- Go past a bound of an inferred type, unless it turns out to be a condition on it. -/
def inferredBound? (g : Grammar) : Reading Unit := do
  let conditional := (← context).conditionalTypes
  let _ ← attempt do
    takeWord "extends"
    let _ ← within (fun c => { c with conditionalTypes := false }) (g .type)
    if conditional then require !(← isPunct "?")

/-- Go past a type with the words before it and the brackets behind it. -/
def operatorType (g : Grammar) : Reading Unit := do
  let _ ← many typeOperator?
  if ← takeWord? "infer" then
    let _ ← takeName
    inferredBound? g
  else
    primaryType g
    let _ ← many (typeBrackets? g)

/-- Go past types with an operator between them and perhaps before the first. -/
def typesWith (operator : String) (item : Reading Unit) : Reading Unit := do
  let _ ← takePunct? operator
  item
  let _ ← many do
    if ← takePunct? operator then some <$> item else return none

/-- Go past a function type, if one begins here. -/
def functionType? (g : Grammar) : Reading Bool := do
  let behind := (← following).token
  if ← isPunct "<" then
    functionType g
    return true
  else if ← isPunct "(" then
    return (← attempt (functionType g)).isSome
  else if ← isWord "new" then
    advance
    functionType g
    return true
  else if (← isWord "abstract") && behind = .name "new" false then
    advance
    advance
    functionType g
    return true
  else return false

/-- Go past what a function claims of a value, if such a claim begins here; whether the type that
follows is still to be read. -/
def typeClaim? : Reading Bool := do
  let behind ← following
  let isClaim := !behind.newlineBefore
  if (← isWord "asserts") && isClaim && (behind.token matches .name _ _) &&
      behind.token ≠ .name "is" false then
    advance
    let _ ← takeAnyWord
    takeWord? "is"
  else if ((← isName) || (← isWord "this")) && isClaim && behind.token = .name "is" false then
    advance
    advance
    return true
  else return true

/-- Go past a type with the condition on it. -/
def conditionalType (g : Grammar) : Reading Unit := do
  typesWith "|" (typesWith "&" (do if !(← functionType? g) then operatorType g))
  if (← context).conditionalTypes && !(← newlineBefore) then
    if ← takeWord? "extends" then
      let _ ← within (fun c => { c with conditionalTypes := false }) (g .type)
      takePunct "?"
      let _ ← enclosed (g .type)
      takePunct ":"
      let _ ← enclosed (g .type)

/-- Read a type. -/
def type (g : Grammar) : Reading Node := do
  let start ← here
  if ← typeClaim? then
    if !(← functionType? g) then conditionalType g
  group start []

end MessageCatalog.Script.Reading
