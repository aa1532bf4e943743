import MessageCatalog.Script.Reading

/-!
# Bindings

Patterns that take a value apart and declare names, and lists of parameters. The tree of a pattern
holds its computed keys and its defaults.
-/

namespace MessageCatalog.Script.Reading

/-! ## Notes on types -/

/-- Whether types may be written. -/
def isTyped : Reading Bool := do return (← read).language.typed

/-- Go past the type of a name, if one is given. -/
def typeNote (g : Grammar) : Reading Unit := do
  if ← isTyped then
    if ← takePunct? ":" then
      let _ ← enclosed (g .type)

/-- Go past a list of types in angles. -/
def typeArguments (g : Grammar) : Reading Unit := do
  takeOpeningAngle
  let (types, _) ← enclosed (listUntil ">" (g .type))
  require !types.isEmpty

/-! ## Decorators -/

/-- Read the decorators that stand here. -/
def decorators (g : Grammar) : Reading (List Node) :=
  many do
    if ← takePunct? "@" then
      some <$> within (fun c => { c with decorator := true }) (g .leftHand)
    else return none

/-! ## Patterns -/

/-- Read the initial value behind an equals sign, if there is one. -/
def initialValue (g : Grammar) : Reading (List Node) := do
  if ← takePunct? "=" then return [← enclosed (g .assignment)]
  else return []

/-- Read a pattern and its default. -/
def bindingElement (g : Grammar) (declaration : Declaration) : Reading Node := do
  let start ← here
  let pattern ← g (.binding declaration)
  let initial ← initialValue g
  group start (pattern :: initial)

/-- Read a key of a member: what is computed of it, and its text when it is a word or a string.
Only a class has private keys. -/
def memberKey (g : Grammar) (inClass : Bool) : Reading (List Node × Option String) := do
  match ← token with
  | .name value _ | .string value =>
    advance
    return ([], some value)
  | .number =>
    advance
    return ([], none)
  | .privateName =>
    require inClass
    advance
    return ([], none)
  | _ =>
    takePunct "["
    let key ← enclosed (g .assignment)
    takePunct "]"
    return ([key], none)

/-- Read an item of an array pattern. What takes the rest must come last. -/
def arrayBindingItem (g : Grammar) (declaration : Declaration) : Reading Node := do
  let start ← here
  if ← isPunct "," then return .hole
  if ← takePunct? "..." then
    let rest ← g (.binding declaration)
    require (← isPunct "]")
    group start [rest]
  else bindingElement g declaration

/-- Read a member of an object pattern. -/
def objectBindingMember (g : Grammar) (declaration : Declaration) : Reading Node := do
  let start ← here
  if ← takePunct? "..." then
    declaredName declaration
    require (← isPunct "\x7d")
    group start []
  else
    let name := nameOf? (← context) (← token)
    let (key, _) ← memberKey g false
    if ← takePunct? ":" then
      let value ← bindingElement g declaration
      group start (key ++ [value])
    else
      match name with
      | some name =>
        declare declaration name
        let initial ← initialValue g
        group start initial
      | none => refuse

/-- Read a pattern. -/
def binding (g : Grammar) (declaration : Declaration) : Reading Node := do
  let start ← here
  if ← takePunct? "[" then
    let (items, _) ← enclosed (listUntil "]" (arrayBindingItem g declaration))
    group start items
  else if ← takePunct? "\x7b" then
    let (members, _) ← enclosed (listUntil "\x7d" (objectBindingMember g declaration))
    group start members
  else
    declaredName declaration
    group start []

/-! ## Parameters -/

/-- The words before a parameter that make it a property as well. -/
def parameterModifiers : List String :=
  ["public", "private", "protected", "readonly", "override"]

/-- Go past a word before a parameter, if the parameter follows it. -/
def parameterModifier? : Reading (Option Unit) := do
  match ← token with
  | .name word false =>
    if word ∈ parameterModifiers then
      match (← following).token with
      | .name _ _ | .punct "[" | .punct "\x7b" =>
        advance
        return some ()
      | _ => return none
    else return none
  | _ => return none

/-- Read a parameter. What takes the rest must come last and has no default. -/
def parameter (g : Grammar) (declaration : Declaration) : Reading Node := do
  let start ← here
  let before ← decorators g
  if ← isTyped then
    let _ ← many parameterModifier?
  if ← takePunct? "..." then
    let rest ← g (.binding declaration)
    typeNote g
    require (← isPunct ")")
    group start (before ++ [rest])
  else
    let pattern ←
      if ← isTyped <&&> takeWord? "this" then group start [] else g (.binding declaration)
    if ← isTyped then
      let _ ← takePunct? "?"
    typeNote g
    let initial ← initialValue g
    group start (before ++ pattern :: initial)

/-- Read a list of parameters. -/
def parameters (g : Grammar) (declaration : Declaration) : Reading (List Node) := do
  takePunct "("
  let (items, _) ← enclosed (listUntil ")" (parameter g declaration))
  return items

end MessageCatalog.Script.Reading
