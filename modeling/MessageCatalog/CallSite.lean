import MessageCatalog.Message
import MessageCatalog.Script.Grammar

/-!
# Call sites in scripts

A message of a script is a template with the tag `$localize`, or a call of `$localize` that a
compiler has made of one: its first argument holds the strings of the template, either as an array
or as a call of a helper with the cooked and the raw strings, which may be kept in a variable from
one run to the next. Only a name that no scope declares is the tag.
-/

namespace MessageCatalog

open Script (Node Source)

/-- What is wrong with a call site. -/
inductive CallSiteError where
  /-- An escape of the template part with this raw text is malformed. -/
  | malformedEscape (raw : String)
  | unexpectedParts
  | unexpectedSubstitution
  | block (error : UnterminatedBlock)
  deriving DecidableEq, Repr

def CallSiteError.message : CallSiteError → String
  | malformedEscape raw =>
    "Invalid escape sequence in $localize template part \"" ++ raw ++ "\"."
  | unexpectedParts =>
    "Unexpected messageParts for $localize (expected an array of strings)."
  | unexpectedSubstitution =>
    "Unexpected argument for $localize (spread substitutions are not supported)."
  | block e => e.message

namespace CallSite

/-- The name of the tag. -/
def tagName : String := "$localize"

/-- The name of the helper that makes an object of cooked and raw strings. -/
def helperName : String := "__makeTemplateObject"

/-- Whether an expression is the tag, given whether a scope declares its name. -/
def isTag (s : Source) (declared : Bool) : Node → Bool
  | .identifier r => !declared && s.name? r = some tagName
  | _ => false

/-! ## Templates -/

/-- The cooked and raw strings of a template, or the first part with a malformed escape. -/
def templateParts :
    List Script.Quoted.Quasi → Except CallSiteError (List String × List String)
  | [] => .ok ([], [])
  | q :: rest =>
    match q.cooked with
    | none => .error (.malformedEscape q.raw)
    | some text => do
      let (cooked, raw) ← templateParts rest
      return (text :: cooked, q.raw :: raw)

/-- The source text of expressions. -/
def sourceTexts (s : Source) (expressions : List Node) : List String :=
  expressions.map fun e => s.text e.range

/-- The template of an expression, if that is a template with the tag. -/
def ofTagged? (s : Source) (declared : Bool) : Node → Option (Except CallSiteError Template)
  | .tagged _ tag quasis substitutions =>
    if isTag s declared tag then
      some do
        let (cooked, raw) ← templateParts quasis
        return ⟨cooked, raw, sourceTexts s substitutions⟩
    else none
  | _ => none

/-! ## Calls -/

/-- The value of a string. -/
def stringValue? : Node → Option String
  | .string _ value => some value
  | _ => none

/-- The strings of an array that holds nothing else. -/
def stringArray? : Node → Option (List String)
  | .array _ items _ => items.mapM stringValue?
  | _ => none

/-- Whether an expression names the helper, by itself or as a property. -/
def isHelper (s : Source) (callee : Node) : Bool :=
  match callee.withoutParentheses with
  | .identifier r | .member _ _ r => s.name? r = some helperName
  | _ => false

/-- The cooked and raw strings of an expression that stands for a template. A value that is kept in
a variable stands behind `||` as an assignment. -/
def callParts? (s : Source) : Node → Option (List String × List String)
  | .array r items trailingComma =>
    (stringArray? (.array r items trailingComma)).map fun cooked => (cooked, cooked)
  | .call _ callee (cooked :: raw :: _) =>
    if isHelper s callee then do
      return (← stringArray? cooked.withoutParentheses, ← stringArray? raw.withoutParentheses)
    else none
  | .shortcut _ .or _ right => assignedParts? right
  | .parenthesized _ inner => callParts? s inner
  | _ => none
where
  /-- The strings of the value of an assignment. -/
  assignedParts? : Node → Option (List String × List String)
    | .assignment _ _ _ value => callParts? s value
    | .parenthesized _ inner => assignedParts? inner
    | _ => none

/-- The source text of the arguments behind the first. -/
def substitutionTexts (s : Source) : List Node → Except CallSiteError (List String)
  | [] => .ok []
  | .spread _ _ :: _ => .error .unexpectedSubstitution
  | argument :: rest => do
    return s.text argument.range :: (← substitutionTexts s rest)

/-- The template of the arguments of the tag. -/
def ofArguments (s : Source) : List Node → Except CallSiteError Template
  | [] => .error .unexpectedParts
  | first :: rest =>
    match callParts? s first with
    | none => .error .unexpectedParts
    | some (cooked, raw) => do
      return ⟨cooked, raw, ← substitutionTexts s rest⟩

/-- The template of an expression, if that is a call of the tag. -/
def ofCall? (s : Source) (declared : Bool) : Node → Option (Except CallSiteError Template)
  | .call _ callee arguments =>
    if isTag s declared callee then some (ofArguments s arguments) else none
  | _ => none

/-- The template of an expression, if that is a call site. -/
def recognize? (s : Source) (declared : Bool) (node : Node) :
    Option (Except CallSiteError Template) :=
  (ofTagged? s declared node).or (ofCall? s declared node)

/-! ## All call sites of a script -/

mutual

/-- The call sites at a node and below it, in the order of the source. The expression right inside a
chain is not looked at by itself. -/
def sites (s : Source) (inChain declared : Bool) (node : Node) :
    List (Except CallSiteError Template) :=
  (if inChain then none else recognize? s declared node).toList ++
    match node with
    | .tagged _ tag _ substitutions =>
      sites s false declared tag ++ sitesOfAll s declared substitutions
    | .call _ callee arguments => sites s false declared callee ++ sitesOfAll s declared arguments
    | .member _ object _ => sites s false declared object
    | .element _ parts | .array _ parts _ | .object _ parts _ | .group _ parts =>
      sitesOfAll s declared parts
    | .property _ key value => sitesOfAll s declared key ++ sites s false declared value
    | .shorthand _ _ none => []
    | .shorthand _ _ (some initial) => sites s false declared initial
    | .spread _ inner | .parenthesized _ inner | .typed _ inner => sites s false declared inner
    | .shortcut _ _ left right | .assignment _ _ left right =>
      sites s false declared left ++ sites s false declared right
    | .chain _ inner => sites s true declared inner
    | .scope _ names parts => sitesOfAll s (declared || tagName ∈ names) parts
    | .identifier _ | .string _ _ | .hole => []

/-- The call sites of nodes in order. -/
def sitesOfAll (s : Source) (declared : Bool) : List Node → List (Except CallSiteError Template)
  | [] => []
  | node :: rest => sites s false declared node ++ sitesOfAll s declared rest

end

/-- The message of a call site, or what is wrong with its parts or with a block in them. -/
def message (site : Except CallSiteError Template) : Except CallSiteError Message := do
  let template ← site
  (Message.ofTemplate template).mapError .block

/-- The message of each call site, or what is wrong with it. -/
def messages (s : Source) (script : Node) : List (Except CallSiteError Message) :=
  (sites s false false script).map message

end CallSite

end MessageCatalog
