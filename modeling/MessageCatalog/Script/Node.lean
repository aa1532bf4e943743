import MessageCatalog.Script.Quoted

/-!
# Syntax trees

The tree of a script, in as much detail as it takes to find call sites: tagged templates, calls and
what the arguments of a call are made of. Everything else is a group of its parts, in the order of
the source. A name is known by its range alone. A scope lists the names that are declared in it, so
that what a name refers to is seen from the scopes around it.
-/

namespace MessageCatalog.Script

/-- The operators that may leave out their right side. -/
inductive Shortcut where
  | or
  | and
  | coalesce
  deriving DecidableEq, Repr

/-- A piece of syntax. -/
inductive Node where
  /-- A name that is used as an expression. -/
  | identifier (range : Range)
  | string (range : Range) (value : String)
  | tagged (range : Range) (tag : Node) (quasis : List Quoted.Quasi) (substitutions : List Node)
  | call (range : Range) (callee : Node) (arguments : List Node)
  /-- The property of an object with the name at a range. -/
  | member (range : Range) (object : Node) (name : Range)
  /-- Any other property of an object. -/
  | element (range : Range) (parts : List Node)
  | array (range : Range) (items : List Node) (trailingComma : Bool)
  | object (range : Range) (members : List Node) (trailingComma : Bool)
  /-- A member of an object with a key and a value. -/
  | property (range : Range) (key : List Node) (value : Node)
  /-- A member of an object that has its value from the name; a default makes sense only in a
  target of an assignment. -/
  | shorthand (range : Range) (name : Node) (initial : Option Node)
  | spread (range : Range) (inner : Node)
  /-- A place of an array without an item. -/
  | hole
  | shortcut (range : Range) (operator : Shortcut) (left right : Node)
  | assignment (range : Range) (isPlain : Bool) (target value : Node)
  | parenthesized (range : Range) (inner : Node)
  /-- A row of property accesses and calls with an optional one among them. -/
  | chain (range : Range) (inner : Node)
  /-- An expression with a note on its type. -/
  | typed (range : Range) (inner : Node)
  | group (range : Range) (parts : List Node)
  | scope (range : Range) (names : List String) (parts : List Node)
  deriving Repr, Inhabited

namespace Node

/-- The range that a node was read from. -/
def range : Node → Range
  | identifier r | string r _ | tagged r _ _ _ | call r _ _ | member r _ _ | element r _
  | array r _ _ | object r _ _ | property r _ _ | shorthand r _ _ | spread r _ | shortcut r _ _ _
  | assignment r _ _ _ | parenthesized r _ | chain r _ | typed r _ | group r _ | scope r _ _ => r
  | hole => ⟨0, 0⟩

/-- An expression without the parentheses around it. -/
def withoutParentheses : Node → Node
  | parenthesized _ inner => inner.withoutParentheses
  | node => node

/-- Whether a name or a property stands here, perhaps in parentheses: a target of an assignment
that does not take a value apart. -/
def isSimpleTarget : Node → Bool
  | identifier _ | member _ _ _ | element _ _ => true
  | parenthesized _ inner | typed _ inner => inner.isSimpleTarget
  | _ => false

mutual

/-- The shorthand members with a default that an expression has when it is read as a target of an
assignment; none when it is no target. Inside another target it may have a default itself. -/
def targetDefaults? (isInner : Bool) : Node → Option (List Range)
  | assignment _ true target _ => if isInner then target.targetDefaults? false else none
  | array _ items trailingComma => itemDefaults? trailingComma items
  | object _ members trailingComma => memberDefaults? trailingComma members
  | identifier _ | member _ _ _ | element _ _ => some []
  | parenthesized _ inner | typed _ inner => if inner.isSimpleTarget then some [] else none
  | _ => none

/-- The same for the items of an array; what takes the rest must come last. -/
def itemDefaults? (trailingComma : Bool) : List Node → Option (List Range)
  | [] => some []
  | spread _ inner :: rest =>
    if rest.isEmpty && !trailingComma then inner.targetDefaults? false else none
  | hole :: rest => itemDefaults? trailingComma rest
  | item :: rest => do
    return (← item.targetDefaults? true) ++ (← itemDefaults? trailingComma rest)

/-- The same for the members of an object. -/
def memberDefaults? (trailingComma : Bool) : List Node → Option (List Range)
  | [] => some []
  | spread _ inner :: rest =>
    if rest.isEmpty && !trailingComma && inner.isSimpleTarget then some [] else none
  | property _ _ value :: rest => do
    return (← value.targetDefaults? true) ++ (← memberDefaults? trailingComma rest)
  | shorthand r _ (some _) :: rest => (memberDefaults? trailingComma rest).map (r :: ·)
  | shorthand _ _ none :: rest => memberDefaults? trailingComma rest
  | _ => none

end

end Node

end MessageCatalog.Script
