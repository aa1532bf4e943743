import MessageCatalog.Json.Number
import MessageCatalog.OrderedMap
import MessageCatalog.Quotation.Basic

/-!
# JSON values

The tree of a JSON document. The members of an object keep their order; a number keeps its text,
since documents are not computed with. A message names a value that is not what was asked for: a
list or an object by its kind, any other value by itself.
-/

namespace MessageCatalog.Json

/-- A JSON value. -/
inductive Value where
  | null
  | bool (value : Bool)
  | number (value : Number)
  | string (value : String)
  | array (items : List Value)
  | object (members : List (String × Value))
  deriving Repr

namespace Value

/-- The object with these members: of two with one key, the first gives the place and the last the
value. -/
def ofMembers (members : List (String × Value)) : Value :=
  .object (OrderedMap.ofList members).entries

/-- The member of an object with this key. -/
def get? : Value → String → Option Value
  | .object members, key => members.lookup key
  | _, _ => none

def string? : Value → Option String
  | .string value => some value
  | _ => none

def members? : Value → Option (List (String × Value))
  | .object members => some members
  | _ => none

/-- What a value is called in messages. -/
def description : Value → String
  | null => "null"
  | bool value => "boolean \x60" ++ (if value then "true" else "false") ++ "\x60"
  | number value => value.description
  | string value => "string " ++ Quotation.quoted value
  | array _ => "sequence"
  | object _ => "map"

end Value

end MessageCatalog.Json
