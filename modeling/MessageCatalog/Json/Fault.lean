import MessageCatalog.Text

/-!
# What can be wrong with JSON

A fault is a cause and the place it is about, given by the number of bytes before and including the
one in question. Faults of reading have their place from the start; a value that is well formed and
not what is asked for gets its place only from the value around it.
-/

namespace MessageCatalog.Json

/-- Why a text is no JSON, or not the JSON that is asked for. -/
inductive Cause where
  | endInList
  | endInObject
  | endInString
  | endInValue
  | expectedColon
  | expectedListCommaOrEnd
  | expectedObjectCommaOrEnd
  | expectedIdent
  | expectedValue
  | invalidEscape
  | invalidNumber
  | numberOutOfRange
  | controlCharacter
  | keyNotString
  | loneSurrogate
  | endOfHexEscape
  | trailingComma
  | trailingCharacters
  | tooDeep
  | invalidType (found wanted : String)
  | invalidLength (length : Nat) (wanted : String)
  | duplicateField (name : String)
  | noVariant (type : String)
  deriving DecidableEq, Repr

def Cause.message : Cause → String
  | endInList => "EOF while parsing a list"
  | endInObject => "EOF while parsing an object"
  | endInString => "EOF while parsing a string"
  | endInValue => "EOF while parsing a value"
  | expectedColon => "expected `:`"
  | expectedListCommaOrEnd => "expected `,` or `]`"
  | expectedObjectCommaOrEnd => "expected `,` or `\x7d`"
  | expectedIdent => "expected ident"
  | expectedValue => "expected value"
  | invalidEscape => "invalid escape"
  | invalidNumber => "invalid number"
  | numberOutOfRange => "number out of range"
  | controlCharacter =>
    "control character (\\u0000-\\u001F) found while parsing a string"
  | keyNotString => "key must be a string"
  | loneSurrogate => "lone leading surrogate in hex escape"
  | endOfHexEscape => "unexpected end of hex escape"
  | trailingComma => "trailing comma"
  | trailingCharacters => "trailing characters"
  | tooDeep => "recursion limit exceeded"
  | invalidType found wanted => "invalid type: " ++ found ++ ", expected " ++ wanted
  | invalidLength length wanted =>
    "invalid length " ++ toString length ++ ", expected " ++ wanted
  | duplicateField name => "duplicate field `" ++ name ++ "`"
  | noVariant type => "data did not match any variant of untagged enum " ++ type

/-- A cause and its place, when it has one already. -/
structure Fault where
  cause : Cause
  place : Option Nat := none
  deriving DecidableEq, Repr

/-- The line and column of the byte that is the last of the first `bytes` bytes of a text; columns
are counted in bytes. -/
def lineAndColumn (line col bytes : Nat) : List Char → Nat × Nat
  | [] => (line, col)
  | c :: text =>
    if bytes = 0 then (line, col)
    else if c = '\n' then lineAndColumn (line + 1) 0 (bytes - 1) text
    else lineAndColumn line (col + min bytes c.utf8Size) (bytes - c.utf8Size) text

/-- The message of a fault in the document `contents`. -/
def Fault.message (contents : String) (f : Fault) : String :=
  let (line, col) := lineAndColumn 1 0 (f.place.getD 0) contents.toList
  f.cause.message ++ " at line " ++ toString line ++ " column " ++ toString col

end MessageCatalog.Json
