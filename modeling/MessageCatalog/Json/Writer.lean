import MessageCatalog.Json.Value

/-!
# Writing JSON

One member per line, indented by two spaces per level. A string is written as it is, apart from
quotes, backslashes and control characters.
-/

namespace MessageCatalog.Json

/-- A digit of a hexadecimal number below sixteen. -/
def hexDigit (n : Nat) : Char :=
  if n < 10 then Char.ofNat ('0'.toNat + n) else Char.ofNat ('a'.toNat + (n - 10))

/-- The written form of a character of a string. -/
def escapeChar (c : Char) : List Char :=
  match c with
  | '"' => ['\\', '"']
  | '\\' => ['\\', '\\']
  | '\x08' => ['\\', 'b']
  | '\x0c' => ['\\', 'f']
  | '\n' => ['\\', 'n']
  | '\r' => ['\\', 'r']
  | '\t' => ['\\', 't']
  | c =>
    if c.toNat < 0x20 then
      ['\\', 'u', '0', '0', hexDigit (c.toNat / 16), hexDigit (c.toNat % 16)]
    else [c]

/-- The written form of a string. -/
def quoteChars (text : List Char) : List Char :=
  '"' :: text.flatMap escapeChar ++ ['"']

/-- The written form of a string. -/
def quote (text : String) : String :=
  String.ofList (quoteChars text.toList)

/-- The lines of the members of an object, joined by a comma at the end of all but the last. -/
def memberLines (indent : String) : List (String × String) → String
  | [] => ""
  | [(key, value)] => indent ++ quote key ++ ": " ++ value ++ "\n"
  | (key, value) :: rest => indent ++ quote key ++ ": " ++ value ++ ",\n" ++ memberLines indent rest

/-- An object whose values are written already, inside `indent`. -/
def writeObject (indent : String) (members : List (String × String)) : String :=
  if members.isEmpty then "\x7b\x7d"
  else "\x7b\n" ++ memberLines (indent ++ "  ") members ++ indent ++ "\x7d"

end MessageCatalog.Json
