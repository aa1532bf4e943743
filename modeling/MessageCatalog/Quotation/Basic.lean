import MessageCatalog.Quotation.Hidden

/-!
# Quoted text in messages

A message shows a text between double quotes, on one line and with every character to be seen:
what would not show, or would end the quotation, is escaped.
-/

namespace MessageCatalog.Quotation

/-- An escape by code point in hexadecimal digits. -/
def codePoint (c : Char) : List Char :=
  ['\\', 'u', '\x7b'] ++ Nat.toDigits 16 c.toNat ++ ['\x7d']

def character (c : Char) : List Char :=
  match c with
  | '"' => ['\\', '"']
  | '\\' => ['\\', '\\']
  | '\n' => ['\\', 'n']
  | '\r' => ['\\', 'r']
  | '\t' => ['\\', 't']
  | '\x00' => ['\\', '0']
  | c =>
    if c.toNat < 0x20 || c.toNat = 0x7F || isHidden c then codePoint c else [c]

/-- A text in double quotes. -/
def quoted (text : String) : String :=
  String.ofList ('"' :: text.toList.flatMap character ++ ['"'])

end MessageCatalog.Quotation
