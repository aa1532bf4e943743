import MessageCatalog.Path
import MessageCatalog.Script.Letter

/-!
# Source text

A script is the list of its characters. Places and ranges count characters, so that the text of a
range is a slice of the list. Names may be written with escapes; two names are the same when they
are the same after decoding.
-/

namespace MessageCatalog.Script

/-- The characters of a script. -/
abbrev Source := List Char

/-- The characters from `start` up to but not including `stop`. -/
structure Range where
  start : Nat
  stop : Nat
  deriving DecidableEq, Repr, Inhabited

/-- A place in a script: how many characters stand before it, and the characters from there on. -/
structure Place where
  offset : Nat
  rest : List Char
  deriving DecidableEq, Repr, Inhabited

namespace Place

/-- The place behind the next `count` characters. -/
def skip (p : Place) (count : Nat) : Place :=
  ⟨p.offset + count, p.rest.drop count⟩

end Place

namespace Source

/-- The characters of a range. -/
def slice (s : Source) (r : Range) : List Char :=
  (s.drop r.start).take (r.stop - r.start)

/-- The text of a range. -/
def text (s : Source) (r : Range) : String :=
  String.ofList (s.slice r)

end Source

/-! ## Hexadecimal digits -/

/-- The value of a hexadecimal digit. -/
def hexDigit? (c : Char) : Option Nat :=
  if c.isDigit then some (c.toNat - '0'.toNat)
  else if 'a' ≤ c && c ≤ 'f' then some (c.toNat - 'a'.toNat + 10)
  else if 'A' ≤ c && c ≤ 'F' then some (c.toNat - 'A'.toNat + 10)
  else none

/-- The value of a row of hexadecimal digits. -/
def hexValue? (digits : List Char) : Option Nat :=
  digits.foldlM (fun n c => (hexDigit? c).map (n * 16 + ·)) 0

/-- The largest code point. -/
def maxCodePoint : Nat := 0x10FFFF

/-! ## Names -/

namespace Name

/-- The number of characters of the name at the front of a text, escapes included; `inBraces` while
the digits of a braced escape are read. -/
def length (inBraces : Bool) : List Char → Nat
  | [] => 0
  | '\\' :: 'u' :: '{' :: rest => if inBraces then 0 else 3 + length true rest
  | '\\' :: 'u' :: rest => if inBraces then 0 else 2 + length false rest
  | c :: rest =>
    if inBraces then
      if c = '}' then 1 + length false rest
      else if (hexDigit? c).isSome then 1 + length true rest
      else 0
    else if Letter.isPart c then 1 + length false rest
    else 0

/-- The characters that a name stands for; `braced` is the value of a braced escape so far, with
whether it has a digit. -/
def decodeFrom : (braced : Option (Nat × Bool)) → List Char → Option (List Char)
  | none, [] => some []
  | some _, [] => none
  | none, '\\' :: 'u' :: '{' :: rest => decodeFrom (some (0, false)) rest
  | none, '\\' :: 'u' :: a :: b :: c :: d :: rest => do
    let n ← hexValue? [a, b, c, d]
    return Char.ofNat n :: (← decodeFrom none rest)
  | some (n, hasDigit), c :: rest =>
    if c = '}' then
      if hasDigit && n ≤ maxCodePoint then (decodeFrom none rest).map (Char.ofNat n :: ·)
      else none
    else do
      let digit ← hexDigit? c
      decodeFrom (some (n * 16 + digit, true)) rest
  | none, c :: rest =>
    if c = '\\' then none else (decodeFrom none rest).map (c :: ·)

/-- Whether characters make up a name. -/
def isValid : List Char → Bool
  | [] => false
  | c :: rest => Letter.isStart c && rest.all Letter.isPart

/-- The name that a text spells. -/
def decode? (written : List Char) : Option String :=
  match decodeFrom none written with
  | some name => if isValid name then some (String.ofList name) else none
  | none => none

end Name

/-- The name written at a range. -/
def Source.name? (s : Source) (r : Range) : Option String :=
  Name.decode? (s.slice r)

/-! ## Languages -/

/-- What a script is written in. -/
structure Language where
  /-- Whether types may be written. -/
  typed : Bool := false
  /-- Whether the script only declares what stands elsewhere. -/
  ambient : Bool := false
  /-- Whether markup elements are expressions. -/
  elements : Bool := false
  /-- Whether the script is a module. -/
  isModule : Bool := true
  deriving DecidableEq, Repr, Inhabited

namespace Language

/-- The language of a file with this extension; `declares` when a `d` stands before it. -/
def ofExtension (declares : Bool) : Option String → Language
  | some "jsx" => { elements := true }
  | some "ts" | some "mts" => { typed := true, ambient := declares }
  | some "cts" => { typed := true, ambient := declares, isModule := false }
  | some "tsx" => { typed := true, elements := true }
  | some "cjs" => { isModule := false }
  | _ => {}

/-- The language of a file. -/
def ofPath (path : String) : Language :=
  ofExtension (((Path.fileStem? path).bind Path.extension?) = some "d") (Path.extension? path)

end Language

end MessageCatalog.Script
