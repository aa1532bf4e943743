import MessageCatalog.Script.Source

/-!
# Text in quotes

What the characters between the quotes of a string or of a template stand for. Escapes of surrogates
make up a character in pairs; a lone surrogate is kept as U+FFFD with the digits of the surrogate,
and in such a text U+FFFD itself is written in the same way.
-/

namespace MessageCatalog.Script.Quoted

/-- Whether a line ends with a character. -/
def isLineEnd (c : Char) : Bool :=
  c = '\n' || c = '\r' || c = '\u2028' || c = '\u2029'

/-- What an escape or a character stands for. -/
inductive Piece where
  | char (c : Char)
  /-- A surrogate of four digits, which can make a pair with its neighbour. -/
  | half (n : Nat)
  /-- A surrogate that stands alone. -/
  | lone (n : Nat)
  deriving DecidableEq, Repr

def isLeading (n : Nat) : Bool := 0xD800 ≤ n && n ≤ 0xDBFF

def isTrailing (n : Nat) : Bool := 0xDC00 ≤ n && n ≤ 0xDFFF

def isSurrogate (n : Nat) : Bool := isLeading n || isTrailing n

/-! ## Escapes -/

/-- The character of a one letter escape. -/
def shortEscape : Char → Char
  | 'b' => '\x08'
  | 'f' => '\x0c'
  | 'n' => '\n'
  | 'r' => '\r'
  | 't' => '\t'
  | 'v' => '\x0b'
  | c => c

/-- The escape of a code point in braces, and the number of characters of it. -/
def bracedEscape (text : List Char) : Option (List Piece × Nat) := do
  let digits := text.takeWhile fun c => (hexDigit? c).isSome
  let n ← hexValue? digits
  if digits.isEmpty || n > maxCodePoint || (text.drop digits.length).head? ≠ some '}' then none
  else return ([if isSurrogate n then .lone n else .char (Char.ofNat n)], digits.length + 1)

def isOctal (c : Char) : Bool := '0' ≤ c && c ≤ '7'

/-- The digits of an octal escape: three when the first is at most 3, else two. -/
def octalDigits (text : List Char) : List Char :=
  let most := if (text.headD '7') ≤ '3' then 3 else 2
  (text.take most).takeWhile isOctal

def octalValue (digits : List Char) : Nat :=
  digits.foldl (fun n c => n * 8 + (c.toNat - '0'.toNat)) 0

/-- The escape of a digit. A template knows only the zero that no digit follows. -/
def digitEscape (inTemplate : Bool) (c : Char) (rest : List Char) : Option (List Piece × Nat) :=
  if inTemplate then
    if c = '0' && !(rest.head?.any Char.isDigit) then some ([.char '\x00'], 1) else none
  else if isOctal c then
    let digits := octalDigits (c :: rest)
    some ([.char (Char.ofNat (octalValue digits))], digits.length)
  else some ([.char c], 1)

/-- What an escape stands for and how many characters it has behind the backslash. -/
def escape (inTemplate : Bool) : List Char → Option (List Piece × Nat)
  | [] => none
  | 'u' :: '{' :: rest => (bracedEscape rest).map fun (pieces, count) => (pieces, count + 2)
  | 'u' :: rest => do
    let n ← if rest.length < 4 then none else hexValue? (rest.take 4)
    return ([if isSurrogate n then .half n else .char (Char.ofNat n)], 5)
  | 'x' :: rest => do
    let n ← if rest.length < 2 then none else hexValue? (rest.take 2)
    return ([.char (Char.ofNat n)], 3)
  | '\r' :: '\n' :: _ => some ([], 2)
  | c :: rest =>
    if isLineEnd c then some ([], 1)
    else if c.isDigit then digitEscape inTemplate c rest
    else some ([.char (shortEscape c)], 1)

/-- The pieces of a text, of which the first `skip` characters belong to an escape. -/
def piecesFrom (inTemplate : Bool) : (skip : Nat) → List Char → Option (List Piece)
  | _, [] => some []
  | skip + 1, _ :: rest => piecesFrom inTemplate skip rest
  | 0, c :: rest =>
    if c = '\\' then do
      let (pieces, count) ← escape inTemplate rest
      return pieces ++ (← piecesFrom inTemplate count rest)
    else do
      return .char c :: (← piecesFrom inTemplate 0 rest)

/-! ## From pieces to text -/

/-- Put the two halves of a character together. -/
def joinHalves : List Piece → List Piece
  | .half n :: .half m :: rest =>
    if isLeading n && isTrailing m then
      .char (Char.ofNat ((n - 0xD800) * 0x400 + (m - 0xDC00) + 0x10000)) :: joinHalves rest
    else .lone n :: joinHalves (.half m :: rest)
  | .half n :: rest => .lone n :: joinHalves rest
  | piece :: rest => piece :: joinHalves rest
  | [] => []

/-- U+FFFD and four hexadecimal digits. -/
def showLone (n : Nat) : List Char :=
  '\uFFFD' :: Nat.toDigits 16 n

/-- The text of pieces, in the form that keeps lone surrogates. -/
def keepLone : List Piece → List Char
  | [] => []
  | .char c :: rest => (if c = '\uFFFD' then showLone 0xFFFD else [c]) ++ keepLone rest
  | .half n :: rest => showLone n ++ keepLone rest
  | .lone n :: rest => showLone n ++ keepLone rest

def plain? : Piece → Option Char
  | .char c => some c
  | _ => none

/-- The text of pieces. -/
def ofPieces (pieces : List Piece) : List Char :=
  let joined := joinHalves pieces
  (joined.mapM plain?).getD (keepLone joined)

/-- What a text in quotes stands for, unless an escape in it is malformed. -/
def unescape? (inTemplate : Bool) (text : List Char) : Option String :=
  (piecesFrom inTemplate 0 text).map fun pieces => String.ofList (ofPieces pieces)

/-- A text with a carriage return, and the newline behind it, as one newline. -/
def normalizeLines : List Char → List Char
  | '\r' :: '\n' :: rest => '\n' :: normalizeLines rest
  | '\r' :: rest => '\n' :: normalizeLines rest
  | c :: rest => c :: normalizeLines rest
  | [] => []

/-- A literal piece of a template: what is written, and what that stands for. -/
structure Quasi where
  /-- None when an escape is malformed. -/
  cooked : Option String
  raw : String
  deriving DecidableEq, Repr, Inhabited

/-- The literal piece of a template that is written so. -/
def Quasi.ofWritten (written : List Char) : Quasi :=
  let raw := normalizeLines written
  ⟨unescape? true raw, String.ofList raw⟩

end MessageCatalog.Script.Quoted
