import MessageCatalog.Script.Quoted

/-!
# Tokens

The next token is read at a place, together with the blanks and comments before it. What a slash, a
closing brace or a `>` begins depends on where it stands; by default they are read as short
punctuators, and the grammar reads them again as the longer token where it wants that.
-/

namespace MessageCatalog.Script

open Quoted (isLineEnd)

/-- A token. -/
inductive Token where
  | endOfInput
  /-- A name or a keyword; a keyword has no escapes. -/
  | name (value : String) (escaped : Bool)
  | privateName
  | number
  | string (value : String)
  /-- A piece of a template up to a substitution or, when it is last, to the end. -/
  | template (quasi : Quoted.Quasi) (last : Bool)
  | pattern
  | punct (text : String)
  /-- The text between markup tags. -/
  | elementText
  /-- No token begins here. -/
  | malformed
  deriving DecidableEq, Repr, Inhabited

/-- A token, its range, and the place behind it. -/
structure Lexeme where
  token : Token
  /-- The place of the first character. -/
  here : Place
  after : Place
  /-- Whether a line ends before the token. -/
  newlineBefore : Bool
  deriving Repr, Inhabited

namespace Lexeme

def start (l : Lexeme) : Nat := l.here.offset

def stop (l : Lexeme) : Nat := l.after.offset

end Lexeme

/-! ## Blanks and comments -/

/-- The blanks of a line. -/
def isSpace (c : Char) : Bool :=
  let n := c.toNat
  n = 0x20 || n = 0x09 || n = 0x0B || n = 0x0C || n = 0x85 || n = 0xA0 || n = 0xFEFF ||
    n = 0x1680 || (0x2000 ≤ n && n ≤ 0x200B) || n = 0x202F || n = 0x205F || n = 0x3000

/-- Where the reading of blanks is. -/
inductive TriviaMode where
  | between
  | lineComment
  | blockComment
  deriving DecidableEq, Repr

/-- What was found before a token. -/
structure Trivia where
  place : Place
  newline : Bool
  /-- Whether a comment is left open. -/
  isOpen : Bool := false
  deriving Repr

/-- Skip blanks and comments. In a script that is no module, `<!--` begins a comment, and so does
`-->` at the start of a line. -/
def skipTrivia (isModule : Bool) :
    (mode : TriviaMode) → (newline : Bool) → (offset : Nat) → List Char → Trivia
  | .between, newline, offset, [] => ⟨⟨offset, []⟩, newline, false⟩
  | .between, newline, offset, '/' :: '/' :: rest =>
    skipTrivia isModule .lineComment newline (offset + 2) rest
  | .between, newline, offset, '/' :: '*' :: rest =>
    skipTrivia isModule .blockComment newline (offset + 2) rest
  | .between, newline, offset, '<' :: '!' :: '-' :: '-' :: rest =>
    if isModule then ⟨⟨offset, '<' :: '!' :: '-' :: '-' :: rest⟩, newline, false⟩
    else skipTrivia isModule .lineComment newline (offset + 4) rest
  | .between, newline, offset, '-' :: '-' :: '>' :: rest =>
    if isModule || !newline then ⟨⟨offset, '-' :: '-' :: '>' :: rest⟩, newline, false⟩
    else skipTrivia isModule .lineComment newline (offset + 3) rest
  | .between, newline, offset, c :: rest =>
    if isLineEnd c then skipTrivia isModule .between true (offset + 1) rest
    else if isSpace c then skipTrivia isModule .between newline (offset + 1) rest
    else ⟨⟨offset, c :: rest⟩, newline, false⟩
  | .lineComment, newline, offset, [] => ⟨⟨offset, []⟩, newline, false⟩
  | .lineComment, newline, offset, c :: rest =>
    if isLineEnd c then skipTrivia isModule .between true (offset + 1) rest
    else skipTrivia isModule .lineComment newline (offset + 1) rest
  | .blockComment, newline, offset, [] => ⟨⟨offset, []⟩, newline, true⟩
  | .blockComment, newline, offset, '*' :: '/' :: rest =>
    skipTrivia isModule .between newline (offset + 2) rest
  | .blockComment, newline, offset, c :: rest =>
    skipTrivia isModule .blockComment (newline || isLineEnd c) (offset + 1) rest

/-! ## Numbers -/

/-- Whether digits are of a class and every separator stands between two of them. -/
def isDigits (isDigit : Char → Bool) (digits : List Char) : Bool :=
  (Text.pieces '_' digits).all fun piece => !piece.isEmpty && piece.all isDigit

def isDecimalRun (c : Char) : Bool := c.isDigit || c = '_'

/-- The digits of the numbers whose second character is this one. -/
def radixDigits? (c : Char) : Option (Char → Bool) :=
  if c = 'x' || c = 'X' then some fun c => (hexDigit? c).isSome
  else if c = 'o' || c = 'O' then some Quoted.isOctal
  else if c = 'b' || c = 'B' then some fun c => c = '0' || c = '1'
  else none

/-- The length of an exponent; none when it has no digits. -/
def exponentLength : List Char → Option Nat
  | [] => some 0
  | c :: rest =>
    if c = 'e' || c = 'E' then
      let signed := rest.head?.any fun c => c = '+' || c = '-'
      let digits := (if signed then rest.drop 1 else rest).takeWhile isDecimalRun
      if isDigits Char.isDigit digits then
        some (digits.length + (if signed then 2 else 1))
      else none
    else some 0

/-- The length of the part of a number from its point on. -/
def fractionLength (text : List Char) : Option Nat :=
  match text with
  | '.' :: rest =>
    let digits := rest.takeWhile isDecimalRun
    if digits.isEmpty || isDigits Char.isDigit digits then
      (exponentLength (rest.drop digits.length)).map (digits.length + 1 + ·)
    else none
  | _ => exponentLength text

/-- The length of a number, unless it is malformed. -/
def numberLength? (text : List Char) : Option Nat :=
  match text with
  | '0' :: c :: rest =>
    match radixDigits? c with
    | some isDigit =>
      let digits := rest.takeWhile fun c => c.isAlphanum || c = '_'
      let whole := if digits.getLast? = some 'n' then digits.dropLast else digits
      if isDigits isDigit whole then some (digits.length + 2) else none
    | none =>
      if isDecimalRun c then
        let digits := (c :: rest).takeWhile isDecimalRun
        if !digits.all Char.isDigit then none
        else if digits.all Quoted.isOctal then some (digits.length + 1)
        else (fractionLength ((c :: rest).drop digits.length)).map (digits.length + 1 + ·)
      else if c = 'n' then some 2
      else (fractionLength (c :: rest)).map (1 + ·)
  | _ =>
    let digits := text.takeWhile isDecimalRun
    let behind := text.drop digits.length
    if digits.isEmpty then fractionLength behind
    else if !isDigits Char.isDigit digits then none
    else if behind.head? = some 'n' then some (digits.length + 1)
    else (fractionLength behind).map (digits.length + ·)

/-- A number must not run into a name or another number. -/
def readNumber (text : List Char) : Token × Nat :=
  match numberLength? text with
  | none => (.malformed, 1)
  | some length =>
    match text.drop length with
    | c :: _ => if Letter.isPart c || c = '\\' then (.malformed, length) else (.number, length)
    | [] => (.number, length)

/-! ## Strings, templates and patterns -/

/-- The length of a string up to its closing quote; `escaped` behind a backslash. -/
def stringLength? (quote : Char) : (escaped : Bool) → List Char → Option Nat
  | _, [] => none
  | true, '\r' :: '\n' :: rest => (stringLength? quote false rest).map (2 + ·)
  | true, _ :: rest => (stringLength? quote false rest).map (1 + ·)
  | false, c :: rest =>
    if c = quote then some 0
    else if c = '\n' || c = '\r' then none
    else (stringLength? quote (c = '\\') rest).map (1 + ·)

/-- Read a string behind its opening quote. -/
def readString (quote : Char) (rest : List Char) : Token × Nat :=
  match stringLength? quote false rest with
  | none => (.malformed, 1)
  | some length =>
    match Quoted.unescape? false (rest.take length) with
    | some value => (.string value, length + 2)
    | none => (.malformed, length + 2)

/-- The length of a piece of a template, and whether it is the last piece. -/
def quasiLength? : (escaped : Bool) → List Char → Option (Nat × Bool)
  | _, [] => none
  | true, _ :: rest => (quasiLength? false rest).map fun (n, last) => (n + 1, last)
  | false, '$' :: '{' :: _ => some (0, false)
  | false, c :: rest =>
    if c = '\x60' then some (0, true)
    else (quasiLength? (c = '\\') rest).map fun (n, last) => (n + 1, last)

/-- Read a piece of a template behind the character that opens it. -/
def readQuasi (rest : List Char) : Token × Nat :=
  match quasiLength? false rest with
  | none => (.malformed, 1)
  | some (length, last) =>
    (.template (.ofWritten (rest.take length)) last, length + (if last then 2 else 3))

/-- The length of a pattern up to its closing slash. -/
def patternLength? : (escaped inClass : Bool) → List Char → Option Nat
  | _, _, [] => none
  | escaped, inClass, c :: rest =>
    if isLineEnd c then none
    else if escaped then (patternLength? false inClass rest).map (1 + ·)
    else if c = '/' && !inClass then some 0
    else
      (patternLength? (c = '\\') (c = '[' || (inClass && c ≠ ']')) rest).map (1 + ·)

/-- Whether the letters behind a pattern are flags, each at most once. -/
def areFlags (flags : List Char) : Bool :=
  flags.all (· ∈ "dgimsuvy".toList) && flags.eraseDups.length = flags.length

/-- Read a pattern behind its opening slash. -/
def readPattern (rest : List Char) : Token × Nat :=
  match patternLength? false false rest with
  | none => (.malformed, 1)
  | some length =>
    let behind := rest.drop (length + 1)
    let flags := behind.takeWhile Letter.isPart
    if areFlags flags && (behind.drop flags.length).head? ≠ some '\\' then
      (.pattern, length + flags.length + 2)
    else (.malformed, length + 2)

/-! ## Names and punctuators -/

/-- Read a name. -/
def readName (text : List Char) : Token × Nat :=
  let written := text.take (Name.length false text)
  match Name.decode? written with
  | some name => (.name name ('\\' ∈ written), written.length)
  | none => (.malformed, 1)

/-- Read a private name behind its number sign. -/
def readPrivateName (rest : List Char) : Token × Nat :=
  match readName rest with
  | (.name value _, length) =>
    if value = "constructor" then (.malformed, length + 1) else (.privateName, length + 1)
  | _ => (.malformed, 1)

/-- The punctuators, of which a longer one stands before those it starts with. Those that begin
with a slash or a `>` are left to the grammar, apart from the division signs. -/
def punctuators : List String := [
  "...", "??=", "??", "?.", "?", "===", "==", "=>", "=", "!==", "!=", "!",
  "<<=", "<<", "<=", "<", "**=", "**", "*=", "*", "++", "+=", "+", "--", "-=", "-",
  "&&=", "&&", "&=", "&", "||=", "||", "|=", "|", "%=", "%", "^=", "^", "/=", "/",
  "\x7b", "\x7d", "(", ")", "[", "]", ";", ",", "~", ":", "@", ".", ">"]

/-- The punctuator at the front of a text. A question mark before a decimal fraction stands
alone. -/
def punctuatorAt? (text : List Char) : Option String :=
  match punctuators.find? fun p => Text.startsWith p.toList text with
  | some "?." => if (text.drop 2).head?.any Char.isDigit then some "?" else some "?."
  | found => found

/-- The longer punctuators that begin with `>`. -/
def greaterThans : List String := [">>>=", ">>>", ">>=", ">>", ">=", ">"]

/-! ## The next token -/

/-- Read the token at the front of a text, and its length. -/
def readToken : List Char → Token × Nat
  | [] => (.endOfInput, 0)
  | c :: rest =>
    if Letter.isStart c || c = '\\' then readName (c :: rest)
    else if c.isDigit || (c = '.' && rest.head?.any Char.isDigit) then readNumber (c :: rest)
    else if c = '"' || c = '\'' then readString c rest
    else if c = '\x60' then readQuasi rest
    else if c = '#' then readPrivateName rest
    else
      match punctuatorAt? (c :: rest) with
      | some p => (.punct p, p.length)
      | none => (.malformed, 1)

/-- Read the next token. -/
def nextLexeme (isModule : Bool) (place : Place) : Lexeme :=
  let trivia := skipTrivia isModule .between (place.offset = 0) place.offset place.rest
  let (token, length) := readToken trivia.place.rest
  { token := if trivia.isOpen then .malformed else token
    here := trivia.place
    after := trivia.place.skip length
    newlineBefore := trivia.newline }

/-- A lexeme that begins at the same place and is read in another way. -/
def Lexeme.again (l : Lexeme) (read : List Char → Token × Nat) : Lexeme :=
  let (token, length) := read l.here.rest
  { l with token, after := l.here.skip length }

/-- The text between markup tags: up to a tag or a brace. A closing mark must not stand in it. -/
def readElementText (text : List Char) : Token × Nat :=
  match text with
  | '<' :: _ => (.punct "<", 1)
  | '{' :: _ => (.punct "\x7b", 1)
  | [] => (.endOfInput, 0)
  | _ =>
    let content := text.takeWhile fun c => c ≠ '<' && c ≠ '{'
    if content.any fun c => c = '>' || c = '}' then (.malformed, content.length)
    else (.elementText, content.length)

/-- A name in markup, in which hyphens may stand. -/
def readElementName (text : List Char) : Token × Nat :=
  let written := text.takeWhile fun c => Letter.isPart c || c = '-'
  match written with
  | c :: _ =>
    if Letter.isStart c then (.name (String.ofList written) false, written.length)
    else (.malformed, 1)
  | [] => (.malformed, 1)

/-- A string in markup, which has no escapes. -/
def readElementString (text : List Char) : Token × Nat :=
  match text with
  | quote :: rest =>
    if quote = '"' || quote = '\'' then
      let content := rest.takeWhile (· ≠ quote)
      if content.length < rest.length then (.string (String.ofList content), content.length + 2)
      else (.malformed, 1)
    else readToken text
  | [] => (.endOfInput, 0)

end MessageCatalog.Script
