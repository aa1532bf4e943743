import MessageCatalog.Json.Fault
import MessageCatalog.Json.Value

/-!
# Reading JSON

A strict reader in one pass over the characters. It stops at the first problem and knows where that
is. A value that is only skipped is read by looser rules: its depth, the size of its numbers and
the pairing of its surrogates do not matter.
-/

namespace MessageCatalog.Json

/-- A reading step; the place where it stopped is known also after a fault. -/
abbrev Scan := ExceptT Fault (StateM Cursor)

/-- Whether a value is wanted or only skipped. -/
inductive Care where
  | wanted
  | skipped
  deriving DecidableEq, Repr

namespace Scan

/-! ## Places and characters -/

def rest : Scan (List Char) := do return (← get).rest

def skip (count : Nat) : Scan Unit := modify (·.skip count)

/-- Stop with a fault about what was read last. -/
def faultHere {α : Type} (cause : Cause) : Scan α := do
  throw ⟨cause, some (← get).offset⟩

/-- Stop with a fault about what comes next. -/
def faultNext {α : Type} (cause : Cause) : Scan α := do
  let c ← get
  throw ⟨cause, some (if c.rest.isEmpty then c.offset else c.offset + 1)⟩

/-- Stop with a fault whose place is not known yet. -/
def faultUnplaced {α : Type} (cause : Cause) : Scan α := throw ⟨cause, none⟩

/-- Run a step, and place its fault, if it has no place, where the step stopped. -/
def placed {α : Type} (body : Scan α) : Scan α :=
  tryCatch body fun f => do
    match f.place with
    | some _ => throw f
    | none => faultHere f.cause

/-- The outcome of a step, which does not stop the reading. -/
def outcome {α : Type} (body : Scan α) : Scan (Except Fault α) :=
  tryCatch (.ok <$> body) fun f => return .error f

def isSpace (c : Char) : Bool := c = ' ' || c = '\n' || c = '\t' || c = '\r'

/-- Skip white space and look at the next character. -/
def next? : Scan (Option Char) := do
  let left ← rest
  skip (left.takeWhile isSpace).length
  return (← rest).head?

/-- Skip white space and look at the next character, which must be there. -/
def nextOr (cause : Cause) : Scan Char := do
  match ← next? with
  | some c => return c
  | none => faultNext cause

/-! ## Strings -/

def hexDigit? (c : Char) : Option Nat :=
  if c.isDigit then some (c.toNat - '0'.toNat)
  else if 'a' ≤ c ∧ c ≤ 'f' then some (c.toNat - 'a'.toNat + 10)
  else if 'A' ≤ c ∧ c ≤ 'F' then some (c.toNat - 'A'.toNat + 10)
  else none

/-- The number that four hexadecimal digits spell. -/
def hexNumber? (digits : List Char) : Option Nat :=
  digits.foldlM (fun n c => (hexDigit? c).map (n * 16 + ·)) 0

/-- Read the four digits of an escape. -/
def hexEscape : Scan Nat := do
  let c ← get
  if Text.byteLength c.rest < 4 then
    set (Cursor.skip c c.rest.length)
    faultHere .endInString
  match hexNumber? (c.rest.take 4) with
  | some n =>
    skip 4
    return n
  | none => throw ⟨.invalidEscape, some (c.offset + 4)⟩

/-- Take a character of a surrogate pair that must come next. -/
def pairChar (wanted : Char) : Scan Unit := do
  match (← rest).head? with
  | none => faultHere .endInString
  | some c =>
    if c = wanted then skip 1 else faultNext .endOfHexEscape

def isLeading (n : Nat) : Bool := 0xD800 ≤ n && n ≤ 0xDBFF

def isTrailing (n : Nat) : Bool := 0xDC00 ≤ n && n ≤ 0xDFFF

/-- Read an escape of hexadecimal digits, a pair of surrogates taken together. -/
def unicodeEscape (care : Care) : Scan Char := do
  let n ← hexEscape
  if care = .skipped then return Char.ofNat n
  if isTrailing n then faultHere .loneSurrogate
  if !isLeading n then return Char.ofNat n
  pairChar '\\'
  pairChar 'u'
  let m ← hexEscape
  if !isTrailing m then faultHere .loneSurrogate
  return Char.ofNat ((n - 0xD800) * 0x400 + (m - 0xDC00) + 0x10000)

/-- The character of a one letter escape. -/
def shortEscape? : Char → Option Char
  | '"' => some '"'
  | '\\' => some '\\'
  | '/' => some '/'
  | 'b' => some '\x08'
  | 'f' => some '\x0c'
  | 'n' => some '\n'
  | 'r' => some '\r'
  | 't' => some '\t'
  | _ => none

/-- Read what follows a backslash. -/
def escape (care : Care) : Scan Char := do
  match (← rest).head? with
  | none => faultHere .endInString
  | some 'u' =>
    skip 1
    unicodeEscape care
  | some c =>
    match shortEscape? c with
    | some value =>
      skip 1
      return value
    | none => faultNext .invalidEscape

/-- Read the rest of a string behind its opening quote, adding to `before`, which is reversed. -/
def stringLoop (care : Care) : (fuel : Nat) → (before : List Char) → Scan String
  | 0, _ => faultHere .endInString
  | fuel + 1, before => do
    match (← rest).head? with
    | none => faultHere .endInString
    | some '"' =>
      skip 1
      return String.ofList before.reverse
    | some '\\' =>
      skip 1
      let c ← escape care
      stringLoop care fuel (c :: before)
    | some c =>
      if c.toNat < 0x20 then faultNext .controlCharacter
      skip 1
      stringLoop care fuel (c :: before)

/-- Read a string, at whose opening quote the reading is. -/
def string (care : Care) : Scan String := do
  skip 1
  stringLoop care ((← rest).length + 1) []

/-! ## Numbers -/

/-- Take the digits that come next. -/
def takeDigits : Scan (List Char) := do
  let digits := (← rest).takeWhile Char.isDigit
  skip digits.length
  return digits

/-- Read the digits before the point: a lone zero, or digits that do not start with a zero. -/
def wholeDigits (care : Care) : Scan (List Char) := do
  match (← rest).head? with
  | none => if care = .wanted then faultHere .endInValue else faultHere .invalidNumber
  | some '0' =>
    skip 1
    match (← rest).head? with
    | some c => if c.isDigit then faultNext .invalidNumber else return ['0']
    | none => return ['0']
  | some c => if c.isDigit then takeDigits else faultNext .invalidNumber

/-- Read a point and the digits behind it, if there is a point. -/
def fractionDigits (care : Care) : Scan (Option (List Char)) := do
  if (← rest).head? = some '.' then
    skip 1
    let digits ← takeDigits
    if digits.isEmpty then
      if (← rest).isEmpty && care = .wanted then faultNext .endInValue
      else faultNext .invalidNumber
    return some digits
  else return none

/-- Read an exponent, if there is one. -/
def exponentPart (care : Care) : Scan (Option Int) := do
  match (← rest).head? with
  | some 'e' | some 'E' =>
    skip 1
    let sign := (← rest).head?
    if sign = some '+' ∨ sign = some '-' then skip 1
    match (← rest).head? with
    | none => if care = .wanted then faultHere .endInValue else faultHere .invalidNumber
    | some c =>
      if !c.isDigit then faultNext .invalidNumber
      let n : Int := digitsValue (← takeDigits)
      return some (if sign = some '-' then -n else n)
  | _ => return none

/-- Read a number behind its sign. -/
def unsigned (care : Care) (negative : Bool) : Scan Number := do
  let whole ← wholeDigits care
  let fraction ← fractionDigits care
  let exponent ← exponentPart care
  let n : Number := {
    negative
    whole
    fraction := fraction.getD []
    exponent := exponent.getD 0
    integral := fraction.isNone && exponent.isNone }
  if care = .wanted && n.isTooBig then faultHere .numberOutOfRange
  return n

/-- Read a number. -/
def number (care : Care) : Scan Number := do
  if (← rest).head? = some '-' then
    skip 1
    unsigned care true
  else unsigned care false

/-! ## Values -/

/-- Go past the letters of a literal name. -/
def ident : List Char → Scan Unit
  | [] => return
  | wanted :: letters => do
    match (← rest).head? with
    | none => faultHere .endInValue
    | some c =>
      if c ≠ wanted then faultNext .expectedIdent
      skip 1
      ident letters

/-- Go to the next item of a list, if there is one; `first` is for the place behind the bracket. -/
def hasItem (care : Care) (first : Bool) : Scan Bool := do
  let c ← nextOr .endInList
  if c = ']' then return false
  if first then return true
  if c ≠ ',' then faultNext .expectedListCommaOrEnd
  skip 1
  let c ← nextOr .endInValue
  if c = ']' && care = .wanted then faultNext .trailingComma
  return true

/-- Read the rest of a list behind its bracket or behind an item. -/
def itemLoop (care : Care) (item : Scan Value) :
    (fuel : Nat) → (first : Bool) → Scan (List Value)
  | 0, _ => faultHere .endInList
  | fuel + 1, first => do
    if ← hasItem care first then
      let value ← item
      return value :: (← itemLoop care item fuel false)
    else
      skip 1
      return []

/-- Go past the colon behind a key. -/
def colon : Scan Unit := do
  let c ← nextOr .endInObject
  if c = ':' then skip 1 else faultNext .expectedColon

/-- Read a key, which must be a string. -/
def key (care : Care) : Scan String := do
  match ← next? with
  | some '"' => string care
  | some '}' => if care = .wanted then faultNext .trailingComma else faultNext .keyNotString
  | some _ => faultNext .keyNotString
  | none => if care = .wanted then faultNext .endInValue else faultNext .endInObject

/-- Read the key of the next member of an object, if there is one; `first` is for the place behind
the brace. -/
def nextKey? (care : Care) (first : Bool) : Scan (Option String) := do
  let c ← nextOr .endInObject
  if c = '}' then return none
  if !first then
    if c ≠ ',' then faultNext .expectedObjectCommaOrEnd
    skip 1
  return some (← key care)

/-- Read the rest of an object behind its brace or behind a member. -/
def memberLoop (care : Care) (item : Scan Value) :
    (fuel : Nat) → (first : Bool) → Scan (List (String × Value))
  | 0, _ => faultHere .endInObject
  | fuel + 1, first => do
    match ← nextKey? care first with
    | some name =>
      colon
      let value ← item
      return (name, value) :: (← memberLoop care item fuel false)
    | none =>
      skip 1
      return []

/-- Read a value, given how lists and objects are read. -/
def valueWith (care : Care) (list object : Scan Value) : Scan Value := do
  match ← nextOr .endInValue with
  | 'n' =>
    skip 1
    ident "ull".toList
    return .null
  | 't' =>
    skip 1
    ident "rue".toList
    return .bool true
  | 'f' =>
    skip 1
    ident "alse".toList
    return .bool false
  | '"' => return .string (← string care)
  | '[' => list
  | '{' => object
  | c =>
    if c = '-' || c.isDigit then return .number (← number care)
    else faultNext .expectedValue

/-- Read a list, given how its items are read. -/
def list (care : Care) (item : Scan Value) : Scan Value := do
  skip 1
  return .array (← itemLoop care item ((← rest).length + 1) true)

/-- Read an object, given how its members are read. -/
def object (care : Care) (item : Scan Value) : Scan Value := do
  skip 1
  return .ofMembers (← memberLoop care item ((← rest).length + 1) true)

/-- Read a value inside which at most `depth` lists and objects may be nested. -/
def value (care : Care) : (depth : Nat) → Scan Value
  | 0 => valueWith care (faultNext .tooDeep) (faultNext .tooDeep)
  | depth + 1 =>
    valueWith care (list care (value care depth)) (object care (value care depth))

/-- How deep lists and objects of a document may be nested. -/
def maxDepth : Nat := 127

/-- Nothing but white space may follow. -/
def finish : Scan Unit := do
  match ← next? with
  | none => return
  | some _ => faultNext .trailingCharacters

/-- Run a reading of a whole document. -/
def runDocument {α : Type} (body : Scan α) (contents : String) : Except Fault α :=
  (do let a ← body; finish; return a : Scan α).run ⟨contents.toList, 0⟩ |>.1

end Scan

/-- Read a document. -/
def read (contents : String) : Except Fault Value :=
  Scan.runDocument (Scan.value .wanted Scan.maxDepth) contents

end MessageCatalog.Json
