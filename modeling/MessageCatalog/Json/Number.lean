import MessageCatalog.Decimal.Shortest

/-!
# JSON numbers

A number is kept as it is written. What it is when it is talked about depends on its size: a whole
number within 64 bits is an integer, any other is a double.
-/

namespace MessageCatalog.Json

/-- A number as it is written: its digits and the powers of ten behind them. -/
structure Number where
  negative : Bool
  /-- The digits before the point. -/
  whole : List Char
  /-- The digits behind the point. -/
  fraction : List Char
  exponent : Int
  /-- Whether the number is written without a fraction and an exponent. -/
  integral : Bool
  deriving DecidableEq, Repr

/-- The number that a list of digits spells. -/
def digitsValue (digits : List Char) : Nat :=
  digits.foldl (fun n c => n * 10 + (c.toNat - '0'.toNat)) 0

namespace Number

/-! ## Size -/

/-- All digits as one number. -/
def significand (n : Number) : Nat := digitsValue (n.whole ++ n.fraction)

/-- The power of ten that the significand is multiplied with. -/
def scale (n : Number) : Int := n.exponent - n.fraction.length

/-- The least number that rounds to more than the largest double. -/
def doubleLimit : Nat := Nat.pow 2 1024 - Nat.pow 2 970

/-- The number of digits of the largest double. -/
def doubleDigits : Nat := 309

/-- Whether a number is too big for a double. -/
def isTooBig (n : Number) : Bool :=
  if n.significand = 0 || n.scale < 0 - (toString n.significand).length then false
  else if n.scale > doubleDigits then true
  else
    match n.scale with
    | .ofNat e => n.significand * Nat.pow 10 e ≥ doubleLimit
    | .negSucc e => n.significand ≥ doubleLimit * Nat.pow 10 (e + 1)

/-- The whole number within 64 bits that a number is. -/
def integer? (n : Number) : Option Int :=
  if !n.integral then none
  else if n.negative then
    if 0 < n.significand ∧ n.significand ≤ Nat.pow 2 63 then some (-n.significand) else none
  else if n.significand < Nat.pow 2 64 then some n.significand else none

/-! ## Doubles -/

/-- Add digits to a number as long as it stays within 64 bits; with how many were added. -/
def takeDigits (value count : Nat) : List Char → Nat × Nat
  | [] => (value, count)
  | c :: rest =>
    let next := value * 10 + (c.toNat - '0'.toNat)
    if next < Nat.pow 2 64 then takeDigits next (count + 1) rest else (value, count)

/-- The largest power of ten that is scaled with at once. -/
def scaleStep : Nat := 308

/-- Multiply a double with a power of ten, in steps. -/
def scaleDouble : (fuel : Nat) → Float → Int → Float
  | 0, x, _ => x
  | fuel + 1, x, exponent =>
    if exponent.natAbs ≤ scaleStep then
      let power := Float.ofScientific 1 false exponent.natAbs
      if exponent < 0 then x / power else x * power
    else if exponent < 0 then
      scaleDouble fuel (x / Float.ofScientific 1 false scaleStep) (exponent + scaleStep)
    else x

/-- The double for a number, without its sign. Digits beyond 64 bits are dropped, and what is left
is rounded before and after it is scaled. -/
def toDouble (n : Number) : Float :=
  let (whole, kept) := takeDigits 0 0 n.whole
  let (value, behind) := takeDigits whole 0 n.fraction
  let exponent := n.exponent + (n.whole.length - kept) - behind
  if value = 0 then 0 else scaleDouble 4 (Float.ofNat value) exponent

/-! ## Text -/

/-- A decimal of which the first `point` digits stand before the point: positional up to sixteen
digits before the point and five zeros behind it, and with an exponent otherwise. -/
def layOut (digits : List Char) (point : Int) : List Char :=
  let length : Int := digits.length
  if length ≤ point ∧ point ≤ 16 then
    digits ++ List.replicate (point - length).toNat '0' ++ ['.', '0']
  else if 0 < point ∧ point ≤ 16 then
    digits.take point.toNat ++ '.' :: digits.drop point.toNat
  else if -5 < point ∧ point ≤ 0 then
    '0' :: '.' :: List.replicate (-point).toNat '0' ++ digits
  else
    digits.take 1 ++ (if digits.length = 1 then [] else '.' :: digits.drop 1) ++
      'e' :: (toString (point - 1)).toList

/-- The text of a double that is not negative. -/
def doubleText (x : Float) : List Char :=
  let b := Decimal.Binary.ofBits x.toBits
  if b.significand = 0 then ['0', '.', '0']
  else
    let d := Decimal.shortest b
    let digits := (toString d.digits).toList
    let significant := (digits.reverse.dropWhile (· = '0')).reverse
    layOut significant (digits.length + d.exponent)

/-- What a number is called in messages. -/
def description (n : Number) : String :=
  match n.integer? with
  | some value => "integer \x60" ++ toString value ++ "\x60"
  | none =>
    "floating point \x60" ++ (if n.negative then "-" else "") ++
      String.ofList (doubleText n.toDouble) ++ "\x60"

end Number

end MessageCatalog.Json
