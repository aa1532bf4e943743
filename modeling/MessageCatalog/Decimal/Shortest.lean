/-!
# The shortest decimal of a double

A double stands for `significand * 2 ^ exponent`. Every decimal closer to it than to its neighbours
reads back as that double; of those the one with the fewest digits is chosen, and of several such
the nearest. All arithmetic is exact.
-/

namespace MessageCatalog

/-- A decimal without a sign: `digits * 10 ^ exponent`. -/
structure Decimal where
  digits : Nat
  exponent : Int
  deriving DecidableEq, Repr

namespace Decimal

/-- A double that is neither infinite nor no number, without its sign. -/
structure Binary where
  significand : Nat
  exponent : Int
  /-- Whether the next smaller double is only half as far away as the next larger one. -/
  isNarrowBelow : Bool
  deriving DecidableEq, Repr

/-- The number that the bits of a double stand for. -/
def Binary.ofBits (bits : UInt64) : Binary :=
  let fraction : Nat := bits.toNat % Nat.pow 2 52
  let scale : Nat := bits.toNat / Nat.pow 2 52 % Nat.pow 2 11
  if scale = 0 then ⟨fraction, -1074, false⟩
  else ⟨Nat.pow 2 52 + fraction, (scale : Int) - 1075, fraction = 0 && scale > 1⟩

/-- A fraction of two numbers. -/
structure Fraction where
  numerator : Nat
  denominator : Nat

/-- `n * 2 ^ twos * 10 ^ tens` as a fraction. -/
def scaled (n : Nat) (twos tens : Int) : Fraction :=
  ⟨n * Nat.pow 2 twos.toNat * Nat.pow 10 tens.toNat,
    Nat.pow 2 (-twos).toNat * Nat.pow 10 (-tens).toNat⟩

/-- Whether `decimal` reads back as `b`. A point halfway to a neighbour does if the significand is
even. -/
def readsBack (b : Binary) (decimal : Decimal) : Bool :=
  let point := scaled (4 * decimal.digits) (-b.exponent) decimal.exponent
  let low := (4 * b.significand - if b.isNarrowBelow then 1 else 2) * point.denominator
  let high := (4 * b.significand + 2) * point.denominator
  if b.significand % 2 = 0 then low ≤ point.numerator && point.numerator ≤ high
  else low < point.numerator && point.numerator < high

/-- The nearest decimal with this exponent that reads back, if one does. -/
def onGrid? (b : Binary) (exponent : Int) : Option Decimal :=
  let value := scaled b.significand b.exponent (-exponent)
  let below := value.numerator / value.denominator
  let rest := value.numerator % value.denominator
  let isBelowNearer :=
    2 * rest < value.denominator || (2 * rest = value.denominator && below % 2 = 0)
  let (first, second) := if isBelowNearer then (below, below + 1) else (below + 1, below)
  [⟨first, exponent⟩, ⟨second, exponent⟩] |>.find? (readsBack b)

/-- The first decimal that reads back on `count` grids, each ten times as fine as the one
before. -/
def search (b : Binary) : (count : Nat) → (exponent : Int) → Decimal
  | 0, _ => ⟨b.significand, 0⟩
  | count + 1, exponent =>
    match onGrid? b exponent with
    | some d => d
    | none => search b count (exponent - 1)

/-- The number of digits before the point of `b`, or less than one by the zeros behind the point. -/
def magnitude (b : Binary) : Int :=
  let shift := 400
  let value := scaled b.significand b.exponent shift
  ((Nat.toDigits 10 (value.numerator / value.denominator)).length : Int) - shift

/-- The shortest decimal that reads back as `b`; seventeen digits are always enough. -/
def shortest (b : Binary) : Decimal :=
  search b 18 (magnitude b)

end Decimal

end MessageCatalog
