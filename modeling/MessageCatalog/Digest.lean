/-!
# Message digests

The id of a message without an id of its own is a number computed from its text and meaning: two
passes of the 32 bit Jenkins hash over the UTF-8 bytes, joined to 64 bits, of which 63 are kept.
-/

namespace MessageCatalog.Digest

/-- The three words that the hash works on. -/
structure Lanes where
  a : UInt32
  b : UInt32
  c : UInt32
  deriving DecidableEq, Repr

namespace Lanes

/-- Add a word to each lane. -/
def add (l : Lanes) (x y z : UInt32) : Lanes :=
  ⟨l.a + x, l.b + y, l.c + z⟩

/-- One round of mixing: each lane loses the other two and takes a shifted copy of its neighbour. -/
def round (shiftA shiftB shiftC : UInt32) (l : Lanes) : Lanes :=
  let a := (l.a - l.b - l.c) ^^^ (l.c >>> shiftA)
  let b := (l.b - l.c - a) ^^^ (a <<< shiftB)
  let c := (l.c - a - b) ^^^ (b >>> shiftC)
  ⟨a, b, c⟩

/-- The mixing step of the hash, three rounds. -/
def mix (l : Lanes) : Lanes :=
  ((l.round 13 8 13).round 12 16 5).round 3 10 15

end Lanes

/-! ## Reading bytes -/

/-- The word of four bytes, the lowest first. -/
def word (b0 b1 b2 b3 : UInt8) : UInt32 :=
  b0.toUInt32 + (b1.toUInt32 <<< 8) + (b2.toUInt32 <<< 16) + (b3.toUInt32 <<< 24)

/-- The word of the four bytes from an index on, if they are all there. -/
def wordAt? (bytes : ByteArray) (index : Nat) : Option UInt32 :=
  if h : index + 4 ≤ bytes.size then
    some (word bytes[index] bytes[index + 1] bytes[index + 2] bytes[index + 3])
  else none

/-- How a pass gets at its bytes: words and single bytes by index. -/
structure Access (m : Type → Type) where
  word : (index : Nat) → m UInt32
  byte : (index : Nat) → m UInt8

/-- Access to a byte string, with zeros where it has no bytes. -/
def Access.padded (bytes : ByteArray) : Access Id where
  word index := pure ((wordAt? bytes index).getD 0)
  byte index := pure (bytes[index]?.getD 0)

/-! ## One pass -/

section Pass

variable {m : Type → Type} [Monad m]

/-- Take in all blocks of twelve bytes from an index on; also gives the index behind them. -/
def absorb (bytes : Access m) (length index : Nat) (l : Lanes) : m (Lanes × Nat) := do
  if index + 12 ≤ length then
    let x ← bytes.word index
    let y ← bytes.word (index + 4)
    let z ← bytes.word (index + 8)
    absorb bytes length (index + 12) (l.add x y z).mix
  else return (l, index)
termination_by length - index

/-- Add up to three bytes to a word, the first of them from the bit `shift` on. -/
def addBytes (bytes : Access m) (shift : UInt32) (count index : Nat) (x : UInt32) : m UInt32 := do
  let mut x := x
  let mut index := index
  if 1 ≤ count then
    x := x + ((← bytes.byte index).toUInt32 <<< shift)
    index := index + 1
  if 2 ≤ count then
    x := x + ((← bytes.byte index).toUInt32 <<< (shift + 8))
    index := index + 1
  if count = 3 then
    x := x + ((← bytes.byte index).toUInt32 <<< (shift + 16))
  return x

/-- Take in the bytes from an index on, of which there are fewer than twelve: a word for each lane
as far as they go. The lowest byte of the last word is that of the total length. -/
def absorbTail (bytes : Access m) (length index : Nat) (l : Lanes) : m Lanes := do
  let left := length - index
  let c := l.c + UInt32.ofNat length
  if 4 ≤ left then
    let x ← bytes.word index
    if 8 ≤ left then
      let y ← bytes.word (index + 4)
      let c ← addBytes bytes 8 (left - 8) (index + 8) c
      return (⟨l.a + x, l.b + y, c⟩ : Lanes).mix
    else
      let b ← addBytes bytes 0 (left - 4) (index + 4) l.b
      return (⟨l.a + x, b, c⟩ : Lanes).mix
  else
    let a ← addBytes bytes 0 left index l.a
    return (⟨a, l.b, c⟩ : Lanes).mix

/-- The constant that two of the lanes start with. -/
def golden : UInt32 := 0x9e3779b9

/-- One pass over `length` bytes, for a seed. -/
def pass (bytes : Access m) (length : Nat) (seed : UInt32) : m UInt32 := do
  let (l, index) ← absorb bytes length 0 ⟨golden, golden, seed⟩
  return (← absorbTail bytes length index l).c

end Pass

/-- The 32 bit hash of a byte string, for a seed. -/
def hash32 (seed : UInt32) (bytes : ByteArray) : UInt32 :=
  (pass (.padded bytes) bytes.size seed).run

/-! ## Fingerprints and ids -/

/-- The seed of the pass that gives the low half of a fingerprint. -/
def lowSeed : UInt32 := 102072

/-- The 64 bit fingerprint of a text. The values 0 and 1 are not used: such a pair of halves is
changed by fixed constants. -/
def fingerprint (text : String) : UInt64 :=
  let bytes := text.toUTF8
  let high := hash32 0 bytes
  let low := hash32 lowSeed bytes
  if high = 0 ∧ (low = 0 ∨ low = 1) then
    ((high ^^^ 0x130f9bef).toUInt64 <<< 32) ||| (low ^^^ 0x94a0a928).toUInt64
  else (high.toUInt64 <<< 32) ||| low.toUInt64

/-- A word turned left by one bit. -/
def rotateOne (x : UInt64) : UInt64 :=
  (x <<< 1) ||| (x >>> 63)

/-- The id of a text with a meaning, which counts when it is not empty. A description never does. -/
def messageId (text meaning : String) : String :=
  let own := fingerprint text
  let joined := if meaning.isEmpty then own else rotateOne own + fingerprint meaning
  toString (joined &&& 0x7fffffffffffffff).toNat

end MessageCatalog.Digest
