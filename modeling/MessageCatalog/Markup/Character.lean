/-!
# Characters of markup

The characters that a document may hold, and those that names are made of, as the XML 1.0
recommendation lists them.
-/

namespace MessageCatalog.Markup

/-- Space, tab, newline and carriage return. -/
def isSpace (c : Char) : Bool :=
  c = ' ' || c = '\t' || c = '\n' || c = '\r'

/-- Whether a character may stand in a document at all. -/
def isXmlChar (c : Char) : Bool :=
  if c.toNat < 0x20 then c = '\t' || c = '\n' || c = '\r'
  else c.toNat ≠ 0xFFFE && c.toNat ≠ 0xFFFF

/-- The characters beyond ASCII that a name may start with. -/
def nameStartRanges : List (Nat × Nat) :=
  [(0xC0, 0xD6), (0xD8, 0xF6), (0xF8, 0x2FF), (0x370, 0x37D), (0x37F, 0x1FFF), (0x200C, 0x200D),
    (0x2070, 0x218F), (0x2C00, 0x2FEF), (0x3001, 0xD7FF), (0xF900, 0xFDCF), (0xFDF0, 0xFFFD),
    (0x10000, 0xEFFFF)]

/-- The further characters beyond ASCII that a name may hold. -/
def nameRestRanges : List (Nat × Nat) :=
  [(0xB7, 0xB7), (0x300, 0x36F), (0x203F, 0x2040)]

def inRanges (ranges : List (Nat × Nat)) (c : Char) : Bool :=
  ranges.any fun (low, high) => low ≤ c.toNat && c.toNat ≤ high

/-- Whether a name may start with a character. -/
def isNameStart (c : Char) : Bool :=
  if c.toNat ≤ 128 then c.isAlpha || c = ':' || c = '_' else inRanges nameStartRanges c

/-- Whether a name may hold a character. -/
def isNameChar (c : Char) : Bool :=
  if c.toNat ≤ 128 then c.isAlphanum || c = ':' || c = '_' || c = '-' || c = '.'
  else inRanges nameStartRanges c || inRanges nameRestRanges c

/-- The first byte of a character in UTF-8. -/
def firstByte (c : Char) : Nat :=
  let n := c.toNat
  if n < 0x80 then n
  else if n < 0x800 then 0xC0 + n / 0x40
  else if n < 0x10000 then 0xE0 + n / 0x1000
  else 0xF0 + n / 0x40000

/-- The character shown for the byte where another one was expected. -/
def byteShown (c : Char) : Char := Char.ofNat (firstByte c)

end MessageCatalog.Markup
