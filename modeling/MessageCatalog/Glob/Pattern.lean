import MessageCatalog.Text

/-!
# Wildcards

A pattern for one name: `*` stands for any characters, `?` for one, and brackets for one of a set.
Two stars stand for any number of directories and must be all there is between two slashes.
-/

namespace MessageCatalog.Glob

/-- Why a text is no pattern. -/
inductive Problem where
  | wildcards
  | recursiveWildcards
  | range
  deriving DecidableEq, Repr

/-- A problem and the number of characters before it. -/
structure PatternError where
  problem : Problem
  position : Nat
  deriving DecidableEq, Repr

def Problem.message : Problem → String
  | wildcards => "wildcards are either regular \x60*\x60 or recursive \x60**\x60"
  | recursiveWildcards => "recursive wildcards must form a single path component"
  | range => "invalid range pattern"

def PatternError.message (e : PatternError) : String :=
  "Pattern syntax error near position " ++ toString e.position ++ ": " ++ e.problem.message

/-- One of the characters from `first` to `last`. -/
structure CharRange where
  first : Char
  last : Char
  deriving DecidableEq, Repr

def CharRange.contains (r : CharRange) (c : Char) : Bool := r.first ≤ c && c ≤ r.last

/-- A piece of a pattern. -/
inductive Wildcard where
  | char (c : Char)
  | anyChar
  | anySequence
  | directories
  | oneOf (set : List CharRange)
  | noneOf (set : List CharRange)
  deriving DecidableEq, Repr

/-- A pattern for a name. -/
abbrev Pattern := List Wildcard

/-- Whether a piece that stands for one character stands for this one. -/
def Wildcard.accepts : Wildcard → Char → Bool
  | char d, c => c = d
  | anyChar, _ => true
  | oneOf set, c => set.any (·.contains c)
  | noneOf set, c => !set.any (·.contains c)
  | anySequence, _ | directories, _ => false

/-! ## Reading patterns -/

/-- The characters and ranges between brackets. -/
def ranges : List Char → List CharRange
  | a :: '-' :: b :: rest => ⟨a, b⟩ :: ranges rest
  | c :: rest => ⟨c, c⟩ :: ranges rest
  | [] => []

/-- The text up to the bracket that closes a set, of which the first character is taken as it
stands; and the text behind the bracket. -/
def cutAtBracket? : List Char → Option (List Char × List Char)
  | [] => none
  | c :: rest => (Text.cutAt? [']'] rest).map fun (set, behind) => (c :: set, behind)

/-- Read a set behind its opening bracket. -/
def readSet? : List Char → Option (Wildcard × List Char)
  | '!' :: rest => (cutAtBracket? rest).map fun (set, behind) => (.noneOf (ranges set), behind)
  | rest => (cutAtBracket? rest).map fun (set, behind) => (.oneOf (ranges set), behind)

/-- Read stars at a position, of which `count` stand together; the pieces they are, and whether the
slash behind them belongs to them. -/
def readStars (atStart : Bool) (position count : Nat) (behind : List Char) :
    Except PatternError (Wildcard × Bool) :=
  if count = 1 then .ok (.anySequence, false)
  else if count > 2 then .error ⟨.wildcards, position + 2⟩
  else if !atStart then .error ⟨.recursiveWildcards, position - 1⟩
  else
    match behind with
    | [] => .ok (.directories, false)
    | c :: _ =>
      if c = '/' then .ok (.directories, true) else .error ⟨.recursiveWildcards, position + 2⟩

/-- Read a pattern from a position on, at which a part of a path may begin; at most `fuel` pieces. -/
def readFrom : (fuel : Nat) → (atStart : Bool) → (position : Nat) → List Char →
    Except PatternError Pattern
  | 0, _, _, _ => .ok []
  | _, _, _, [] => .ok []
  | fuel + 1, atStart, position, c :: rest =>
    if c = '?' then do
      return .anyChar :: (← readFrom fuel false (position + 1) rest)
    else if c = '*' then do
      let count := 1 + (rest.takeWhile (· = '*')).length
      let behind := rest.drop (count - 1)
      let (piece, withSlash) ← readStars atStart position count behind
      let length := if withSlash then count + 1 else count
      let left := if withSlash then behind.drop 1 else behind
      return piece :: (← readFrom fuel withSlash (position + length) left)
    else if c = '[' then
      match readSet? rest with
      | none => .error ⟨.range, position⟩
      | some (piece, behind) => do
        let length := 1 + rest.length - behind.length
        return piece :: (← readFrom fuel false (position + length) behind)
    else do
      return .char c :: (← readFrom fuel (c = '/') (position + 1) rest)

/-- Read a pattern. -/
def Pattern.read (text : List Char) : Except PatternError Pattern :=
  readFrom (text.length + 1) true 0 text

namespace Pattern

/-- The name that a pattern without wildcards stands for. -/
def literal? (pattern : Pattern) : Option String :=
  (pattern.mapM fun
    | Wildcard.char c => some c
    | _ => none).map String.ofList

/-- Whether a pattern stands for directories at any depth. -/
def isRecursive (pattern : Pattern) : Bool := .directories ∈ pattern

/-- A text and what is left of it after each of its characters. -/
def suffixes : List Char → List (List Char)
  | [] => [[]]
  | c :: rest => (c :: rest) :: suffixes rest

/-- Whether a pattern stands for a name. -/
def accepts : Pattern → List Char → Bool
  | [], name => name.isEmpty
  | .anySequence :: rest, name | .directories :: rest, name => (suffixes name).any (accepts rest)
  | _ :: _, [] => false
  | piece :: rest, c :: name => piece.accepts c && accepts rest name

end Pattern

end MessageCatalog.Glob
