import QuadQuery.Regex.CaseFold

/-!
# Sets of characters

A character class is built from stretches of code points by the operations of sets and by
closing under case folding; whether a character belongs to it is computed from these parts.
-/

namespace QuadQuery.Regex

/-- A set of characters, as it is put together. -/
inductive CharClass where
  | stretches (parts : List Stretch)
  | union (a b : CharClass)
  | inter (a b : CharClass)
  | compl (a : CharClass)
  /-- With every character, those that differ from it in case alone. -/
  | foldCase (a : CharClass)
  /-- With every letter of ASCII, the same letter in the other case. -/
  | foldAsciiCase (a : CharClass)
deriving DecidableEq

namespace CharClass

/-- Whether a code point belongs to the class. -/
def contains : CharClass → Nat → Bool
  | .stretches parts, n => parts.any (·.contains n)
  | .union a b, n => a.contains n || b.contains n
  | .inter a b, n => a.contains n && b.contains n
  | .compl a, n => !a.contains n
  | .foldCase a, n => a.contains n || (CaseFold.partners n).any a.contains
  | .foldAsciiCase a, n => a.contains n || (CaseFold.asciiPartner? n).any a.contains

def empty : CharClass :=
  .stretches []

def single (c : Char) : CharClass :=
  .stretches [.range c.toNat c.toNat]

/-- The code points from `first` to `last`. -/
def range (first last : Nat) : CharClass :=
  .stretches [.range first last]

/-- The characters of a few pairs of first and last one. -/
def ofRanges (rs : List (Char × Char)) : CharClass :=
  .stretches (rs.map fun r => .range r.1.toNat r.2.toNat)

def diff (a b : CharClass) : CharClass :=
  .inter a (.compl b)

def symmDiff (a b : CharClass) : CharClass :=
  .inter (.union a b) (.compl (.inter a b))

/-- How many stretches the class is put together from. -/
def pieces : CharClass → Nat
  | .stretches parts => parts.length
  | .union a b => a.pieces + b.pieces
  | .inter a b => a.pieces + b.pieces
  | .compl a => a.pieces + 1
  | .foldCase a => 2 * a.pieces
  | .foldAsciiCase a => 2 * a.pieces

/-- Some code point beyond the 128 of ASCII, but within a byte, belongs to the class. -/
def exceedsAscii (a : CharClass) : Bool :=
  (List.range 128).any fun n => a.contains (128 + n)

end CharClass

end QuadQuery.Regex
