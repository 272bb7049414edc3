/-!
# Stretches of code points

A stretch is a run of code points in even steps. Larger sets are written as tables of them.
-/

namespace QuadQuery.Regex

/-- The code points `first`, `first + step`, … up to `last`. -/
structure Stretch where
  first : Nat
  last : Nat
  step : Nat
deriving DecidableEq

namespace Stretch

def contains (s : Stretch) (n : Nat) : Bool :=
  s.first ≤ n && n ≤ s.last && (n - s.first) % s.step == 0

/-- All code points from `first` to `last`. -/
def range (first last : Nat) : Stretch :=
  ⟨first, last, 1⟩

/-! ## Tables

A table is some lines of words. A word is a stretch: its first code point in hexadecimal digits,
then the last one after a hyphen and the step after a slash where they differ from the first
one and from one. In some tables a distance follows after a plus sign.
-/

def hexValue (c : Char) : Nat :=
  if c.isDigit then c.toNat - '0'.toNat
  else if c.isUpper then c.toNat - 'A'.toNat + 10
  else c.toNat - 'a'.toNat + 10

/-- The number written by the leading hexadecimal digits, and the rest. -/
def takeHex (cs : List Char) : Nat × List Char :=
  let isHex (c : Char) : Bool := c.isDigit || ('A' ≤ c && c ≤ 'F')
  ((cs.takeWhile isHex).foldl (fun n c => 16 * n + hexValue c) 0, cs.dropWhile isHex)

/-- The number written by the leading decimal digits, and the rest. -/
def takeNumber (cs : List Char) : Nat × List Char :=
  ((cs.takeWhile Char.isDigit).foldl (fun n c => 10 * n + hexValue c) 0, cs.dropWhile Char.isDigit)

/-- One word of a table, with the distance zero if it has none. -/
def ofWord (word : String) : Stretch × Nat :=
  let (first, cs) := takeHex word.toList
  let (last, cs) := match cs with
    | '-' :: cs => takeHex cs
    | cs => (first, cs)
  let (step, cs) := match cs with
    | '/' :: cs => takeNumber cs
    | cs => (1, cs)
  match cs with
  | '+' :: cs => (⟨first, last, step⟩, (takeNumber cs).1)
  | _ => (⟨first, last, step⟩, 0)

/-- The stretches of a table with their distances. -/
def tableWithDistance (lines : List String) : List (Stretch × Nat) :=
  lines.flatMap fun line => (line.splitOn " ").map ofWord

/-- The stretches of a table. -/
def table (lines : List String) : List Stretch :=
  (tableWithDistance lines).map (·.1)

end Stretch

end QuadQuery.Regex
