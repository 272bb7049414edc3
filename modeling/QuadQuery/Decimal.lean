import QuadQuery.Numeral

/-!
# Decimals of any size

A decimal is an integer of digits with a scale, the number of digits after the point; the
scale may be negative. Trailing zeros are part of the written form but not of the value:
`4.0` and `4.00` are two decimals of one value, and `canonical` picks one of them.
-/

namespace QuadQuery

/-- The number `digits · 10 ^ (-scale)`. -/
structure Decimal where
  digits : Int
  scale : Int
deriving DecidableEq

namespace Decimal

/-- A whole number, without digits after the point. -/
def ofInt (i : Int) : Decimal :=
  ⟨i, 0⟩

def isZero (d : Decimal) : Bool :=
  d.digits == 0

/-- Takes factors of ten out of `n`, at most `bound` of them, each lowering the scale by one. -/
def dropZeros : Nat → Nat → Int → Nat × Int
  | 0, n, scale => (n, scale)
  | bound + 1, n, scale =>
    if n % 10 = 0 then dropZeros bound (n / 10) (scale - 1) else (n, scale)

/-- The decimal of the same value whose digits do not end in a zero; zero has scale zero. -/
def canonical (d : Decimal) : Decimal :=
  if d.digits = 0 then ⟨0, 0⟩
  else
    let (n, scale) := dropZeros d.digits.natAbs d.digits.natAbs d.scale
    ⟨d.digits.sign * n, scale⟩

/-- How many decimal digits `n` is written with. -/
def digitCount (n : Nat) : Nat :=
  (Nat.toDigits 10 n).length

/-- Orders two non-zero magnitudes: by the position of the leading digit, and on a tie by the
digits brought to a common scale. -/
def compareMagnitude (a b : Decimal) : Ordering :=
  let n := a.digits.natAbs
  let m := b.digits.natAbs
  let top := max a.scale b.scale
  (compare (digitCount n - a.scale) (digitCount m - b.scale)).then
    (compare (n * Nat.pow 10 (top - a.scale).toNat) (m * Nat.pow 10 (top - b.scale).toNat))

/-- Orders decimals by value. -/
def compare (a b : Decimal) : Ordering :=
  match Ord.compare a.digits.sign b.digits.sign with
  | .eq =>
    if a.digits = 0 then .eq
    else if 0 < a.digits then compareMagnitude a b
    else compareMagnitude b a
  | order => order

/-! ## Reading -/

/-- Digits with underscores between or after them, but not in front. -/
def readDigits? (cs : List Char) : Option Nat :=
  match cs with
  | [] => none
  | '_' :: _ => none
  | cs =>
    let digits := cs.filter (· != '_')
    if digits.all Char.isDigit then some (Numeral.ofDigits digits) else none

/-- Digits after at most one sign. -/
def readSigned? : List Char → Option Int
  | '-' :: cs => (readDigits? cs).map fun n => -(n : Int)
  | '+' :: cs => (readDigits? cs).map Int.ofNat
  | cs => (readDigits? cs).map Int.ofNat

/-- An exponent: plain digits after at most one sign. -/
def readExponent? (cs : List Char) : Option Int :=
  let plain (cs : List Char) : Option Nat :=
    if Numeral.isNumeral cs then some (Numeral.ofDigits cs) else none
  match cs with
  | '-' :: cs => (plain cs).map fun n => -(n : Int)
  | '+' :: cs => (plain cs).map Int.ofNat
  | cs => (plain cs).map Int.ofNat

/-- A scale is kept in 64 bits. -/
def scaleFits (scale : Int) : Bool :=
  Numeral.integerMin ≤ scale && scale ≤ Numeral.integerMax

/-- Reads the digits before an exponent: a point may stand anywhere among them, and the digits
after it make the scale. -/
def readBase? (cs : List Char) (exponent : Int) : Option Decimal :=
  let lead := cs.takeWhile (· != '.')
  let trail := (cs.dropWhile (· != '.')).drop 1
  let scale := (trail.filter (· != '_')).length - exponent
  match readSigned? (lead ++ trail) with
  | some digits => if scaleFits scale then some ⟨digits, scale⟩ else none
  | none => none

/-- Reads an optional sign, digits with an optional point and an optional exponent. -/
def ofChars? (cs : List Char) : Option Decimal :=
  let isMark (c : Char) : Bool := c == 'e' || c == 'E'
  let base := cs.takeWhile (!isMark ·)
  match cs.dropWhile (!isMark ·) with
  | [] => readBase? base 0
  | _ :: exponent => (readExponent? exponent).bind (readBase? base)

def ofText? (text : String) : Option Decimal :=
  ofChars? text.toList

/-! ## Writing -/

/-- Digits with a point in front of the last `places` of them. -/
def withPoint (digits : String) (places : Nat) : String :=
  let cs := digits.toList
  let padded := List.replicate (places + 1 - cs.length) '0' ++ cs
  let whole := padded.length - places
  String.ofList (padded.take whole ++ '.' :: padded.drop whole)

/-- Digits with a point after the first, if there are more. -/
def leadingPoint (digits : String) : String :=
  match digits.toList with
  | c :: c' :: cs => String.ofList (c :: '.' :: c' :: cs)
  | cs => String.ofList cs

/-- A magnitude: with an exponent when more than five zeros would follow the point or more than
fifteen the digits, and in full otherwise. -/
def magnitudeText (n : Nat) (scale : Int) : String :=
  let digits := toString n
  let count := digits.length
  if scale - count > 5 then
    leadingPoint digits ++ "E-" ++ toString (scale - (count - 1)).toNat
  else if scale < -15 then
    digits ++ "e+" ++ toString (-scale).toNat
  else if scale ≤ 0 then
    digits ++ String.ofList (List.replicate (-scale).toNat '0')
  else
    withPoint digits scale.toNat

/-- Zero is written `0` whatever its scale; other decimals keep their trailing zeros. -/
def text (d : Decimal) : String :=
  if d.digits = 0 then "0"
  else if d.digits < 0 then "-" ++ magnitudeText d.digits.natAbs d.scale
  else magnitudeText d.digits.natAbs d.scale

end Decimal

end QuadQuery
