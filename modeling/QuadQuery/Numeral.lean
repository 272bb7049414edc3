/-!
# Digits and blanks

The value of a row of decimal digits, whole numbers of 64 bits, and the blank characters.
-/

namespace QuadQuery

namespace Numeral

/-- The value of a digit character. -/
def digitValue (c : Char) : Nat :=
  c.toNat - '0'.toNat

/-- The number written by digit characters, the first the most significant. -/
def ofDigits (cs : List Char) : Nat :=
  cs.foldl (fun n c => 10 * n + digitValue c) 0

/-- There are characters, and all of them are digits. -/
def isNumeral (cs : List Char) : Bool :=
  !cs.isEmpty && cs.all Char.isDigit

/-- The digits of `n` with zeros in front up to `width` places. -/
def padded (width n : Nat) : List Char :=
  let digits := Nat.toDigits 10 n
  List.replicate (width - digits.length) '0' ++ digits

end Numeral

/-! ## Whole numbers in 64 bits -/

/-- Why a text is not a whole number of 64 bits. -/
inductive IntegerFault where
  | malformed
  | tooLarge
  | tooSmall
deriving DecidableEq

namespace IntegerFault

def message : IntegerFault → String
  | .malformed => "invalid digit found in string"
  | .tooLarge => "number too large to fit in target type"
  | .tooSmall => "number too small to fit in target type"

end IntegerFault

namespace Numeral

/-- The least and the greatest whole number of 64 bits, one of them for the sign. -/
def integerMin : Int := -0x8000000000000000

@[inherit_doc integerMin]
def integerMax : Int := 0x7FFFFFFFFFFFFFFF

/-- The greatest whole number of 64 bits without a sign. -/
def naturalMax : Nat := 0xFFFFFFFFFFFFFFFF

/-- Reads digits after at most one sign. -/
def readInteger : List Char → Except IntegerFault Int
  | '-' :: cs =>
    if !isNumeral cs then .error .malformed
    else if -(ofDigits cs : Int) < integerMin then .error .tooSmall
    else .ok (-(ofDigits cs : Int))
  | '+' :: cs => unsigned cs
  | cs => unsigned cs
where
  unsigned (cs : List Char) : Except IntegerFault Int :=
    if !isNumeral cs then .error .malformed
    else if integerMax < (ofDigits cs : Int) then .error .tooLarge
    else .ok (ofDigits cs : Int)

/-- Reads digits after at most one plus sign. -/
def readNatural? (cs : List Char) : Option Nat :=
  let digits := match cs with
    | '+' :: cs => cs
    | cs => cs
  if isNumeral digits && ofDigits digits ≤ naturalMax then some (ofDigits digits) else none

end Numeral

/-! ## Blanks -/

/-- The blank characters, those with the property White_Space. -/
def isBlank (c : Char) : Bool :=
  let n := c.toNat
  (0x9 ≤ n && n ≤ 0xD) || n == 0x20 || n == 0x85 || n == 0xA0 || n == 0x1680
    || (0x2000 ≤ n && n ≤ 0x200A) || n == 0x2028 || n == 0x2029 || n == 0x202F || n == 0x205F
    || n == 0x3000

end QuadQuery
