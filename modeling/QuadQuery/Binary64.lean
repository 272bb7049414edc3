import QuadQuery.Decimal

/-!
# Binary floating point numbers

Numbers with 53 significant binary digits, as settings may be given. They are kept exactly, as
a whole number times a power of two, so that reading and writing are whole-number arithmetic:
a text is read as the nearest such number, and a number is written with the fewest digits that
are read as it.
-/

namespace QuadQuery

/-- A floating point number. -/
inductive Binary64 where
  /-- The number `significand · 2 ^ exponent`. -/
  | finite (negative : Bool) (significand : Nat) (exponent : Int)
  | infinite (negative : Bool)
  | nan
deriving DecidableEq

namespace Binary64

/-- How many binary digits a significand has. -/
def precision : Nat := 53

/-- The least number with more binary digits than that. -/
def significandLimit : Nat := 0x20000000000000

/-- The exponents of the smallest and of the greatest numbers. -/
def leastExponent : Int := -1074

@[inherit_doc leastExponent]
def greatestExponent : Int := 971

/-! ## Rounding -/

/-- The quotient `num / den` divided by `base ^ power`, as a quotient. -/
def shifted (base : Nat) (power : Int) (num den : Nat) : Nat × Nat :=
  (num * Nat.pow base (-power).toNat, den * Nat.pow base power.toNat)

/-- The whole number nearest to a quotient; a half goes to the even neighbour. -/
def roundHalfEven (num den : Nat) : Nat :=
  let rest := 2 * (num % den)
  if rest < den || (rest == den && num / den % 2 == 0) then num / den else num / den + 1

/-- The exponent that leaves 53 binary digits before the point of a quotient, or fewer if it is
the least one. -/
def exponentOf (num den : Nat) : Int :=
  let guess := max ((num.log2 : Int) - den.log2 - precision) leastExponent
  let (n, d) := shifted 2 guess num den
  if n / d < significandLimit then guess else guess + 1

/-- The floating point number nearest to a quotient. -/
def ofQuotient (negative : Bool) (num den : Nat) : Binary64 :=
  let exponent := exponentOf num den
  let (n, d) := shifted 2 exponent num den
  let rounded := roundHalfEven n d
  let (significand, exponent) :=
    if rounded = significandLimit then (significandLimit / 2, exponent + 1) else (rounded, exponent)
  if greatestExponent < exponent then .infinite negative
  else .finite negative significand exponent

def zero (negative : Bool) : Binary64 :=
  .finite negative 0 leastExponent

/-- Digits before the point beyond which every number is infinite, and zeros behind it beyond
which every number is zero. -/
def widestPoint : Int := 400

/-- The floating point number nearest to `digits · 10 ^ power`. -/
def ofScientific (negative : Bool) (digits : Nat) (power : Int) : Binary64 :=
  let point := Decimal.digitCount digits + power
  if digits = 0 || point < -widestPoint then zero negative
  else if widestPoint < point then .infinite negative
  else
    let (num, den) := shifted 10 (-power) digits 1
    ofQuotient negative num den

/-! ## Reading -/

/-- Digits with an optional point among them and an optional exponent behind them, as a number of
digits and a power of ten. -/
def readMagnitude? (cs : List Char) : Option (Nat × Int) :=
  let isMark (c : Char) : Bool := c == 'e' || c == 'E'
  let base := cs.takeWhile (!isMark ·)
  let whole := base.takeWhile (· != '.')
  let places := (base.dropWhile (· != '.')).drop 1
  let power := match cs.dropWhile (!isMark ·) with
    | [] => some 0
    | _ :: exponent => Decimal.readExponent? exponent
  if Numeral.isNumeral (whole ++ places) then
    power.map fun power => (Numeral.ofDigits (whole ++ places), power - places.length)
  else none

/-- A number without its sign. -/
def readUnsigned? (negative : Bool) (cs : List Char) : Option Binary64 :=
  match String.ofList (cs.map Char.toLower) with
  | "inf" | "infinity" => some (.infinite negative)
  | "nan" => some .nan
  | _ => (readMagnitude? cs).map fun (digits, power) => ofScientific negative digits power

/-- Reads a number after at most one sign. -/
def ofChars? : List Char → Option Binary64
  | '-' :: cs => readUnsigned? true cs
  | '+' :: cs => readUnsigned? false cs
  | cs => readUnsigned? false cs

/-! ## Writing -/

/-- Whether `digits · 10 ^ power` is read as the number `significand · 2 ^ exponent`: it is no
further away than half the distance to the next number on its side, which is counted in if the
significand is even. All is measured in quarters of the last binary digit. -/
def isReadAs (significand : Nat) (exponent : Int) (digits : Nat) (power : Int) : Bool :=
  let (num, den) := shifted 10 (-power) digits 1
  let (n, d) := shifted 2 (exponent - 2) num den
  let below := if significand = significandLimit / 2 && exponent ≠ leastExponent then 1 else 2
  let least := (4 * significand - below) * d
  let greatest := (4 * significand + 2) * d
  if significand % 2 = 0 then least ≤ n && n ≤ greatest else least < n && n < greatest

/-- The digits at a power of ten that are read as the number, the nearer of the two neighbours if
both are, and the upper one if they are as near. -/
def digitsAt? (significand : Nat) (exponent : Int) (power : Int) : Option Nat :=
  let (num, den) := shifted 2 (-exponent) significand 1
  let (n, d) := shifted 10 power num den
  let lower := n / d
  let nearer := if 2 * (n % d) < d then [lower, lower + 1] else [lower + 1, lower]
  nearer.find? fun digits => isReadAs significand exponent digits power

/-- The fewest digits that are read as the number, with their power of ten. Powers are tried from
the greatest that can be one downwards. -/
def shortest (significand : Nat) (exponent : Int) : Nat → Int → Nat × Int
  | 0, power => (0, power)
  | tries + 1, power =>
    match digitsAt? significand exponent power with
    | some digits => (digits, power)
    | none => shortest significand exponent tries (power - 1)

/-- Digits written in full, without an exponent. -/
def positional (digits : Nat) (power : Int) : String :=
  if power < 0 then Decimal.withPoint (toString digits) (-power).toNat
  else toString digits ++ String.ofList (List.replicate power.toNat '0')

/-- The greatest power of ten that a finite number reaches, and the number of powers from there
down to one that has a digit for every number. -/
def greatestPower : Int := 309

@[inherit_doc greatestPower]
def powerCount : Nat := 700

/-- A number is written in full with the fewest digits that are read as it. -/
def text : Binary64 → String
  | .finite negative significand exponent =>
    let (digits, power) :=
      if significand = 0 then (0, 0)
      else shortest significand exponent powerCount greatestPower
    (if negative then "-" else "") ++ positional digits power
  | .infinite negative => if negative then "-inf" else "inf"
  | .nan => "NaN"

/-! ## Whole numbers -/

/-- The nearest whole number that 64 bits hold, a half rounded up: zero for what is negative or
no number, and the greatest one for what is too large. -/
def toNatural : Binary64 → Nat
  | .finite true _ _ => 0
  | .finite false significand exponent =>
    let (num, den) := shifted 2 (-exponent) significand 1
    min ((2 * num + den) / (2 * den)) Numeral.naturalMax
  | .infinite true => 0
  | .infinite false => Numeral.naturalMax
  | .nan => 0

end Binary64

end QuadQuery
