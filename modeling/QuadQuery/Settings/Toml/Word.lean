import QuadQuery.Date
import QuadQuery.Settings.Toml.Reader
import QuadQuery.Settings.Value

/-!
# Words

Values that are written as a single word: truth values, numbers, dates and times. A date or a
time becomes its text.
-/

namespace QuadQuery.Toml

/-! ## Numbers -/

/-- Digits with single underscores between them; they are returned without the underscores. -/
def grouped? (isDigit : Char → Bool) (cs : List Char) : Option (List Char) :=
  let pairs := ('_' :: cs).zip (cs ++ ['_'])
  if !cs.isEmpty && cs.all (fun c => isDigit c || c == '_')
      && pairs.all (fun p => p.1 != '_' || p.2 != '_') then
    some (cs.filter (· != '_'))
  else none

/-- Decimal digits that do not begin with a zero, except for zero itself. -/
def plainDigits? (cs : List Char) : Option (List Char) := do
  let digits ← grouped? Char.isDigit cs
  if digits.head? = some '0' && digits.length ≠ 1 then none else some digits

/-- A sign, if there is one, and what follows it. -/
def signed : List Char → Bool × List Char
  | '-' :: cs => (true, cs)
  | '+' :: cs => (false, cs)
  | cs => (false, cs)

/-- A number of 64 bits. -/
def inRange? (i : Int) : Option SettingValue :=
  if Numeral.integerMin ≤ i && i ≤ Numeral.integerMax then some (.integer i) else none

/-- A whole number; one in another base has no sign. -/
def integer? (cs : List Char) : Option SettingValue :=
  let based (base : Nat) (isDigit : Char → Bool) (cs : List Char) : Option SettingValue := do
    inRange? (ofBase base (← grouped? isDigit cs))
  match cs with
  | '0' :: 'x' :: cs => based 16 isHexDigit cs
  | '0' :: 'o' :: cs => based 8 (fun c => '0' ≤ c && c ≤ '7') cs
  | '0' :: 'b' :: cs => based 2 (fun c => c == '0' || c == '1') cs
  | cs => do
    let (negative, cs) := signed cs
    let n := Numeral.ofDigits (← plainDigits? cs)
    inRange? (if negative then -(n : Int) else n)

/-- A number with a point, with digits on both sides, or with an exponent, or with both. Digits
that are read as infinity are too many. -/
def float? (cs : List Char) : Option SettingValue := do
  let (negative, cs) := signed cs
  let isMark (c : Char) : Bool := c == 'e' || c == 'E'
  if cs = "inf".toList then return .float (.infinite negative)
  if cs = "nan".toList then return .float .nan
  let base := cs.takeWhile (!isMark ·)
  let whole ← plainDigits? (base.takeWhile (· != '.'))
  let places ← match base.dropWhile (· != '.') with
    | [] => some []
    | _ :: places => grouped? Char.isDigit places
  let power ← match cs.dropWhile (!isMark ·) with
    | [] => if places.isEmpty then none else some 0
    | _ :: exponent => do
      let (negative, exponent) := signed exponent
      let n := Numeral.ofDigits (← grouped? Char.isDigit exponent)
      some (if negative then -(n : Int) else n)
  match Binary64.ofScientific negative (Numeral.ofDigits (whole ++ places))
    (power - places.length) with
  | .infinite _ => none
  | x => return .float x

/-! ## Dates and times -/

/-- A number of exactly `width` digits that is not above `limit`, and what follows it. -/
def fixedNumber? (width limit : Nat) (cs : List Char) : Option (Nat × List Char) :=
  let digits := cs.take width
  if digits.length = width && digits.all Char.isDigit && Numeral.ofDigits digits ≤ limit then
    some (Numeral.ofDigits digits, cs.drop width)
  else none

/-- What follows a mark that must come next. -/
def after? (mark : Char) : List Char → Option (List Char)
  | c :: cs => if c = mark then some cs else none
  | [] => none

/-- A date and what follows it. -/
def date? (cs : List Char) : Option (List Char × List Char) := do
  let (year, rest) ← fixedNumber? 4 9999 cs
  let (month, rest) ← fixedNumber? 2 12 (← after? '-' rest)
  let (day, rest) ← fixedNumber? 2 31 (← after? '-' rest)
  let date ← Date.ofNumbers? year month day
  return (date.text.toList, rest)

/-- A fraction of a second, to nine places and without zeros at its end, and what follows it. -/
def fraction? : List Char → Option (List Char × List Char)
  | '.' :: cs =>
    match cs.takeWhile Char.isDigit with
    | [] => none
    | digits =>
      let places := ((digits.take 9).reverse.dropWhile (· == '0')).reverse
      some (if places.isEmpty then [] else '.' :: places, cs.dropWhile Char.isDigit)
  | cs => some ([], cs)

/-- A time of day and what follows it. The seconds may be left out. -/
def time? (cs : List Char) : Option (List Char × List Char) := do
  let (hour, rest) ← fixedNumber? 2 23 cs
  let (minute, rest) ← fixedNumber? 2 59 (← after? ':' rest)
  let (second, places, rest) ← match rest with
    | ':' :: rest => do
      let (second, rest) ← fixedNumber? 2 60 rest
      let (places, rest) ← fraction? rest
      some (second, places, rest)
    | rest => some (0, [], rest)
  let two := Numeral.padded 2
  return (two hour ++ ':' :: two minute ++ ':' :: two second ++ places, rest)

/-- A distance from universal time, if there is one. Without any distance the sign is a plus. -/
def offset? : List Char → Option (List Char)
  | [] => some []
  | ['Z'] | ['z'] => some ['Z']
  | sign :: cs => do
    if sign ≠ '+' && sign ≠ '-' then none
    let (hours, rest) ← fixedNumber? 2 23 cs
    let (minutes, rest) ← fixedNumber? 2 59 (← after? ':' rest)
    if !rest.isEmpty then none
    let sign := if hours = 0 && minutes = 0 then '+' else sign
    return sign :: Numeral.padded 2 hours ++ ':' :: Numeral.padded 2 minutes

/-- A date, a time, or both, then perhaps with an offset, as a text of one form. -/
def moment? (cs : List Char) : Option SettingValue :=
  let value (cs : List Char) : SettingValue := .text (String.ofList cs)
  match date? cs with
  | some (date, []) => some (value date)
  | some (date, mark :: rest) => do
    if mark ≠ 'T' && mark ≠ 't' && mark ≠ ' ' then none
    let (time, rest) ← time? rest
    return value (date ++ 'T' :: time ++ (← offset? rest))
  | none => do
    let (time, rest) ← time? cs
    if rest.isEmpty then return value time else none

/-- A value that is a single word. -/
def word? (cs : List Char) : Option SettingValue :=
  if cs = "true".toList then some (.bool true)
  else if cs = "false".toList then some (.bool false)
  else ((integer? cs).or (float? cs)).or (moment? cs)

def isWordChar (c : Char) : Bool :=
  c.isAlphanum || c == '_' || c == '-' || c == '+' || c == '.' || c == ':'

end QuadQuery.Toml
