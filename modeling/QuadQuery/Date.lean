import QuadQuery.Numeral

/-!
# Calendar dates

Days of the proleptic Gregorian calendar. A `Date` is always a real day, so a date that was
read can be written without further checks. Reading is lenient: blanks may stand before each
number and months and days may have one digit. Writing is not: four digits for the year, and
a sign outside the years 0 to 9999.
-/

namespace QuadQuery

/-- Every fourth year is a leap year, but of the centuries only every fourth. -/
def isLeapYear (year : Int) : Bool :=
  year % 4 == 0 && (year % 100 != 0 || year % 400 == 0)

def daysInMonth (year : Int) (month : Nat) : Nat :=
  if month = 2 then (if isLeapYear year then 29 else 28)
  else if month = 4 ∨ month = 6 ∨ month = 9 ∨ month = 11 then 30
  else 31

/-- The years the calendar reaches, and the months and days it has in them. -/
def isCalendarDay (year : Int) (month day : Nat) : Bool :=
  -262143 ≤ year && year ≤ 262142 && 1 ≤ month && month ≤ 12 && 1 ≤ day
    && day ≤ daysInMonth year month

/-- A day of the calendar. -/
structure Date where
  year : Int
  month : Nat
  day : Nat
  real : isCalendarDay year month day = true
deriving DecidableEq

namespace Date

/-- The day of the given numbers, if there is one. -/
def ofNumbers? (year : Int) (month day : Nat) : Option Date :=
  if real : isCalendarDay year month day = true then some ⟨year, month, day, real⟩ else none

/-- Orders dates by time. -/
def compare (a b : Date) : Ordering :=
  (Ord.compare a.year b.year).then ((Ord.compare a.month b.month).then (Ord.compare a.day b.day))

/-! ## Reading -/

/-- One to `width` digits, as many as there are, and what follows them. -/
def readNumber? (width : Nat) (cs : List Char) : Option (Nat × List Char) :=
  let digits := (cs.take width).takeWhile Char.isDigit
  if digits.isEmpty then none else some (Numeral.ofDigits digits, cs.drop digits.length)

/-- A year: at most four digits, or any number of them after a sign. -/
def readYear? (cs : List Char) : Option (Int × List Char) :=
  match cs.dropWhile isBlank with
  | '-' :: cs => (readNumber? cs.length cs).map fun (n, rest) => (-(n : Int), rest)
  | '+' :: cs => (readNumber? cs.length cs).map fun (n, rest) => ((n : Int), rest)
  | cs => (readNumber? 4 cs).map fun (n, rest) => ((n : Int), rest)

/-- A month or a day: one or two digits. -/
def readPart? (cs : List Char) : Option (Nat × List Char) :=
  readNumber? 2 (cs.dropWhile isBlank)

def readHyphen? : List Char → Option (List Char)
  | '-' :: cs => some cs
  | _ => none

/-- Reads year, month and day with hyphens between them and nothing after them. -/
def ofChars? (cs : List Char) : Option Date := do
  let (year, cs) ← readYear? cs
  let cs ← readHyphen? cs
  let (month, cs) ← readPart? cs
  let cs ← readHyphen? cs
  let (day, cs) ← readPart? cs
  if cs.isEmpty then ofNumbers? year month day else none

def ofText? (text : String) : Option Date :=
  ofChars? text.toList

/-! ## Writing -/

/-- A year has at least four digits, and a sign outside the years 0 to 9999. -/
def yearText (year : Int) : String :=
  let digits := String.ofList (Numeral.padded 4 year.natAbs)
  if year < 0 then "-" ++ digits
  else if year > 9999 then "+" ++ digits
  else digits

def text (d : Date) : String :=
  yearText d.year ++ "-" ++ String.ofList (Numeral.padded 2 d.month) ++ "-"
    ++ String.ofList (Numeral.padded 2 d.day)

end Date

end QuadQuery
