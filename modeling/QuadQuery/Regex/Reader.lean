import QuadQuery.Numeral

/-!
# Reading regular expressions

The text of a regular expression is read step by step, and a step may refuse it. Flags, which a
group or an inline setting changes, decide about letter case, lines, dots, Unicode and blanks;
they last until the end of the group that they are set in.

Every function that can call itself again carries a bound; the length of the text always
suffices, since each round takes up a character.
-/

namespace QuadQuery.Regex

/-- What inline settings switch on and off. -/
structure Flags where
  ignoreCase : Bool := false
  multiLine : Bool := false
  dotMatchesLineFeed : Bool := false
  unicode : Bool := true
  ignoreBlanks : Bool := false
  returnEndsLine : Bool := false
deriving DecidableEq

/-- Switches the flag of a letter on or off. -/
def Flags.put? (flags : Flags) (letter : Char) (on : Bool) : Option Flags :=
  match letter with
  | 'i' => some { flags with ignoreCase := on }
  | 'm' => some { flags with multiLine := on }
  | 's' => some { flags with dotMatchesLineFeed := on }
  | 'U' => some flags
  | 'u' => some { flags with unicode := on }
  | 'R' => some { flags with returnEndsLine := on }
  | 'x' => some { flags with ignoreBlanks := on }
  | _ => none

/-- The text still to be read, the flags in force and the names of groups so far. -/
structure Scanner where
  rest : List Char
  flags : Flags := {}
  groupNames : List (List Char) := []

/-- A step of reading, which may refuse the text. -/
abbrev Reader := StateT Scanner Option

/-- Something that was read, with the number of levels at which its parts are written inside each
other. A single character has no level; a group, a repetition, a bracketed class, a sequence of
several items and a choice of several alternatives each add one. -/
structure Nested (α : Type) where
  value : α
  depth : Nat

/-- One level around something. -/
def Nested.deeper {α : Type} (n : Nested α) : Nested α :=
  { n with depth := n.depth + 1 }

namespace Reader

def refuse {α : Type} : Reader α :=
  fun _ => none

/-- Refuses the text unless the condition holds. -/
def require (condition : Bool) : Reader Unit :=
  if condition then pure () else refuse

def peek? : Reader (Option Char) :=
  return (← get).rest.head?

/-- The next character; refuses at the end. -/
def peek : Reader Char := do
  match ← peek? with
  | some c => pure c
  | none => refuse

def bump : Reader Unit :=
  modify fun s => { s with rest := s.rest.drop 1 }

def flags : Reader Flags :=
  return (← get).flags

def setFlags (flags : Flags) : Reader Unit :=
  modify fun s => { s with flags }

/-- Drops blanks and comments that reach to the end of their line. -/
def dropBlanks : Nat → List Char → List Char
  | 0, cs => cs
  | bound + 1, cs =>
    match cs.dropWhile isBlank with
    | '#' :: rest => dropBlanks bound ((rest.dropWhile (· != '\n')).drop 1)
    | rest => rest

/-- Skips blanks and comments where the flags say so. -/
def skipBlanks : Reader Unit :=
  modify fun s =>
    if s.flags.ignoreBlanks then { s with rest := dropBlanks s.rest.length s.rest } else s

/-- Moves past a character and the blanks after it; refuses if nothing is left. -/
def advance : Reader Unit := do
  bump
  skipBlanks
  let _ ← peek

/-- As `advance`, but the end may be reached. -/
def advanceToEnd : Reader Unit := do
  bump
  skipBlanks

/-- Takes a fixed text if it comes next. -/
def takeText (text : List Char) : Reader Bool := do
  let s ← get
  if text.isPrefixOf s.rest then
    set { s with rest := s.rest.drop text.length }
    return true
  else
    return false

/-- The character after the next one, blanks aside where the flags say so. -/
def peekSecond? : Reader (Option Char) := do
  let s ← get
  let rest := s.rest.drop 1
  if s.flags.ignoreBlanks then
    return (dropBlanks rest.length rest).head?
  else
    return rest.head?

end Reader

end QuadQuery.Regex
