/-!
# Reading texts and keys

A document is read step by step, and a step may refuse it. Here are the characters between
entries, texts in quotes, and keys.
-/

namespace QuadQuery.Toml

/-! ## Reading characters -/

/-- A step of reading, which may refuse the text. -/
abbrev Reader := StateT (List Char) Option

def isSpace (c : Char) : Bool :=
  c == ' ' || c == '\t'

/-- A character that may stand nowhere but at the end of a line. -/
def isControl (c : Char) : Bool :=
  (c.toNat < 0x20 && c != '\t') || c.toNat == 0x7F

/-- Drops spaces, line ends and comments; `comment` tells that a comment has begun. -/
def dropTrivia : Bool → List Char → Option (List Char)
  | _, [] => some []
  | comment, c :: cs =>
    if c = '\n' then dropTrivia false cs
    else if comment then if isControl c then none else dropTrivia true cs
    else if isSpace c then dropTrivia false cs
    else if c = '#' then dropTrivia true cs
    else some (c :: cs)

/-- Drops what may follow an entry in its line, and the end of the line. -/
def dropLineEnd : Bool → List Char → Option (List Char)
  | _, [] => some []
  | comment, c :: cs =>
    if c = '\n' then some cs
    else if comment then if isControl c then none else dropLineEnd true cs
    else if isSpace c then dropLineEnd false cs
    else if c = '#' then dropLineEnd true cs
    else none

namespace Reader

def refuse {α : Type} : Reader α :=
  fun _ => none

/-- The value that there must be. -/
def ofOption {α : Type} : Option α → Reader α
  | some a => pure a
  | none => refuse

def skipSpaces : Reader Unit :=
  modify (·.dropWhile isSpace)

def skipTrivia : Reader Unit := do
  set (← ofOption (dropTrivia false (← get)))

def lineEnd : Reader Unit := do
  set (← ofOption (dropLineEnd false (← get)))

/-- Takes a fixed text if it comes next. -/
def take (text : String) : Reader Bool := do
  let cs ← get
  if text.toList.isPrefixOf cs then
    set (cs.drop text.length)
    return true
  else
    return false

/-- Takes a fixed text, which must come next. -/
def expect (text : String) : Reader Unit := do
  if ← take text then pure () else refuse

/-- Takes characters as long as they satisfy a test. -/
def takeWhile (test : Char → Bool) : Reader (List Char) := do
  let cs ← get
  set (cs.dropWhile test)
  return cs.takeWhile test

end Reader

/-! ## Texts -/

def isHexDigit (c : Char) : Bool :=
  c.isDigit || ('a' ≤ c && c ≤ 'f') || ('A' ≤ c && c ≤ 'F')

/-- The number written by digits, which may be letters in a base above ten. -/
def ofBase (base : Nat) (digits : List Char) : Nat :=
  digits.foldl (fun n c => base * n + (if c.isDigit then c.toNat - 48 else c.toLower.toNat - 87)) 0

/-- The character whose code is written with `width` hexadecimal digits after the letter of an
escape, and the number of characters of the escape. -/
def codeEscape? (width : Nat) (cs : List Char) : Option (Char × Nat) :=
  let digits := cs.take width
  let code := ofBase 16 digits
  if digits.length = width && digits.all isHexDigit && code.isValidChar then
    some (Char.ofNat code, width + 1)
  else none

/-- What is written by the characters after a backslash, and the number of them. -/
def escape? : List Char → Option (Char × Nat)
  | 'b' :: _ => some ('\x08', 1)
  | 't' :: _ => some ('\t', 1)
  | 'n' :: _ => some ('\n', 1)
  | 'f' :: _ => some ('\x0c', 1)
  | 'r' :: _ => some ('\r', 1)
  | 'e' :: _ => some ('\x1b', 1)
  | '"' :: _ => some ('"', 1)
  | '\\' :: _ => some ('\\', 1)
  | 'x' :: cs => codeEscape? 2 cs
  | 'u' :: cs => codeEscape? 4 cs
  | 'U' :: cs => codeEscape? 8 cs
  | _ => none

/-- A text up to a closing quote, and what follows the quote. The first `skip` characters belong
to an escape that has been read. -/
def shortText (quote : Char) : Nat → List Char → Option (List Char × List Char)
  | _, [] => none
  | skip + 1, _ :: cs => shortText quote skip cs
  | 0, c :: cs =>
    if c = quote then some ([], cs)
    else if c = '\\' && quote = '"' then do
      let (e, used) ← escape? cs
      let (text, rest) ← shortText quote used cs
      return (e :: text, rest)
    else if isControl c then none
    else (shortText quote 0 cs).map fun (text, rest) => (c :: text, rest)

/-- A text up to three closing quotes, and what follows them. It may itself end in one or two
quotes. A backslash at the end of a line takes away all spaces and line ends up to the next
character, which `trim` tells. -/
def longText (quote : Char) : Bool → Nat → List Char → Option (List Char × List Char)
  | _, _, [] => none
  | trim, skip + 1, _ :: cs => longText quote trim skip cs
  | trim, 0, c :: cs =>
    if trim && (isSpace c || c = '\n') then longText quote true 0 cs
    else if c = quote && 2 ≤ (cs.takeWhile (· == quote)).length then
      let quotes := (cs.takeWhile (· == quote)).length + 1
      if quotes ≤ 5 then some (List.replicate (quotes - 3) quote, cs.drop (quotes - 1)) else none
    else if c = '\\' && quote = '"' then
      if (cs.dropWhile isSpace).head? = some '\n' then longText quote true 0 cs
      else do
        let (e, used) ← escape? cs
        let (text, rest) ← longText quote false used cs
        return (e :: text, rest)
    else if isControl c && c != '\n' then none
    else (longText quote false 0 cs).map fun (text, rest) => (c :: text, rest)

namespace Reader

/-- The rest of a text after its opening quote. -/
def closing (quote : Char) : Reader String := do
  let (text, rest) ← ofOption (shortText quote 0 (← get))
  set rest
  return String.ofList text

/-- A text, if a quote comes next. A line end right after three quotes is not part of it. -/
def quoted? : Reader (Option String) := do
  for quote in ['"', '\''] do
    if ← take (String.ofList [quote, quote, quote]) then
      let _ ← take "\n"
      let (text, rest) ← ofOption (longText quote false 0 (← get))
      set rest
      return some (String.ofList text)
    if ← take (String.singleton quote) then
      return some (← closing quote)
  return none

/-! ## Keys -/

def isKeyChar (c : Char) : Bool :=
  c.isAlphanum || c == '_' || c == '-'

/-- One part of a key, bare or a short text. -/
def key : Reader String := do
  if ← take "\"" then closing '"'
  else if ← take "\'" then closing '\''
  else
    match ← takeWhile isKeyChar with
    | [] => refuse
    | name => return String.ofList name

/-- The parts of a key, at most `bound` of them after the first, with dots between them. -/
def path : Nat → Reader (List String)
  | 0 => return [← key]
  | bound + 1 => do
    let name ← key
    skipSpaces
    if ← take "." then
      skipSpaces
      return name :: (← path bound)
    else
      return [name]

end Reader

end QuadQuery.Toml
