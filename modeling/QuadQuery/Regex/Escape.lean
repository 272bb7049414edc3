import QuadQuery.Regex.Pattern
import QuadQuery.Regex.Reader

/-!
# Escapes

What a backslash begins: a character by its code or by a letter, a class of characters by a
letter or by a property, or a condition on a position.
-/

namespace QuadQuery.Regex

/-- A single character, or something else written with a backslash. -/
inductive Primitive where
  /-- `code` tells that the character was given by two hexadecimal digits. -/
  | literal (c : Char) (code : Bool)
  | charClass (among : CharClass)
  | look (condition : Look)

namespace Reader

/-- Digits up to the first other character, with the blanks after them. -/
def takeDigits (isDigit : Char → Bool) : Nat → Reader (List Char)
  | 0 => pure []
  | bound + 1 => do
    match ← peek? with
    | some c =>
      if isDigit c then
        advanceToEnd
        return c :: (← takeDigits isDigit bound)
      else
        return []
    | none => return []

def dropWhileBlank : Reader Unit :=
  modify fun s => { s with rest := s.rest.dropWhile isBlank }

/-- A decimal number of at most 32 bits, or none if there are no digits. -/
def decimal? : Reader (Option Nat) := do
  dropWhileBlank
  let digits ← takeDigits Char.isDigit (← get).rest.length
  dropWhileBlank
  if digits.isEmpty then
    return none
  let n := Numeral.ofDigits digits
  require (n < 0x100000000)
  return some n

def isHexDigit (c : Char) : Bool :=
  c.isDigit || ('a' ≤ c && c ≤ 'f') || ('A' ≤ c && c ≤ 'F')

/-- The character of a code point written in hexadecimal digits. -/
def charOfHex (digits : List Char) : Reader Char := do
  let n := digits.foldl (fun n c => 16 * n + Stretch.hexValue c) 0
  require (!digits.isEmpty && n < 0x110000 && !(0xD800 ≤ n && n ≤ 0xDFFF))
  return Char.ofNat n

/-- So many hexadecimal digits. -/
def hexDigits : Nat → Reader (List Char)
  | 0 => pure []
  | count + 1 => do
    let c ← peek
    require (isHexDigit c)
    if count = 0 then
      advanceToEnd
      return [c]
    else
      advance
      return c :: (← hexDigits count)

/-- The code point after one of the letters `x`, `u` and `U`. -/
def hexEscape (letter : Char) : Reader Primitive := do
  advance
  if (← peek) == '\x7b' then
    advance
    let digits ← takeDigits isHexDigit (← get).rest.length
    require ((← peek) == '\x7d')
    advanceToEnd
    return .literal (← charOfHex digits) false
  else
    let digits ← hexDigits (if letter == 'x' then 2 else if letter == 'u' then 4 else 8)
    return .literal (← charOfHex digits) (letter == 'x')

/-- Splits at the first `mark`. -/
def splitAt? (mark : List Char) : List Char → Option (List Char × List Char)
  | [] => none
  | c :: cs =>
    if mark.isPrefixOf (c :: cs) then some ([], (c :: cs).drop mark.length)
    else (splitAt? mark cs).map fun (before, after) => (c :: before, after)

/-- The characters up to a closing brace, blanks left out where the flags say so. -/
def takeName : Nat → Reader (List Char)
  | 0 => refuse
  | bound + 1 => do
    let c ← peek
    if c == '\x7d' then
      bump
      return []
    else
      advance
      return c :: (← takeName bound)

/-- The class named after one of the letters `p` and `P`. -/
def propertyEscape (letter : Char) : Reader Primitive := do
  advance
  let found ← if (← peek) == '\x7b' then do
      advance
      let name ← takeName (← get).rest.length
      match splitAt? ['!', '='] name with
      | some (property, value) => pure ((CharClass.valued? property value).map CharClass.compl)
      | none =>
        match splitAt? [':'] name <|> splitAt? ['='] name with
        | some (property, value) => pure (CharClass.valued? property value)
        | none => pure (CharClass.named? name)
    else do
      let c ← peek
      require (c != '\\')
      advanceToEnd
      pure (CharClass.named? [c])
  let flags ← flags
  match found with
  | none => refuse
  | some among =>
    require flags.unicode
    let among := if flags.ignoreCase then .foldCase among else among
    return .charClass (if letter == 'P' then .compl among else among)

/-- A class of characters or its complement; bytes of other characters than those of ASCII
cannot be asked for. -/
def shorthand (unicodeClass asciiClass : CharClass) (negated : Bool) : Reader Primitive := do
  bump
  if (← flags).unicode then
    return .charClass (if negated then .compl unicodeClass else unicodeClass)
  else
    require !negated
    return .charClass asciiClass

def wordClass : Reader CharClass :=
  return if (← flags).unicode then CharClass.word else CharClass.asciiWord

/-- The name in braces after `\b`, if the braces hold a name and not a count. -/
def edgeName? : Reader (Option (List Char)) := do
  let s ← get
  if s.rest.head? != some '\x7b' then
    return none
  let isNameChar (c : Char) : Bool := c.isAlpha || c == '-'
  advance
  if !isNameChar (← peek) then
    set s
    return none
  let name ← takeDigits isNameChar (← get).rest.length
  require ((← peek) == '\x7d')
  bump
  return some name

/-- A condition on the edges of words. -/
def wordEdge : Reader Primitive := do
  bump
  let word ← wordClass
  match ← edgeName? with
  | none => return .look (.wordEdge word)
  | some name =>
    match String.ofList name with
    | "start" => return .look (.wordStart word)
    | "end" => return .look (.wordEnd word)
    | "start-half" => return .look (.wordStartHalf word)
    | "end-half" => return .look (.wordEndHalf word)
    | _ => refuse

/-- Other characters of ASCII than letters, digits and angle brackets stand for themselves
after a backslash. -/
def isPlainEscape (c : Char) : Bool :=
  c.toNat < 128 && !c.isAlphanum && c != '<' && c != '>'

/-- What a backslash and the characters after it stand for. -/
def escape : Reader Primitive := do
  bump
  let c ← peek
  let literal (c : Char) : Reader Primitive := do
    bump
    return .literal c false
  match c with
  | 'x' | 'u' | 'U' => hexEscape c
  | 'p' | 'P' => propertyEscape c
  | 'd' => shorthand .digit .asciiDigit false
  | 'D' => shorthand .digit .asciiDigit true
  | 's' => shorthand .blank .asciiBlank false
  | 'S' => shorthand .blank .asciiBlank true
  | 'w' => shorthand .word .asciiWord false
  | 'W' => shorthand .word .asciiWord true
  | 'a' => literal '\x07'
  | 'f' => literal '\x0c'
  | 't' => literal '\t'
  | 'n' => literal '\n'
  | 'r' => literal '\r'
  | 'v' => literal '\x0b'
  | 'A' => bump; return .look .textStart
  | 'z' => bump; return .look .textEnd
  | 'b' => wordEdge
  | 'B' => bump; return .look (.notWordEdge (← wordClass))
  | '<' => bump; return .look (.wordStart (← wordClass))
  | '>' => bump; return .look (.wordEnd (← wordClass))
  | c =>
    require (isPlainEscape c)
    literal c

end Reader

end QuadQuery.Regex
