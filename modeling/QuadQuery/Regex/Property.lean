import QuadQuery.Regex.Category
import QuadQuery.Regex.Script

/-!
# Named sets of characters

The classes that a pattern can name: general categories and their groups, scripts, a few
further properties, the classes of digits, blanks and word characters, and the bracketed
classes of ASCII.
-/

namespace QuadQuery.Regex

namespace Category

def unionAll (classes : List CharClass) : CharClass :=
  classes.foldr .union .empty

def letter : CharClass :=
  unionAll [uppercaseLetter, lowercaseLetter, titlecaseLetter, modifierLetter, otherLetter]

def casedLetter : CharClass :=
  unionAll [uppercaseLetter, lowercaseLetter, titlecaseLetter]

def mark : CharClass :=
  unionAll [nonspacingMark, spacingMark, enclosingMark]

def number : CharClass :=
  unionAll [decimalNumber, letterNumber, otherNumber]

def punctuation : CharClass :=
  unionAll [connectorPunctuation, dashPunctuation, openPunctuation, closePunctuation,
    initialPunctuation, finalPunctuation, otherPunctuation]

def symbol : CharClass :=
  unionAll [mathSymbol, currencySymbol, modifierSymbol, otherSymbol]

def separator : CharClass :=
  unionAll [spaceSeparator, lineSeparator, paragraphSeparator]

/-- All characters. -/
def any : CharClass :=
  .range 0 0x10FFFF

/-- Characters that the standard has given a meaning. -/
def assigned : CharClass :=
  unionAll [letter, mark, number, punctuation, symbol, separator, control, format, privateUse]

def unassigned : CharClass :=
  .diff any assigned

def other : CharClass :=
  unionAll [control, format, privateUse, unassigned]

/-- General categories and their groups with their names in normal form. -/
def named : List (List String × CharClass) := [
  (["any"], any), (["ascii"], .range 0 0x7F), (["assigned"], assigned),
  (["l", "letter"], letter), (["lc", "casedletter"], casedLetter),
  (["lu", "uppercaseletter"], uppercaseLetter), (["ll", "lowercaseletter"], lowercaseLetter),
  (["lt", "titlecaseletter"], titlecaseLetter), (["lm", "modifierletter"], modifierLetter),
  (["lo", "otherletter"], otherLetter), (["m", "mark", "combiningmark"], mark),
  (["mn", "nonspacingmark"], nonspacingMark), (["mc", "spacingmark"], spacingMark),
  (["me", "enclosingmark"], enclosingMark), (["n", "number"], number),
  (["nd", "decimalnumber", "digit"], decimalNumber), (["nl", "letternumber"], letterNumber),
  (["no", "othernumber"], otherNumber), (["p", "punctuation", "punct"], punctuation),
  (["pc", "connectorpunctuation"], connectorPunctuation),
  (["pd", "dashpunctuation"], dashPunctuation), (["ps", "openpunctuation"], openPunctuation),
  (["pe", "closepunctuation"], closePunctuation),
  (["pi", "initialpunctuation"], initialPunctuation),
  (["pf", "finalpunctuation"], finalPunctuation),
  (["po", "otherpunctuation"], otherPunctuation), (["s", "symbol"], symbol),
  (["sm", "mathsymbol"], mathSymbol), (["sc", "currencysymbol"], currencySymbol),
  (["sk", "modifiersymbol"], modifierSymbol), (["so", "othersymbol"], otherSymbol),
  (["z", "separator"], separator), (["zs", "spaceseparator"], spaceSeparator),
  (["zl", "lineseparator"], lineSeparator), (["zp", "paragraphseparator"], paragraphSeparator),
  (["c", "other"], other), (["cc", "control", "cntrl"], control), (["cf", "format"], format),
  (["co", "privateuse"], privateUse), (["cn", "unassigned"], unassigned)]

def alphabetic : CharClass :=
  unionAll [letter, letterNumber, otherAlphabetic]

def lowercase : CharClass :=
  .union lowercaseLetter otherLowercase

def uppercase : CharClass :=
  .union uppercaseLetter otherUppercase

/-- Properties that are not general categories, with their names in normal form. -/
def properties : List (List String × CharClass) := [
  (["alphabetic", "alpha"], alphabetic), (["lowercase", "lower"], lowercase),
  (["uppercase", "upper"], uppercase), (["whitespace", "wspace", "space"], whiteSpace),
  (["emoji"], emoji), (["ideographic", "ideo"], ideographic), (["math"], math),
  (["dash"], dash), (["quotationmark", "qmark"], quotationMark),
  (["hexdigit", "hex"], hexDigit), (["joincontrol", "joinc"], .range 0x200C 0x200D),
  (["asciihexdigit", "ahex"], .ofRanges [('0', '9'), ('A', 'F'), ('a', 'f')])]

def find? (classes : List (List String × CharClass)) (name : String) : Option CharClass :=
  (classes.find? fun e => e.1.contains name).map (·.2)

end Category

namespace CharClass

/-! ## Names -/

/-- Names are compared in lower case, without blanks, hyphens and underscores, and without
`is` in front. -/
def normalName (name : List Char) : String :=
  let cs := (name.filter fun c => c != ' ' && c != '-' && c != '_' && c.toNat < 128).map Char.toLower
  String.ofList (match cs with
    | ['i', 's', 'c'] => cs
    | 'i' :: 's' :: rest => rest
    | _ => cs)

/-- The class that goes by a name of its own. -/
def named? (name : List Char) : Option CharClass :=
  let name := normalName name
  let property := if ["cf", "sc", "lc"].contains name then none
    else Category.find? Category.properties name
  property <|> Category.find? Category.named name <|> Script.find? name

/-- The class of the characters for which a property has a value. -/
def valued? (property value : List Char) : Option CharClass :=
  match normalName property with
  | "generalcategory" | "gc" => Category.find? Category.named (normalName value)
  | "script" | "sc" => Script.find? (normalName value)
  | _ => none

/-! ## Digits, blanks and word characters -/

def digit : CharClass :=
  Category.decimalNumber

def blank : CharClass :=
  Category.whiteSpace

/-- Letters, marks, digits, connectors and joiners. -/
def word : CharClass :=
  Category.unionAll [Category.alphabetic, Category.mark, Category.decimalNumber,
    Category.connectorPunctuation, .range 0x200C 0x200D]

def asciiDigit : CharClass :=
  .ofRanges [('0', '9')]

def asciiBlank : CharClass :=
  .ofRanges [('\t', '\r'), (' ', ' ')]

def asciiWord : CharClass :=
  .ofRanges [('0', '9'), ('A', 'Z'), ('_', '_'), ('a', 'z')]

/-- The classes of ASCII that are written between colons inside brackets. -/
def bracketed? : String → Option CharClass
  | "alnum" => some (.ofRanges [('0', '9'), ('A', 'Z'), ('a', 'z')])
  | "alpha" => some (.ofRanges [('A', 'Z'), ('a', 'z')])
  | "ascii" => some (.range 0 0x7F)
  | "blank" => some (.ofRanges [('\t', '\t'), (' ', ' ')])
  | "cntrl" => some (.stretches [.range 0 0x1F, .range 0x7F 0x7F])
  | "digit" => some asciiDigit
  | "graph" => some (.ofRanges [('!', '~')])
  | "lower" => some (.ofRanges [('a', 'z')])
  | "print" => some (.ofRanges [(' ', '~')])
  | "punct" => some (.ofRanges [('!', '/'), (':', '@'), ('[', '\x60'), ('\x7b', '~')])
  | "space" => some asciiBlank
  | "upper" => some (.ofRanges [('A', 'Z')])
  | "word" => some asciiWord
  | "xdigit" => some (.ofRanges [('0', '9'), ('A', 'F'), ('a', 'f')])
  | _ => none

end CharClass

end QuadQuery.Regex
