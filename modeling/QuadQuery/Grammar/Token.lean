import QuadQuery.Grammar.Recognizer

/-!
# Tokens

The words of the syntax. A scanner takes a word from the front of a text and leaves the rest;
what it takes and what it leaves make up the text. No blanks are skipped inside a word, and
nothing needs to separate it from the next one.
-/

namespace QuadQuery.Grammar

namespace Token

/-- What a scanner takes and what it leaves. -/
abbrev Scan := List Char → Option (List Char × List Char)

/-- The characters of names: letters and digits of ASCII, the underscore and the hyphen. -/
def isNameChar (c : Char) : Bool :=
  c.isAlphanum || c == '_' || c == '-'

/-- One or more characters of a kind, as many as there are. -/
def run (kind : Char → Bool) : Scan :=
  fun cs =>
    if (cs.takeWhile kind).isEmpty then none else some (cs.takeWhile kind, cs.dropWhile kind)

/-- A fixed text. -/
def fixed (text : List Char) : Scan :=
  fun cs => if text.isPrefixOf cs then some (text, cs.drop text.length) else none

/-- One scan after another. -/
def both (first second : Scan) : Scan :=
  fun cs => do
    let (taken, cs) ← first cs
    let (more, cs) ← second cs
    return (taken ++ more, cs)

/-- The scan if it succeeds, and otherwise nothing. -/
def possibly (scan : Scan) : Scan :=
  fun cs => some ((scan cs).getD ([], cs))

/-- So many digits. -/
def digits (count : Nat) : Scan :=
  fun cs =>
    let taken := cs.take count
    if taken.length = count && taken.all Char.isDigit then some (taken, cs.drop count) else none

/-- Everything from an opening character to the closing one. -/
def delimited (opening closing : Char) : Scan
  | [] => none
  | c :: cs =>
    if c != opening then none
    else
      match cs.dropWhile (· != closing) with
      | [] => none
      | last :: rest => some (c :: cs.takeWhile (· != closing) ++ [last], rest)

def name : Scan :=
  run isNameChar

def var : Scan :=
  both (fixed ['?']) name

def iri : Scan :=
  delimited '<' '>'

def blank : Scan :=
  both (fixed ['_', ':']) name

def string : Scan :=
  delimited '"' '"'

def date : Scan :=
  both (fixed ['\'']) (both (digits 4) (both (fixed ['-']) (both (digits 2)
    (both (fixed ['-']) (both (digits 2) (fixed ['\'']))))))

def sign : Scan :=
  possibly (fixed ['-'])

def decimal : Scan :=
  both sign (both (run Char.isDigit) (both (fixed ['.']) (run Char.isDigit)))

def integer : Scan :=
  both sign (run Char.isDigit)

/-- The first of several scans that succeeds. -/
def firstOf : List Scan → Scan
  | [], _ => none
  | scan :: others, cs => scan cs <|> firstOf others cs

/-- The words for functions; a shorter word stands behind those that begin with it. -/
def function : Scan :=
  firstOf (["bound", "regex", "&&", "||", "!=", "!", "<=", ">=", "<", ">", "="].map fun word =>
    fixed word.toList)

end Token

end QuadQuery.Grammar
