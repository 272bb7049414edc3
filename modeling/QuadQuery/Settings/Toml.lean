import QuadQuery.Settings.Toml.Table
import QuadQuery.Settings.Toml.Word

/-!
# TOML

Reads a TOML document as a table of values: lines with an entry or a header each, where an entry
has a text, a word, a list or a table in braces as its value.
-/

namespace QuadQuery.Toml

namespace Reader

/-- A single word. A date may be followed by a time after a space. -/
def word : Reader SettingValue := do
  let cs ← takeWhile isWordChar
  let more ← get
  match date? cs, more with
  | some (_, []), ' ' :: c :: _ =>
    if c.isDigit then
      let _ ← take " "
      let time ← takeWhile isWordChar
      ofOption (word? (cs ++ ' ' :: time))
    else ofOption (word? cs)
  | _, _ => ofOption (word? cs)

/-- The items of a list up to its closing bracket, at most `bound` of them. -/
def items (value : Reader SettingValue) : Nat → Reader (List SettingValue)
  | 0 => refuse
  | bound + 1 => do
    skipTrivia
    if ← take "]" then return []
    let v ← value
    skipTrivia
    if ← take "," then return v :: (← items value bound)
    expect "]"
    return [v]

/-- An entry of a table: a key, an equals sign and a value. -/
def entry (value : Reader SettingValue) (bound : Nat)
    (add : List String → SettingValue → Option Items) : Reader Items := do
  let path ← path bound
  skipSpaces
  expect "="
  skipSpaces
  ofOption (add path (← value))

/-- Adds a value under the parts of a key. -/
def addUnder (items : Items) (path : List String) (v : SettingValue) : Option Items :=
  match path.getLast? with
  | some name => items.addAt name v path.dropLast
  | none => none

/-- The entries of a table in braces, at most `bound` of them, added to those before. -/
def braced (value : Reader SettingValue) : Nat → Items → Reader Items
  | 0, _ => refuse
  | bound + 1, before => do
    skipTrivia
    if ← take "\x7d" then return before
    let before ← entry value bound (addUnder before)
    skipTrivia
    if ← take "," then braced value bound before
    else
      expect "\x7d"
      return before

/-- A value that nests no deeper than `bound`. -/
def value : Nat → Reader SettingValue
  | 0 => refuse
  | bound + 1 => do
    if let some text ← quoted? then return .text text
    if ← take "[" then return .list (← items (value bound) bound)
    if ← take "\x7b" then return .table (Items.toTable (← braced (value bound) bound []))
    word

/-- The lines of a document, at most `bound` of them, under the header at the path `header`,
added to what came before. -/
def lines : Nat → List String → Items → Reader Items
  | 0, _, _ => refuse
  | bound + 1, header, before => do
    skipTrivia
    if (← get).isEmpty then return before
    let opening (close : String) (change : String → Items → Option Items) :
        Reader (List String × Items) := do
      skipSpaces
      let path ← path bound
      skipSpaces
      expect close
      lineEnd
      let name ← ofOption path.getLast?
      return (path, ← ofOption (before.within (change name) path.dropLast))
    if ← take "[[" then
      let (header, before) ← opening "]]" Items.openNext
      lines bound header before
    else if ← take "[" then
      let (header, before) ← opening "]" Items.openTable
      lines bound header before
    else
      let before ← entry (value bound) bound fun path v =>
        before.within (fun items => addUnder items path v) header
      lineEnd
      lines bound header before

end Reader

/-- Line ends of two characters count as one; a mark for the order of bytes is dropped. -/
def normalized : List Char → List Char
  | '\uFEFF' :: cs => unified cs
  | cs => unified cs
where
  unified : List Char → List Char
    | '\r' :: '\n' :: cs => '\n' :: unified cs
    | c :: cs => c :: unified cs
    | [] => []

/-- The table that a document writes. -/
def read? (text : String) : Option SettingTable :=
  let cs := normalized text.toList
  ((Reader.lines (cs.length + 1) [] []).run cs).map fun (items, _) => Items.toTable items

end QuadQuery.Toml
