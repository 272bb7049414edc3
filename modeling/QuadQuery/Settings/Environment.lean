import QuadQuery.Settings.Toml

/-!
# Where settings come from

Settings are read from a text, from environment variables, or from both, where the environment
has the last word. A name with dots stands for a table in a table.
-/

namespace QuadQuery

namespace SettingTable

/-! ## Names with dots -/

/-- A step from a value to a part of it. -/
inductive Step where
  | name (name : String)
  | place

/-- A character of a name that may take part in a path. -/
def isNameChar (c : Char) : Bool :=
  c.isAlphanum || c == '_' || c == '-'

/-- The steps behind the first name of a path: names after dots and numbers in brackets; at most
`bound` of them. -/
def steps? : Nat → List Char → Option (List Step)
  | _, [] => some []
  | 0, _ => none
  | bound + 1, '.' :: cs =>
    match cs.takeWhile isNameChar with
    | [] => none
    | name => (steps? bound (cs.dropWhile isNameChar)).map (.name (String.ofList name) :: ·)
  | bound + 1, '[' :: cs =>
    let cs := cs.dropWhile Toml.isSpace
    let digits := match cs with
      | '-' :: cs => cs
      | cs => cs
    match digits.takeWhile Char.isDigit, (digits.dropWhile Char.isDigit).dropWhile Toml.isSpace with
    | _ :: _, ']' :: cs => (steps? bound cs).map (.place :: ·)
    | _, _ => none
  | _, _ => none

/-- The value that has another one at the end of some steps. -/
def nested (value : SettingValue) : List Step → SettingValue
  | [] => value
  | .name name :: steps => .table [(name, nested value steps)]
  | .place :: steps => .list [nested value steps]

/-- The first name of a path and the value that is to stand under it; a name that is no path
stands for itself. -/
def entryAt (name : String) (value : SettingValue) : String × SettingValue :=
  let cs := name.toList
  match cs.takeWhile isNameChar, steps? cs.length (cs.dropWhile isNameChar) with
  | first@(_ :: _), some steps => (String.ofList first, nested value steps)
  | _, _ => (name, value)

/-- Lays values over a table, in turn, each where its name leads to. -/
def lay (table : SettingTable) (values : List (String × SettingValue)) : SettingTable :=
  SettingValue.layEntries table (values.map fun e => entryAt e.1 e.2)

end SettingTable

/-! ## The environment -/

/-- A variable of the environment with its content. -/
abbrev EnvironmentVariable := String × String

namespace EnvironmentVariable

/-- What the names of variables that hold settings begin with, in small or capital letters. -/
def mark : String := programName ++ "_"

/-- The name of the setting that a variable holds. -/
def settingName? (v : EnvironmentVariable) : Option String :=
  let name := v.1.toLower
  if mark.toList.isPrefixOf name.toList then some (String.ofList (name.toList.drop mark.length))
  else none

/-- The content as a truth value, a whole number or a floating point number if it is one, and as
a text otherwise. -/
def settingValue (v : EnvironmentVariable) : SettingValue :=
  match v.2.toLower with
  | "true" => .bool true
  | "false" => .bool false
  | _ =>
    match Numeral.readInteger v.2.toList, Binary64.ofChars? v.2.toList with
    | .ok i, _ => .integer i
    | .error _, some x => .float x
    | .error _, none => .text v.2

/-- The settings that variables hold. -/
def table (environment : List EnvironmentVariable) : List (String × SettingValue) :=
  environment.filterMap fun v => v.settingName?.map fun name => (name, v.settingValue)

end EnvironmentVariable

namespace Settings

/-- The table that a text writes, with its names taken as paths. -/
def tableOfText (text : String) : Except Failure SettingTable :=
  match Toml.read? text with
  | some table => .ok (SettingTable.lay [] table)
  | none => .error (.settings .malformed)

/-- The settings in a text. -/
def ofText (text : String) : Except Failure Settings := do
  ofTable (← tableOfText text)

/-- The settings in a text, if there is one, and in the environment. -/
def load (text : Option String) (environment : List EnvironmentVariable) :
    Except Failure Settings := do
  let table ← match text with
    | some text => tableOfText text
    | none => .ok []
  ofTable (SettingTable.lay table (EnvironmentVariable.table environment))

end Settings

end QuadQuery
