import QuadQuery.Binary64
import QuadQuery.Settings

/-!
# Values of settings

Settings are made from a table of values, which may be of another kind than a setting asks for.
Numbers, truth values and texts then stand for one another as far as that makes sense; a table
may name settings that do not exist.
-/

namespace QuadQuery

/-- A value in a settings text or in the environment. -/
inductive SettingValue where
  | text (content : String)
  | integer (value : Int)
  | float (value : Binary64)
  | bool (value : Bool)
  | list (items : List SettingValue)
  | table (entries : List (String × SettingValue))

/-- Values by name. A name occurs once. -/
abbrev SettingTable := List (String × SettingValue)

namespace SettingTable

/-- Gives a name another value, in its place if it has one and at the end otherwise. -/
def put (name : String) (value : SettingValue) : SettingTable → SettingTable
  | [] => [(name, value)]
  | e :: rest => if e.1 = name then (name, value) :: rest else e :: put name value rest

end SettingTable

namespace SettingValue

/-- The entries of a table; another value has none. -/
def entries : SettingValue → SettingTable
  | .table entries => entries
  | _ => []

mutual

/-- Lays a value over another one. Tables are joined, and other values replaced. -/
def laidOver (old : Option SettingValue) : SettingValue → SettingValue
  | .table new => .table (layEntries ((old.map entries).getD []) new)
  | .text content => .text content
  | .integer value => .integer value
  | .float value => .float value
  | .bool value => .bool value
  | .list items => .list items

/-- Lays the entries of a table over another one, in turn. -/
def layEntries (old : SettingTable) : List (String × SettingValue) → SettingTable
  | [] => old
  | (name, value) :: rest =>
    layEntries (SettingTable.put name (laidOver (old.lookup name) value) old) rest

end

/-! ## Conversions -/

/-- The number of rows that a value stands for. -/
def capacity? : SettingValue → Option Nat
  | .integer value => if 0 ≤ value then some value.toNat else none
  | .float value => some value.toNatural
  | .bool value => some value.toNat
  | .text content =>
    match content.toLower with
    | "true" | "on" | "yes" => some 1
    | "false" | "off" | "no" => some 0
    | _ => Numeral.readNatural? content.toList
  | .list _ | .table _ => none

/-- The way of ordering patterns that a word names, in small or capital letters. -/
def reorderNamed? (word : String) : Option Reorder :=
  Reorder.all.find? fun reorder => reorder.name == word.toLower

/-- The way of ordering patterns that a value stands for: the word itself, or a table with the
word as its only name. -/
def reorder? : SettingValue → Option Reorder
  | .text word => reorderNamed? word
  | .table [(word, _)] => reorderNamed? word
  | _ => none

/-- The text that a value stands for. -/
def text? : SettingValue → Option String
  | .text content => some content
  | .integer value => some (toString value)
  | .float value => some value.text
  | .bool value => some (if value then "true" else "false")
  | .list _ | .table _ => none

end SettingValue

namespace SettingTable

/-- The value under a name as a conversion reads it, or a default if there is none. -/
def setting {α : Type} (table : SettingTable) (name : String) (default : α)
    (read : SettingValue → Option α) : Except Failure α :=
  match table.lookup name with
  | none => .ok default
  | some value =>
    match read value with
    | some a => .ok a
    | none => .error (.settings .malformed)

end SettingTable

/-- The names of the settings. -/
def Settings.names : List String := ["cache_capacity", "reorder", "log_filter"]

/-- The settings that a table asks for. -/
def Settings.ofTable (table : SettingTable) : Except Failure Settings := do
  let default : Settings := {}
  let capacity ← table.setting "cache_capacity" default.capacity SettingValue.capacity?
  let reorder ← table.setting "reorder" default.reorder SettingValue.reorder?
  let logFilter ← table.setting "log_filter" default.logFilter SettingValue.text?
  Settings.validated { capacity, reorder, logFilter }

end QuadQuery
