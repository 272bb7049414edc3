import QuadQuery.Settings.Value

/-!
# Growing tables

The tables of a document grow line by line. How a table came about decides whether it may still
grow (`Origin`): a table is given a header of its own at most once, and a table that has one, or
that was written in braces, takes no further entries from elsewhere.
-/

namespace QuadQuery.Toml

/-- How a table came about. -/
inductive Origin where
  /-- By the header of a table inside it. -/
  | implied
  /-- By a key with dots. -/
  | dotted
  /-- By its own header. -/
  | header
deriving DecidableEq

/-- What stands under a name of a table that is being read. -/
inductive Item where
  | value (v : SettingValue)
  | table (origin : Origin) (items : List (String × Item))
  /-- The tables of a repeated header, the last one first. -/
  | tables (last : List (String × Item)) (before : List (List (String × Item)))

/-- The names of a table that is being read. -/
abbrev Items := List (String × Item)

namespace Items

/-- Gives a name another item, in its place if it has one and at the end otherwise. -/
def put (name : String) (item : Item) : Items → Items
  | [] => [(name, item)]
  | e :: rest => if e.1 = name then (name, item) :: rest else e :: put name item rest

/-- Changes the table that a header's path leads to. The tables of a repeated header are entered
at the last one, and missing tables are made. -/
def within (change : Items → Option Items) : List String → Items → Option Items
  | [], items => change items
  | name :: path, items =>
    match items.lookup name with
    | none => (within change path []).map fun inner => items.put name (.table .implied inner)
    | some (.table origin inner) =>
      (within change path inner).map fun inner => items.put name (.table origin inner)
    | some (.tables last before) =>
      (within change path last).map fun last => items.put name (.tables last before)
    | some (.value _) => none

/-- Gives a table its header. -/
def openTable (name : String) (items : Items) : Option Items :=
  match items.lookup name with
  | none => some (items.put name (.table .header []))
  | some (.table .implied inner) => some (items.put name (.table .header inner))
  | _ => none

/-- Begins a further table under a repeated header. -/
def openNext (name : String) (items : Items) : Option Items :=
  match items.lookup name with
  | none => some (items.put name (.tables [] []))
  | some (.tables last before) => some (items.put name (.tables [] (last :: before)))
  | _ => none

/-- Adds a value under a name that is not taken. -/
def add (name : String) (v : SettingValue) (items : Items) : Option Items :=
  match items.lookup name with
  | none => some (items.put name (.value v))
  | some _ => none

/-- Adds a value under a key with dots, whose path leads through tables without a header to one
that such a key has made. -/
def addAt (name : String) (v : SettingValue) : List String → Items → Option Items
  | [], items => items.add name v
  | step :: path, items =>
    match items.lookup step with
    | none => (addAt name v path []).map fun inner => items.put step (.table .dotted inner)
    | some (.table .dotted inner) =>
      (addAt name v path inner).map fun inner => items.put step (.table .dotted inner)
    | some (.table .implied inner) =>
      if path.isEmpty then none
      else (addAt name v path inner).map fun inner => items.put step (.table .implied inner)
    | some (.tables last before) =>
      if path.isEmpty then none
      else (addAt name v path last).map fun last => items.put step (.tables last before)
    | some _ => none

end Items

mutual

/-- An item as a value. -/
def Item.toValue : Item → SettingValue
  | .value v => v
  | .table _ items => .table (Items.toTable items)
  | .tables last before => .list ((.table (Items.toTable last) :: tablesToValues before).reverse)

/-- Items as the entries of a table. -/
def Items.toTable : List (String × Item) → SettingTable
  | [] => []
  | (name, item) :: rest => (name, item.toValue) :: Items.toTable rest

/-- Tables as values. -/
def tablesToValues : List (List (String × Item)) → List SettingValue
  | [] => []
  | items :: rest => .table (Items.toTable items) :: tablesToValues rest

end

end QuadQuery.Toml
