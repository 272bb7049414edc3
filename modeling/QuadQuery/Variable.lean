/-!
# Variables

A variable is known by its name alone. Variables are ordered by the code points of their
names, which is the order in which bindings and solutions list them.
-/

namespace QuadQuery

/-- A query variable; the name does not include the question mark it is written with. -/
structure Variable where
  name : String
deriving DecidableEq

namespace Variable

/-- The variable written as `text`: leading question marks are not part of the name. -/
def ofText (text : String) : Variable :=
  ⟨String.ofList (text.toList.dropWhile (· == '?'))⟩

/-- A variable is written as its name after a question mark. -/
def text (v : Variable) : String :=
  "?" ++ v.name

instance : LT Variable := ⟨fun a b => a.name < b.name⟩

instance (a b : Variable) : Decidable (a < b) :=
  inferInstanceAs (Decidable (a.name < b.name))

theorem lt_irrefl (a : Variable) : ¬ a < a := String.lt_irrefl a.name

theorem lt_trans {a b c : Variable} (h : a < b) (h' : b < c) : a < c := String.lt_trans h h'

/-- Two variables neither of which comes first are the same variable. -/
theorem eq_of_not_lt {a b : Variable} (h : ¬ a < b) (h' : ¬ b < a) : a = b := by
  cases a; cases b
  congr
  exact String.le_antisymm (String.not_lt.1 h') (String.not_lt.1 h)

/-- Adds to `known`, at the end and in turn, the variables that it lacks. -/
def appendNew (known vars : List Variable) : List Variable :=
  vars.foldl (fun known v => if known.contains v then known else known ++ [v]) known

/-- Each variable once, where it first appears. -/
def firstAppearances (vars : List Variable) : List Variable :=
  appendNew [] vars

end Variable

end QuadQuery
