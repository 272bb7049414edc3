import QuadQuery.Variable

/-!
# The shared order of variables

A node of a join tree and its ancestors list their variables in one order. A scan that knows
further variables makes a longer order; the places already given never change.
-/

namespace QuadQuery

/-- Variables in the order in which a branch of a join tree has met them. -/
structure AttributeOrder where
  vars : List Variable
deriving DecidableEq

namespace AttributeOrder

def empty : AttributeOrder :=
  ⟨[]⟩

instance : EmptyCollection AttributeOrder := ⟨empty⟩

def size (order : AttributeOrder) : Nat :=
  order.vars.length

def isEmpty (order : AttributeOrder) : Bool :=
  order.vars.isEmpty

/-- The place of a variable. -/
def position? (order : AttributeOrder) (v : Variable) : Option Nat :=
  order.vars.idxOf? v

/-- Adds the variables that are not there yet, in turn, at the end. -/
def extend (order : AttributeOrder) (vars : List Variable) : AttributeOrder :=
  ⟨Variable.appendNew order.vars vars⟩

end AttributeOrder

end QuadQuery
