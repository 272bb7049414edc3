/-!
# The states of a node

A node of a join tree either has a row pending, or knows how to go on to the next one, or is
exhausted.
-/

namespace QuadQuery

/-- How a node goes on to its next row. -/
inductive Phase where
  /-- With the next row of its own scan. -/
  | find
  /-- With the next combination of rows of its children. -/
  | extend
deriving DecidableEq

/-- Where a node stands. -/
inductive NodeState where
  | active (phase : Phase)
  /-- A row is pending; once it is taken the node goes on as the phase says. -/
  | ready (phase : Phase)
  | exhausted
deriving DecidableEq

namespace Phase

def text : Phase → String
  | .find => "Find"
  | .extend => "Extend"

end Phase

namespace NodeState

def text : NodeState → String
  | .active phase => "Active(" ++ phase.text ++ ")"
  | .ready phase => "Ready(" ++ phase.text ++ ")"
  | .exhausted => "Exhausted"

end NodeState

end QuadQuery
