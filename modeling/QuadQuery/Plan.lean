import QuadQuery.JoinTree.Advance
import QuadQuery.Settings

/-!
# Plans

A query is planned as a join tree: required patterns become nodes, the right-hand side of a
left join an optional child of the root of the left-hand side, and filters are attached to the
node that they apply to. Queries with other operators have no plan.
-/

namespace QuadQuery

namespace Node

/-- Attaches filters in turn. -/
def addFilters (n : Node) (exprs : List Expr) : Node :=
  exprs.foldl addFilter n

end Node

namespace Algebra

/-- A node that scans for a basic pattern. -/
def leaf (settings : Settings) (pattern : BasicPattern) : Node :=
  .ofScan (.index { pattern := settings.reorder.apply pattern }) settings.capacity

/-- The join tree of a query, or the first operator in it that has none. -/
def plan (settings : Settings) : Algebra → Except Failure Node
  | .bgp pattern => .ok (leaf settings pattern)
  | .quadPattern graph pattern => .ok (leaf settings (pattern.inGraph graph))
  | .leftJoin left right exprs => do
    let root ← left.plan settings
    let child ← right.plan settings
    return root.addChild (child.addFilters exprs)
  | .conditional left right => do
    let root ← left.plan settings
    let child ← right.plan settings
    return root.addChild child
  | .filter exprs sub => do
    let node ← sub.plan settings
    return node.addFilters exprs
  | .join l r => .error (.unsupported (join l r).name)
  | .union l r => .error (.unsupported (union l r).name)
  | .sequence parts => .error (.unsupported (sequence parts).name)
  | .project vars sub => .error (.unsupported (project vars sub).name)
  | .distinct sub => .error (.unsupported (distinct sub).name)

end Algebra

end QuadQuery
