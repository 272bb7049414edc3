import QuadQuery.Expr
import QuadQuery.Pattern

/-!
# Pattern algebra

The operators that a query is written with. The first five can be planned as a join tree; the
others are part of the language so that a query that uses them can be told so by name.
-/

namespace QuadQuery

/-- A query. -/
inductive Algebra where
  | bgp (pattern : BasicPattern)
  | quadPattern (graph : Slot) (pattern : BasicPattern)
  | leftJoin (left right : Algebra) (exprs : List Expr)
  | conditional (left right : Algebra)
  | filter (exprs : List Expr) (sub : Algebra)
  | join (left right : Algebra)
  | union (left right : Algebra)
  | sequence (parts : List Algebra)
  | project (vars : List Variable) (sub : Algebra)
  | distinct (sub : Algebra)

namespace Algebra

/-- The word that an operator is written with. -/
def name : Algebra → String
  | .bgp _ => "bgp"
  | .quadPattern .. => "quadpattern"
  | .leftJoin .. => "leftjoin"
  | .conditional .. => "conditional"
  | .filter .. => "filter"
  | .join .. => "join"
  | .union .. => "union"
  | .sequence _ => "sequence"
  | .project .. => "project"
  | .distinct _ => "distinct"

def exprsText (exprs : List Expr) : String :=
  "(exprs " ++ " ".intercalate (exprs.map Expr.text) ++ ")"

/-- The written form of a query, on one line. -/
def text : Algebra → String
  | .bgp pattern => "(bgp " ++ pattern.text ++ ")"
  | .quadPattern graph pattern => "(quadpattern " ++ graph.text ++ " " ++ pattern.text ++ ")"
  | .leftJoin left right [] => "(leftjoin " ++ left.text ++ " " ++ right.text ++ ")"
  | .leftJoin left right exprs =>
    "(leftjoin " ++ left.text ++ " " ++ right.text ++ " " ++ exprsText exprs ++ ")"
  | .conditional left right => "(conditional " ++ left.text ++ " " ++ right.text ++ ")"
  | .filter exprs sub => "(filter " ++ exprsText exprs ++ " " ++ sub.text ++ ")"
  | .join left right => "(join " ++ left.text ++ " " ++ right.text ++ ")"
  | .union left right => "(union " ++ left.text ++ " " ++ right.text ++ ")"
  | .sequence parts => "(sequence " ++ " ".intercalate (texts parts) ++ ")"
  | .project vars sub =>
    "(project (" ++ " ".intercalate (vars.map Variable.text) ++ ") " ++ sub.text ++ ")"
  | .distinct sub => "(distinct " ++ sub.text ++ ")"
where
  texts : List Algebra → List String
    | [] => []
    | part :: rest => part.text :: texts rest

/-- The operands of an operator, in the order in which they are written. -/
def operands : Algebra → List Algebra
  | .bgp _ | .quadPattern .. => []
  | .leftJoin left right _ | .conditional left right | .join left right | .union left right =>
    [left, right]
  | .sequence parts => parts
  | .filter _ sub | .project _ sub | .distinct sub => [sub]

/-- The operators with their depths, each before its operands. -/
def preorder (depth : Nat) : Algebra → List (Nat × Algebra)
  | .bgp p => [(depth, .bgp p)]
  | .quadPattern g p => [(depth, .quadPattern g p)]
  | .leftJoin l r es =>
    (depth, .leftJoin l r es) :: l.preorder (depth + 1) ++ r.preorder (depth + 1)
  | .conditional l r =>
    (depth, .conditional l r) :: l.preorder (depth + 1) ++ r.preorder (depth + 1)
  | .filter es s => (depth, .filter es s) :: s.preorder (depth + 1)
  | .join l r => (depth, .join l r) :: l.preorder (depth + 1) ++ r.preorder (depth + 1)
  | .union l r => (depth, .union l r) :: l.preorder (depth + 1) ++ r.preorder (depth + 1)
  | .sequence parts => (depth, .sequence parts) :: preorders (depth + 1) parts
  | .project vs s => (depth, .project vs s) :: s.preorder (depth + 1)
  | .distinct s => (depth, .distinct s) :: s.preorder (depth + 1)
where
  preorders (depth : Nat) : List Algebra → List (Nat × Algebra)
    | [] => []
    | part :: rest => part.preorder depth ++ preorders depth rest

end Algebra

end QuadQuery
