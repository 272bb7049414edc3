import QuadQuery.Regex
import QuadQuery.Term
import QuadQuery.Variable

/-!
# Filter expressions

An expression is evaluated on a row and has one of three outcomes: true, false, or undecided
where a variable is unbound or the operands do not fit. A conjunction is false as soon as one
side is false, whatever the other, and dually for a disjunction. Undecided is written `none`.
-/

namespace QuadQuery

/-- How two values are compared. -/
inductive Comparison where
  | eq
  | ne
  | lt
  | le
  | gt
  | ge
deriving DecidableEq

namespace Comparison

def symbol : Comparison → String
  | .eq => "="
  | .ne => "!="
  | .lt => "<"
  | .le => "<="
  | .gt => ">"
  | .ge => ">="

/-- Whether the comparison holds of values in this order. -/
def holds : Comparison → Ordering → Bool
  | .eq, o => o == .eq
  | .ne, o => o != .eq
  | .lt, o => o == .lt
  | .le, o => o != .gt
  | .gt, o => o == .gt
  | .ge, o => o != .lt

/-- The comparison asks for an order and not just for sameness. -/
def isOrdering : Comparison → Bool
  | .eq | .ne => false
  | _ => true

end Comparison

/-- A condition on a row. -/
inductive Expr where
  | var (v : Variable)
  | const (t : Term)
  | bound (v : Variable)
  | not (e : Expr)
  | and (l r : Expr)
  | or (l r : Expr)
  | compare (c : Comparison) (l r : Expr)
  | regex (e : Expr) (pattern : Regex)

/-- What an expression evaluates to, if it is decided. -/
inductive Value where
  | term (t : Term)
  | bool (b : Bool)
deriving DecidableEq

namespace Value

/-- A value where a condition is expected: texts hold unless empty and numbers unless zero;
other terms are undecided. -/
def truth? : Value → Option Bool
  | .bool b => some b
  | .term (.str s) => some (!s.isEmpty)
  | .term t => t.asDecimal?.map fun d => !d.isZero

/-- How two values are ordered, as far as the comparison can ask for it: numbers by value,
texts by code points, dates by time. Truth values and other pairs of terms can only be the
same or not. -/
def order? (c : Comparison) : Value → Value → Option Ordering
  | .bool a, .bool b => if c.isOrdering then none else some (compare a b)
  | .term a, .term b =>
    match a.asDecimal?, b.asDecimal? with
    | some x, some y => some (x.compare y)
    | _, _ =>
      match a, b with
      | .str x, .str y => some (compare x y)
      | .date x, .date y => some (x.compare y)
      | a, b => if c.isOrdering then none else some (if a.same b then .eq else .lt)
  | _, _ => none

def compare? (c : Comparison) (a b : Value) : Option Bool :=
  (order? c a b).map c.holds

end Value

namespace Expr

/-- The variables in the order of their first appearance. -/
def vars (e : Expr) : List Variable :=
  Variable.firstAppearances (mentions e)
where
  /-- All mentions of variables, from left to right. -/
  mentions : Expr → List Variable
    | .var v | .bound v => [v]
    | .const _ => []
    | .not e | .regex e _ => mentions e
    | .and l r | .or l r | .compare _ l r => mentions l ++ mentions r

/-- False as soon as one side is false, true if both are. -/
def bothHold : Option Bool → Option Bool → Option Bool
  | some false, _ => some false
  | _, some false => some false
  | some true, some true => some true
  | _, _ => none

/-- True as soon as one side is true, false if both are. -/
def eitherHolds : Option Bool → Option Bool → Option Bool
  | some true, _ => some true
  | _, some true => some true
  | some false, some false => some false
  | _, _ => none

/-- The value on a row that gives terms to variables; `none` if it is undecided. -/
def eval (row : Variable → Option Term) : Expr → Option Value
  | .var v => (row v).map .term
  | .const t => some (.term t)
  | .bound v => some (.bool (row v).isSome)
  | .not e => ((e.eval row).bind Value.truth?).map fun b => .bool !b
  | .and l r =>
    (bothHold ((l.eval row).bind Value.truth?) ((r.eval row).bind Value.truth?)).map .bool
  | .or l r =>
    (eitherHolds ((l.eval row).bind Value.truth?) ((r.eval row).bind Value.truth?)).map .bool
  | .compare c l r => do
    let a ← l.eval row
    let b ← r.eval row
    (Value.compare? c a b).map .bool
  | .regex e pattern =>
    match e.eval row with
    | some (.term (.str s)) => some (.bool (pattern.isMatch s))
    | _ => none

/-- The outcome where a condition is expected. -/
def truth (row : Variable → Option Term) (e : Expr) : Option Bool :=
  (e.eval row).bind Value.truth?

/-- A filter lets a row pass only if it is true of it. -/
def isSatisfied (row : Variable → Option Term) (e : Expr) : Bool :=
  e.truth row == some true

/-- The written form; a constant text is not escaped. -/
def text : Expr → String
  | .var v => v.text
  | .const t => t.text
  | .bound v => "(bound " ++ v.text ++ ")"
  | .not e => "(! " ++ e.text ++ ")"
  | .and l r => "(&& " ++ l.text ++ " " ++ r.text ++ ")"
  | .or l r => "(|| " ++ l.text ++ " " ++ r.text ++ ")"
  | .compare c l r => "(" ++ c.symbol ++ " " ++ l.text ++ " " ++ r.text ++ ")"
  | .regex e pattern => "(regex " ++ e.text ++ " \"" ++ pattern.source ++ "\")"

end Expr

end QuadQuery
