import QuadQuery.Query

/-!
# Sessions

A session runs queries over one dataset and numbers them in the order in which they are
submitted. Between its submission and its completion a query is active and can be cancelled by
its number.
-/

namespace QuadQuery

/-- How long a submitted query may take: no time at all, or as long as it needs. -/
inductive TimeLimit where
  | none
  | zero
deriving DecidableEq

/-- How a query ended. -/
structure Outcome where
  rows : Nat
  cancelled : Bool
deriving DecidableEq

/-- A query that was submitted and has not been completed. -/
structure Submission where
  id : Nat
  algebra : Algebra
  cancelled : Bool

/-- Queries over a dataset. -/
structure Session where
  dataset : Dataset
  settings : Settings
  lastId : Nat := 0
  active : List Submission := []

namespace Session

/-- Gives a query the next number and makes it active. Without any time it counts as cancelled
from the start. -/
def submit (s : Session) (algebra : Algebra) (limit : TimeLimit := .none) :
    Submission × Session :=
  let submission := { id := s.lastId + 1, algebra, cancelled := limit == .zero }
  (submission, { s with lastId := s.lastId + 1, active := s.active ++ [submission] })

/-- Cancels an active query; says whether there is one of this number. -/
def cancel (s : Session) (id : Nat) : Bool × Session :=
  let mark (q : Submission) : Submission := if q.id == id then { q with cancelled := true } else q
  (s.active.any (·.id == id), { s with active := s.active.map mark })

/-- The number of active queries. -/
def activeCount (s : Session) : Nat :=
  s.active.length

/-- The rows that a query returns, and how it ends. -/
def run (s : Session) (q : Submission) : List Solution × Except Failure Outcome :=
  match Query.start s.dataset s.settings q.algebra with
  | .error failure => ([], .error failure)
  | .ok query =>
    let (rows, result, query) := query.drain { dataset := s.dataset, cancelled := q.cancelled }
    (rows, result.map fun _ => { rows := query.rows, cancelled := q.cancelled })

/-- Runs an active query to its end, after which it is active no more; nothing happens if it is
not active. -/
def complete (s : Session) (id : Nat) :
    Option (List Solution × Except Failure Outcome) × Session :=
  ((s.active.find? (·.id == id)).map s.run,
    { s with active := s.active.filter (·.id != id) })

/-- Runs a query without a number. -/
def runNow (s : Session) (algebra : Algebra) : Except Failure (List Solution) := do
  let query ← Query.start s.dataset s.settings algebra
  let (rows, result, _) := query.drain { dataset := s.dataset }
  result.map fun _ => rows

end Session

end QuadQuery
