import QuadQuery.Plan
import QuadQuery.Solution

/-!
# Running queries

A running query is a join tree that is drawn from row by row. It is finished once it has no
row left, was found cancelled, or has failed.
-/

namespace QuadQuery

/-- A running query. -/
structure Query where
  root : Node
  /-- How many rows it has returned. -/
  rows : Nat := 0
  finished : Bool := false

namespace Query

/-- Plans a query over a dataset and opens it. -/
def start (d : Dataset) (settings : Settings) (a : Algebra) : Except Failure Query := do
  let root ← a.plan settings
  let (_, root) := root.init d ∅
  match root.open { dataset := d } with
  | (.ok (), root) => return { root }
  | (.error failure, _) => throw failure

/-- Returns the next row with its terms as numbers. -/
def nextBinding (env : Env) (q : Query) : Except Failure (Option Binding) × Query :=
  if q.finished then (.ok none, q)
  else if env.cancelled then (.ok none, { q with finished := true })
  else
    match q.root.advance env with
    | (.error failure, root) => (.error failure, { q with root })
    | (.ok false, root) => (.ok none, { q with root, finished := true })
    | (.ok true, root) =>
      let (row, root) := root.take
      (row.map some, { q with root, rows := q.rows + 1 })

/-- Returns the next row with its terms; a failure finishes the query. -/
def next (env : Env) (q : Query) : Except Failure (Option Solution) × Query :=
  match q.nextBinding env with
  | (.error failure, q) => (.error failure, { q with finished := true })
  | (.ok none, q) => (.ok none, q)
  | (.ok (some row), q) =>
    match Solution.ofBinding env.dataset.terms row with
    | .ok solution => (.ok (some solution), q)
    | .error id => (.error (.unknownTerm id), { q with finished := true })

/-- Returns the next `count` rows, fewer if there are no more or the query fails. -/
def nextMany (env : Env) : Nat → Query → List Solution × Except Failure Unit × Query
  | 0, q => ([], .ok (), q)
  | count + 1, q =>
    match q.next env with
    | (.error failure, q) => ([], .error failure, q)
    | (.ok none, q) => ([], .ok (), q)
    | (.ok (some solution), q) =>
      let (rest, result, q) := nextMany env count q
      (solution :: rest, result, q)

/-- Returns all rows that are left. The work ahead of the root is more than their number. -/
def drain (env : Env) (q : Query) : List Solution × Except Failure Unit × Query :=
  q.nextMany env ((q.root.work env.dataset).ahead + 1)

end Query

end QuadQuery
