import QuadQuery.Scan.Fixed
import QuadQuery.Scan.Index

/-!
# Scans

What a node of a join tree draws its own rows from. A scan is initialized once, then opened or
sought, and hands out rows until there are none left for its context.
-/

namespace QuadQuery

/-- What a query runs against: the dataset, and whether the query has been cancelled. -/
structure Env where
  dataset : Dataset
  cancelled : Bool := false

/-- A source of rows. -/
inductive Scan where
  | index (s : IndexScan)
  | fixed (s : FixedScan)

namespace Scan

/-- Fixes the attributes, given the order of the variables met further up, and returns the order
with those of the scan. -/
def init (s : Scan) (d : Dataset) (incoming : AttributeOrder) : AttributeOrder × Scan :=
  match s with
  | .index s => (s.init d incoming).map id .index
  | .fixed s => (s.init incoming).map id .fixed

/-- Whether there can be any rows at all. -/
def openTerms : Scan → Bool
  | .index s => s.openTerms
  | .fixed s => s.openTerms

/-- Starts without a context. -/
def «open» (s : Scan) (d : Dataset) : Except Failure Unit × Scan :=
  match s with
  | .index s =>
    match s.open d with
    | .ok s => (.ok (), .index s)
    | .error fault => (.error (.scan fault), .index s)
  | .fixed s =>
    let (result, s) := s.open
    (result.mapError .scan, .fixed s)

/-- Moves to a context; says whether it has rows. -/
def seek (s : Scan) (d : Dataset) (context : Binding) (firstChanged : Nat) :
    Except Failure Bool × Scan :=
  match s with
  | .index s =>
    match s.seek d context firstChanged with
    | .ok (found, s) => (.ok found, .index s)
    | .error fault => (.error (.scan fault), .index s)
  | .fixed s =>
    let (result, s) := s.seek
    (result.mapError .scan, .fixed s)

/-- Starts over in the current context; says whether it has rows. -/
def reset : Scan → Bool × Scan
  | .index s => s.reset.map id .index
  | .fixed s => s.reset.map id .fixed

/-- Hands out the next row. Only scans of the dataset take notice of cancellation. -/
def next? (s : Scan) (cancelled : Bool) : Option (Row × Scan) :=
  match s with
  | .index s => (s.next? cancelled).map fun (row, s) => (row, .index s)
  | .fixed s => s.next?.map fun (row, s) => (row, .fixed s)

/-- The variables of the rows, in the order of their values. -/
def attributes : Scan → List Variable
  | .index s => s.attributes
  | .fixed s => s.vars

def hasVariable (s : Scan) (v : Variable) : Bool :=
  match s with
  | .index s => s.hasVariable v
  | .fixed s => s.hasVariable v

/-- The order of variables that the scan has returned from `init`. -/
def order : Scan → AttributeOrder
  | .index s => s.order
  | .fixed s => s.order

/-- The number of rows that are left in the current context. -/
def left : Scan → Nat
  | .index s => s.rest.length
  | .fixed s => s.rest.length

/-- A number of rows that no context exceeds. A row of the dataset is made by choosing a quad
for each pattern. -/
def limit (d : Dataset) : Scan → Nat
  | .index s => max (Nat.pow d.size s.pattern.size) s.rows.length
  | .fixed s => s.rows.length

end Scan

end QuadQuery
