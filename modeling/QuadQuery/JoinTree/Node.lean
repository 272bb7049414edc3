import QuadQuery.Expr
import QuadQuery.Scan

/-!
# Join trees

A node draws own rows from its scan and has optional children. For each own row every child is
moved to the new context, a window of its rows is kept, and the combinations of the windows'
rows are walked through like the numbers of an odometer, the first child turning fastest. A
child without rows contributes nothing to a combination, so the own row is not lost.
-/

namespace QuadQuery

/-- A stretch of the rows that a child has for the current own row of its parent. -/
structure Window (ν : Type) where
  /-- The child. -/
  node : ν
  entries : List Binding := []
  /-- The place of the current row among the entries. -/
  cursor : Nat := 0
  /-- The child had further rows when the window was filled. -/
  more : Bool := false
  /-- How many windows have gone by since the child was moved to its context. -/
  chunk : Nat := 0

namespace Window

variable {ν : Type}

def isEmpty (w : Window ν) : Bool :=
  w.entries.isEmpty

/-- The row that the current combination takes from the window. -/
def current? (w : Window ν) : Option Binding :=
  w.entries[w.cursor]?

end Window

/-- Counts of the work that a node has done. -/
structure NodeStats where
  ownRows : Nat := 0
  preEvaluations : Nat := 0
  postEvaluations : Nat := 0
  combinations : Nat := 0
  refills : Nat := 0
deriving DecidableEq

/-- A required pattern with its optional children. -/
structure Node where
  scan : Scan
  /-- How many rows a window may hold. -/
  capacity : Nat
  attributes : List Variable := []
  children : List (Window Node) := []
  /-- Filters that the own row decides. -/
  preFilters : List Expr := []
  /-- Filters that need a combination. -/
  postFilters : List Expr := []
  state : NodeState := .active .find
  neverMatches : Bool := false
  /-- The values that the node was last moved to. -/
  context : Binding := ∅
  own : Binding := ∅
  /-- The own row with the rows of the current combination. -/
  extended : Binding := ∅
  /-- The context that the children were last moved to. -/
  childContext : Option Binding := none
  stats : NodeStats := {}

namespace Node

/-- A node without children; a window holds at least one row. -/
def ofScan (scan : Scan) (capacity : Nat) : Node :=
  { scan, capacity := max capacity 1 }

/-- Adds a child behind the others. -/
def addChild (n child : Node) : Node :=
  { n with children := n.children ++ [{ node := child }] }

/-- Whether the own rows of the node decide the filter. -/
def decides (n : Node) (e : Expr) : Bool :=
  e.vars.all n.scan.hasVariable

/-- Files a filter with those that the own row decides or with the others. -/
def addFilter (n : Node) (e : Expr) : Node :=
  if n.decides e then { n with preFilters := n.preFilters ++ [e] }
  else { n with postFilters := n.postFilters ++ [e] }

mutual

/-- Settles the order of variables with the own scan and then with every child in turn. -/
def init (d : Dataset) (incoming : AttributeOrder) : Node → AttributeOrder × Node
  | ⟨scan, capacity, _, children, preFilters, postFilters, state, _, context, own, extended,
      childContext, stats⟩ =>
    let (order, scan) := scan.init d incoming
    let neverMatches := !scan.openTerms
    let (order, children) := initAll d order children
    (order, {
      scan, capacity, children, preFilters, postFilters, context, own, extended, childContext,
      stats, neverMatches
      attributes := scan.attributes
      state := if neverMatches then .exhausted else state })

/-- Settles the order of variables with children from left to right. -/
def initAll (d : Dataset) (incoming : AttributeOrder) :
    List (Window Node) → AttributeOrder × List (Window Node)
  | [] => (incoming, [])
  | ⟨node, entries, cursor, more, chunk⟩ :: rest =>
    let (order, node) := node.init d incoming
    let (order, rest) := initAll d order rest
    (order, ⟨node, entries, cursor, more, chunk⟩ :: rest)

end

/-- The state after the scan was moved: there is something to find or not. -/
def stateFor (found : Bool) : NodeState :=
  if found then .active .find else .exhausted

/-- Starts without a context. This is for the root; children are moved by their parents. -/
def «open» (env : Env) (n : Node) : Except Failure Unit × Node :=
  let n := { n with context := ∅, childContext := none }
  if n.neverMatches then (.ok (), { n with state := .exhausted })
  else
    match n.scan.open env.dataset with
    | (.ok (), scan) => (.ok (), { n with scan, state := .active .find })
    | (.error failure, scan) => (.error failure, { n with scan })

/-- Moves to a context of which only variables at or after the place `firstChanged` of the
shared order differ from the last one; says whether the own scan has rows for it. -/
def seek (env : Env) (context : Binding) (firstChanged : Nat) (n : Node) :
    Except Failure Bool × Node :=
  if n.neverMatches then (.ok false, { n with state := .exhausted })
  else
    match n.scan.seek env.dataset context firstChanged with
    | (.ok found, scan) => (.ok found, { n with context, scan, state := stateFor found })
    | (.error failure, scan) => (.error failure, { n with context, scan })

/-- Starts over in the current context; says whether the own scan has rows for it. -/
def reset (n : Node) : Bool × Node :=
  if n.neverMatches then (false, { n with state := .exhausted })
  else
    let (found, scan) := n.scan.reset
    (found, { n with scan, state := stateFor found })

/-- Hands out the pending row. -/
def take (n : Node) : Except Failure Binding × Node :=
  match n.state with
  | .ready phase => (.ok n.extended, { n with state := .active phase, extended := ∅ })
  | state => (.error (.noPendingRow state), n)

/-! ## Filters and combinations -/

/-- The terms that filters see: those of the row, and those of the context for variables that
the row lacks. -/
def view (d : Dataset) (row context : Binding) (v : Variable) : Option Term :=
  ((row.get? v).or (context.get? v)).bind d.term?

/-- Evaluates the filters that the own row decides. -/
def checkPre (d : Dataset) (own : Binding) (n : Node) : Bool × Node :=
  if n.preFilters.isEmpty then (true, n)
  else
    (n.preFilters.all fun e => e.isSatisfied (view d own ∅),
      { n with stats.preEvaluations := n.stats.preEvaluations + 1 })

/-- Evaluates the filters that need a combination. -/
def checkPost (d : Dataset) (n : Node) : Bool × Node :=
  if n.postFilters.isEmpty then (true, n)
  else
    (n.postFilters.all fun e => e.isSatisfied (view d n.extended n.context),
      { n with stats.postEvaluations := n.stats.postEvaluations + 1 })

/-- The own row with the current rows of the children, where each variable keeps the value that
it was given first. -/
def combined (own : Binding) (children : List (Window Node)) : Binding :=
  children.foldl (fun row w => (w.current?.map row.extendAbsent).getD row) own

/-- Puts the current combination together. -/
def combine (n : Node) : Node :=
  { n with
    extended := combined n.own n.children
    stats.combinations := n.stats.combinations + 1 }

/-- Some child has rows for the current own row. -/
def phaseFor (children : List (Window Node)) : Phase :=
  if children.any (!·.isEmpty) then .extend else .find

end Node

end QuadQuery
