import QuadQuery.JoinTree.Window

/-!
# Advancing a node

A node finds its next row by drawing own rows and turning the odometer of its windows until
the filters are satisfied. One turn of that loop is `Node.tick`; it advances children, whose
trees are smaller.

The loop is bounded by `Node.budget`, a number computed from the tree: the rows that the scans
have left, and for each own row the combinations that the children's rows allow.
-/

namespace QuadQuery

namespace Node

/-- Draws the next own row. If the filters that it decides let it pass, the children are moved
to it and the first combination is put together. -/
def find (env : Env) (advance : Advance) (n : Node) : Except Failure Unit × Node :=
  match n.scan.next? env.cancelled with
  | none => (.ok (), { n with state := .exhausted })
  | some (ids, scan) =>
    let own := Binding.ofRow n.attributes ids
    let n := { n with scan, stats.ownRows := n.stats.ownRows + 1 }
    match n.checkPre env.dataset own with
    | (false, n) => (.ok (), n)
    | (true, n) =>
      let context := own.extendAbsent n.context
      let firstChanged := n.scan.order.firstChanged n.childContext context
      match Window.loadAll env advance context firstChanged n.capacity n.children with
      | (.error failure, children) => (.error failure, { n with children })
      | (.ok (), children) =>
        let n := combine { n with children, own, childContext := some context }
        let phase := phaseFor n.children
        match n.checkPost env.dataset with
        | (true, n) => (.ok (), { n with state := .ready phase })
        | (false, n) => (.ok (), { n with state := .active phase })

/-- Turns the odometer by one combination; says whether there was another one. -/
def nextCombination (advance : Advance) (n : Node) : Except Failure Bool × Node :=
  let turn := Window.moveFirst advance n.capacity n.children
  let stats := if turn.refilled then { n.stats with refills := n.stats.refills + 1 } else n.stats
  let n := { n with stats }
  match turn.moved with
  | .error failure => (.error failure, { n with children := turn.lower ++ turn.upper })
  | .ok false => (.ok false, { n with children := turn.lower ++ turn.upper })
  | .ok true =>
    match Window.rewindAll advance n.capacity turn.lower with
    | (.error failure, lower) => (.error failure, { n with children := lower ++ turn.upper })
    | (.ok (), lower) => (.ok true, { n with children := lower ++ turn.upper })

/-- Puts the next combination together, or goes back to drawing own rows if there is none. -/
def extend (env : Env) (advance : Advance) (n : Node) : Except Failure Unit × Node :=
  match n.nextCombination advance with
  | (.error failure, n) => (.error failure, n)
  | (.ok false, n) => (.ok (), { n with state := .active .find })
  | (.ok true, n) =>
    match n.combine.checkPost env.dataset with
    | (true, n) => (.ok (), { n with state := .ready .extend })
    | (false, n) => (.ok (), n)

/-- Advances a node with at most `budget` turns of the loop in any of its branches. -/
def advanceWithin (env : Env) : Nat → Advance
  | 0, n => (.error .outOfSteps, n)
  | budget + 1, n =>
    match n.state with
    | .exhausted => (.ok false, n)
    | .ready _ => (.ok true, n)
    | .active phase =>
      let tick := match phase with
        | .find => n.find env (advanceWithin env budget)
        | .extend => n.extend env (advanceWithin env budget)
      match tick with
      | (.error failure, n) => (.error failure, n)
      | (.ok (), n) => advanceWithin env budget n

/-! ## The bound -/

/-- What is known about the work ahead: for a node that is moved to another context, for a node
as it stands, and for all of its branches together. -/
structure Work where
  /-- Turns of the loop that a node can need after it was moved. -/
  ceiling : Nat
  /-- Turns of the loop that a node needs as it stands. -/
  ahead : Nat
  /-- A budget that suffices for the node and everything below it. -/
  budget : Nat

/-- What is known about the odometer of some windows. -/
structure OdometerWork where
  /-- More than the number of combinations. -/
  combinations : Nat
  /-- More than the number of turns that are left. -/
  turns : Nat
  /-- A budget that suffices for all children. -/
  budget : Nat

/-- The work of a node, given that of its odometer. -/
def workOf (d : Dataset) (scan : Scan) (state : NodeState) (odometer : OdometerWork) : Work :=
  let perRow := 2 * odometer.combinations + 2
  let ceiling := scan.limit d * perRow + 2
  let ahead := match state with
    | .exhausted => 0
    | .active .find => scan.left * perRow + 1
    | .ready .find => scan.left * perRow + 2
    | .active .extend => scan.left * perRow + 2 * odometer.turns + 3
    | .ready .extend => scan.left * perRow + 2 * odometer.turns + 4
  ⟨ceiling, ahead, max ceiling ahead + odometer.budget + 1⟩

mutual

/-- The work ahead of a node. -/
def work (d : Dataset) : Node → Work
  | ⟨scan, _, _, children, _, _, state, _, _, _, _, _, _⟩ =>
    workOf d scan state (odometerWork d children)

/-- The work of the odometer of some windows, the first of them turning fastest. -/
def odometerWork (d : Dataset) : List (Window Node) → OdometerWork
  | [] => ⟨1, 0, 0⟩
  | ⟨node, entries, cursor, _, _⟩ :: rest =>
    let child := node.work d
    let upper := odometerWork d rest
    let rows := max child.ceiling (entries.length + child.ahead) + 1
    ⟨rows * upper.combinations, rows * upper.turns + (entries.length - 1 - cursor) + child.ahead,
      child.budget + upper.budget⟩

end

/-- A number of turns that is enough for the node to come to its next row or to its end. -/
def budget (d : Dataset) (n : Node) : Nat :=
  (n.work d).budget

/-- Computes the next row unless one is pending; says whether there is a row. As long as the row
is not taken, doing so again changes nothing. -/
def advance (env : Env) (n : Node) : Except Failure Bool × Node :=
  n.advanceWithin env (n.budget env.dataset)

end Node

end QuadQuery
