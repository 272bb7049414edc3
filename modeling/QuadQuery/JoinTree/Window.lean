import QuadQuery.JoinTree.Node

/-!
# Windows

What a node does with the windows of its children. A child is advanced by a given function, so
that everything here is said without knowing how a node is advanced.

A step may fail; what it has changed until then stays changed.
-/

namespace QuadQuery

/-- Computes the next row of a node unless one is pending; says whether there is a row. -/
abbrev Advance := Node → Except Failure Bool × Node

namespace Window

/-- Draws rows from a node until it has none left or `count` have been drawn. -/
def draw (advance : Advance) : Nat → Node → Except Failure Unit × List Binding × Node
  | 0, node => (.ok (), [], node)
  | count + 1, node =>
    match advance node with
    | (.error failure, node) => (.error failure, [], node)
    | (.ok false, node) => (.ok (), [], node)
    | (.ok true, node) =>
      match node.take with
      | (.error failure, node) => (.error failure, [], node)
      | (.ok row, node) =>
        let (result, rows, node) := draw advance count node
        (result, row :: rows, node)

/-- Fills the window with the next rows of the child and looks whether there are more. -/
def fill (advance : Advance) (capacity : Nat) (w : Window Node) :
    Except Failure Unit × Window Node :=
  match draw advance capacity w.node with
  | (.error failure, entries, node) => (.error failure, { w with node, entries, cursor := 0 })
  | (.ok (), entries, node) =>
    let w := { w with node, entries, cursor := 0 }
    if entries.length = capacity then
      match advance node with
      | (.error failure, node) => (.error failure, { w with node })
      | (.ok more, node) => (.ok (), { w with node, more })
    else (.ok (), { w with more := false })

/-- Moves the child to a new context and fills the first window. -/
def load (env : Env) (advance : Advance) (context : Binding) (firstChanged capacity : Nat)
    (w : Window Node) : Except Failure Unit × Window Node :=
  let w := { w with chunk := 0 }
  match w.node.seek env context firstChanged with
  | (.error failure, node) => (.error failure, { w with node })
  | (.ok true, node) => fill advance capacity { w with node }
  | (.ok false, node) => (.ok (), { w with node, entries := [], cursor := 0, more := false })

/-- Moves to the next row of the window if there is one. -/
def step? (w : Window Node) : Option (Window Node) :=
  if w.cursor + 1 < w.entries.length then some { w with cursor := w.cursor + 1 } else none

/-- Fills the window with the rows after it; says whether there were any. -/
def refill (advance : Advance) (capacity : Nat) (w : Window Node) :
    Except Failure Bool × Window Node :=
  if !w.more then (.ok false, w)
  else
    match w.fill advance capacity with
    | (.error failure, w) => (.error failure, w)
    | (.ok (), w) => (.ok !w.isEmpty, { w with chunk := w.chunk + 1 })

/-- Goes back to the first row that the child has for its context. -/
def rewind (advance : Advance) (capacity : Nat) (w : Window Node) :
    Except Failure Unit × Window Node :=
  if w.chunk = 0 then (.ok (), { w with cursor := 0 })
  else fill advance capacity { w with node := w.node.reset.2, chunk := 0 }

/-! ## The windows of all children -/

/-- Moves the children to a new context, from left to right. -/
def loadAll (env : Env) (advance : Advance) (context : Binding) (firstChanged capacity : Nat) :
    List (Window Node) → Except Failure Unit × List (Window Node)
  | [] => (.ok (), [])
  | w :: rest =>
    match w.load env advance context firstChanged capacity with
    | (.error failure, w) => (.error failure, w :: rest)
    | (.ok (), w) =>
      let (result, rest) := loadAll env advance context firstChanged capacity rest
      (result, w :: rest)

/-- Goes back to the first row in every window that is not empty, from left to right. -/
def rewindAll (advance : Advance) (capacity : Nat) :
    List (Window Node) → Except Failure Unit × List (Window Node)
  | [] => (.ok (), [])
  | w :: rest =>
    if w.isEmpty then
      let (result, rest) := rewindAll advance capacity rest
      (result, w :: rest)
    else
      match w.rewind advance capacity with
      | (.error failure, w) => (.error failure, w :: rest)
      | (.ok (), w) =>
        let (result, rest) := rewindAll advance capacity rest
        (result, w :: rest)

/-- How far an odometer got when it was to be turned. -/
structure Turn where
  /-- Whether some window moved on, or what went wrong before. -/
  moved : Except Failure Bool
  /-- Whether that took new rows from a child. -/
  refilled : Bool
  /-- The windows in front of the one that moved. -/
  lower : List (Window Node)
  /-- The window that moved and those behind it. -/
  upper : List (Window Node)

/-- Moves the first window on that can be, within its rows or by new ones. -/
def moveFirst (advance : Advance) (capacity : Nat) : List (Window Node) → Turn
  | [] => ⟨.ok false, false, [], []⟩
  | w :: rest =>
    let behind (w : Window Node) : Turn :=
      let turn := moveFirst advance capacity rest
      { turn with lower := w :: turn.lower }
    if w.isEmpty then behind w
    else
      match w.step? with
      | some w => ⟨.ok true, false, [], w :: rest⟩
      | none =>
        match w.refill advance capacity with
        | (.error failure, w) => ⟨.error failure, false, [], w :: rest⟩
        | (.ok true, w) => ⟨.ok true, true, [], w :: rest⟩
        | (.ok false, w) => behind w

end Window

end QuadQuery
