import QuadQuery.JoinTree.Advance
import QuadQuery.Proofs.JoinTree.Wheels
import QuadQuery.Proofs.Merging
import QuadQuery.Proofs.Scan.Position
import QuadQuery.Proofs.Variables

/-!
# The rows of a join tree

What a join tree should come to is said by nested loops that remember nothing: for each own row
of a node in a context, the rows of every child in the context extended by the own row, and from
them all combinations. `Node.rows` are these rows; `Node.remaining` are those that a node in the
midst of its work has still to show, read off its scan and the windows of its children.
-/

namespace QuadQuery

namespace Node

/-- What a child with these rows contributes: one of them, or nothing if there are none. -/
def column {α : Type} (rows : List α) : List (Option α) :=
  if rows.isEmpty then [none] else rows.map some

/-- The own row with the picked rows, where each variable keeps the value it was given first. -/
def merge (own : Binding) (picks : List (Option Binding)) : Binding :=
  picks.foldl (fun row pick => (pick.map row.extendAbsent).getD row) own

/-- The filters hold of a row in a context. -/
def passes (d : Dataset) (context : Binding) (filters : List Expr) (row : Binding) : Bool :=
  filters.all fun e => e.isSatisfied (view d row context)

/-- The merged rows of some picks on which the filters hold. -/
def merged (d : Dataset) (context : Binding) (filters : List Expr) (own : Binding)
    (picks : List (List (Option Binding))) : List Binding :=
  (picks.map (merge own)).filter (passes d context filters)

mutual

/-- The rows of a node in a context, in the order in which they are found. -/
def rows (d : Dataset) (context : Binding) : Node → List Binding
  | ⟨scan, _, _, children, preFilters, postFilters, _, _, _, _, _, _, _⟩ =>
    if scan.openTerms then
      (scan.rowsAt d context).flatMap fun ids =>
        let own := Binding.ofRow scan.attributes ids
        merged d context (preFilters ++ postFilters) own
          (Wheel.picks (columns d (own.extendAbsent context) children))
    else []

/-- What each of the children contributes in a context. -/
def columns (d : Dataset) (context : Binding) : List (Window Node) → List (List (Option Binding))
  | [] => []
  | ⟨node, _, _, _, _⟩ :: rest => column (node.rows d context) :: columns d context rest

end

/-- The rows that come from one own row. -/
def rowsOf (d : Dataset) (context : Binding) (n : Node) (ids : Row) : List Binding :=
  let own := Binding.ofRow n.scan.attributes ids
  merged d context (n.preFilters ++ n.postFilters) own
    (Wheel.picks (columns d (own.extendAbsent context) n.children))

mutual

/-- The rows that a node has still to show in its context. -/
def remaining (d : Dataset) : Node → List Binding
  | ⟨scan, capacity, attributes, children, preFilters, postFilters, state, neverMatches, context,
      own, extended, childContext, stats⟩ =>
    let fresh := scan.rest.flatMap (rowsOf d context ⟨scan, capacity, attributes, children,
      preFilters, postFilters, state, neverMatches, context, own, extended, childContext, stats⟩)
    let turns := Wheel.positions (wheels d (own.extendAbsent context) children)
    let others := merged d context postFilters own turns.tail
    match state with
    | .exhausted => []
    | .active .find => fresh
    | .ready .find => extended :: fresh
    | .active .extend => others ++ fresh
    | .ready .extend => extended :: (others ++ fresh)

/-- The windows as wheels of an odometer. -/
def wheels (d : Dataset) (context : Binding) : List (Window Node) → List (Wheel (Option Binding))
  | [] => []
  | ⟨node, entries, cursor, _, _⟩ :: rest =>
    ⟨column (entries.drop cursor ++ node.remaining d), column (node.rows d context)⟩ ::
      wheels d context rest

end

variable {d : Dataset} {n : Node} {context : Binding}

theorem columns_eq (d : Dataset) (context : Binding) (ws : List (Window Node)) :
    columns d context ws = ws.map fun w => column (w.node.rows d context) := by
  induction ws with
  | nil => rfl
  | cons w rest ih => cases w; simp only [columns, ih, List.map_cons]

theorem rows_eq (d : Dataset) (context : Binding) (n : Node) :
    n.rows d context
      = if n.scan.openTerms then (n.scan.rowsAt d context).flatMap (n.rowsOf d context) else [] := by
  cases n; rfl

end Node

/-- The window as a wheel. -/
def Window.wheel (d : Dataset) (context : Binding) (w : Window Node) : Wheel (Option Binding) :=
  ⟨Node.column (w.entries.drop w.cursor ++ w.node.remaining d),
    Node.column (w.node.rows d context)⟩

namespace Node

variable {d : Dataset} {n : Node} {context : Binding}

theorem wheels_eq (d : Dataset) (context : Binding) (ws : List (Window Node)) :
    wheels d context ws = ws.map (Window.wheel d context) := by
  induction ws with
  | nil => rfl
  | cons w rest ih => cases w; simp only [wheels, ih, List.map_cons, Window.wheel]

/-- The rows that come from the own rows which the scan has left. -/
def fresh (d : Dataset) (n : Node) : List Binding :=
  n.scan.rest.flatMap (n.rowsOf d n.context)

/-- The positions that the windows will still come to, the current one included. -/
def turns (d : Dataset) (n : Node) : List (List (Option Binding)) :=
  Wheel.positions (n.children.map (Window.wheel d (n.own.extendAbsent n.context)))

/-- The rows of the current own row behind the current combination. -/
def others (d : Dataset) (n : Node) : List Binding :=
  merged d n.context n.postFilters n.own (n.turns d).tail

theorem remaining_eq (d : Dataset) (n : Node) : n.remaining d = match n.state with
    | .exhausted => []
    | .active .find => n.fresh d
    | .ready .find => n.extended :: n.fresh d
    | .active .extend => n.others d ++ n.fresh d
    | .ready .extend => n.extended :: (n.others d ++ n.fresh d) := by
  have wheels := wheels_eq d (n.own.extendAbsent n.context) n.children
  rw [others, turns, ← wheels]
  cases n; rfl

/-! ## Merging -/

theorem combined_eq (own : Binding) (children : List (Window Node)) :
    combined own children = merge own (children.map Window.current?) := by
  rw [combined, merge, List.foldl_map]

theorem get?_merge (own : Binding) (picks : List (Option Binding)) {v : Variable} {id : TermId}
    (known : own.get? v = some id) : (merge own picks).get? v = some id := by
  unfold merge
  induction picks generalizing own with
  | nil => exact known
  | cons pick rest ih =>
    refine ih _ ?_
    cases pick with
    | none => exact known
    | some row => simp [known]

/-- A filter whose variables the own row binds sees nothing but the own row. -/
theorem isSatisfied_merge {own : Binding} {e : Expr}
    (decided : ∀ v ∈ e.vars, (own.get? v).isSome = true) (picks : List (Option Binding)) :
    e.isSatisfied (view d (merge own picks) context) = e.isSatisfied (view d own ∅) := by
  refine Expr.isSatisfied_congr fun v member => ?_
  obtain ⟨id, known⟩ := Option.isSome_iff_exists.1 (decided v member)
  simp [view, known, get?_merge own picks known]

/-- Filters that the own row decides can be judged before the children are looked at. -/
theorem merged_append {own : Binding} {pre post : List Expr}
    (decided : ∀ e ∈ pre, ∀ v ∈ e.vars, (own.get? v).isSome = true)
    (picks : List (List (Option Binding))) :
    merged d context (pre ++ post) own picks
      = if pre.all fun e => e.isSatisfied (view d own ∅) then merged d context post own picks
        else [] := by
  have same : ∀ pick, passes d context (pre ++ post) (merge own pick)
      = ((pre.all fun e => e.isSatisfied (view d own ∅)) &&
        passes d context post (merge own pick)) := by
    intro pick
    have own : (pre.all fun e => e.isSatisfied (view d (merge own pick) context))
        = pre.all fun e => e.isSatisfied (view d own ∅) := by
      rw [Bool.eq_iff_iff, List.all_eq_true, List.all_eq_true]
      exact forall₂_congr fun e member => by rw [isSatisfied_merge (decided e member) pick]
    rw [passes, List.all_append, own, passes]
  simp only [merged, List.filter_map, Function.comp_def, same]
  split
  · next holds => simp only [holds, Bool.true_and]
  · next fails => simp [eq_false_of_ne_true fails]

theorem merged_cons (filters : List Expr) (own : Binding) (pick : List (Option Binding))
    (picks : List (List (Option Binding))) :
    merged d context filters own (pick :: picks)
      = if passes d context filters (merge own pick)
        then merge own pick :: merged d context filters own picks
        else merged d context filters own picks := by
  simp only [merged, List.map_cons, List.filter_cons]

end Node

end QuadQuery
