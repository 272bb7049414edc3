import QuadQuery.Proofs.JoinTree.Bounds
import QuadQuery.Proofs.JoinTree.Rows

/-!
# How the nodes of a join tree stand

The invariant that ties every scan, window and context of a join tree to the rows that its nodes
should come to. A window of a child holds a stretch of the rows of the child, and the child has the
rest of them still to show. `Node.Valid` says so for a whole tree.
-/

namespace QuadQuery

namespace Node

variable {d : Dataset} {n n' n'' : Node} {context : Binding}

/-! ## What steps leave as it is -/

/-- The two nodes come to the same rows in every context, wherever they are. -/
structure Alike (d : Dataset) (n n' : Node) : Prop where
  blank : n'.scan.blank = n.scan.blank
  never : n'.neverMatches = n.neverMatches
  rowsOf : ∀ context ids, n'.rowsOf d context ids = n.rowsOf d context ids

theorem Alike.refl (n : Node) : Alike d n n := ⟨rfl, rfl, fun _ _ => rfl⟩

theorem Alike.trans (h : Alike d n n') (h' : Alike d n' n'') : Alike d n n'' :=
  ⟨h'.blank.trans h.blank, h'.never.trans h.never,
    fun context ids => (h'.rowsOf context ids).trans (h.rowsOf context ids)⟩

theorem Alike.rows (h : Alike d n n') (context : Binding) : n'.rows d context = n.rows d context := by
  rw [rows_eq, rows_eq, Scan.openTerms_of_blank h.blank, Scan.rowsAt_of_blank h.blank,
    funext (h.rowsOf context)]

theorem columns_of_alike {ws ws' : List (Window Node)}
    (h : ws.Forall₂ (fun w w' => Alike d w.node w'.node) ws') (context : Binding) :
    columns d context ws' = columns d context ws := by
  rw [columns_eq, columns_eq]
  induction h with
  | nil => rfl
  | cons first _ ih => rw [List.map_cons, List.map_cons, first.rows, ih]

/-- Neither moving the scan nor what happens to the children makes a difference. -/
theorem Alike.of_children (blank : n'.scan.blank = n.scan.blank)
    (never : n'.neverMatches = n.neverMatches) (pre : n'.preFilters = n.preFilters)
    (post : n'.postFilters = n.postFilters)
    (children : n.children.Forall₂ (fun w w' => Alike d w.node w'.node) n'.children) :
    Alike d n n' where
  blank := blank
  never := never
  rowsOf context ids := by
    simp only [Node.rowsOf, Scan.attributes_of_blank blank, pre, post, columns_of_alike children]

theorem alike_all (ws : List (Window Node)) :
    ws.Forall₂ (fun w w' => Alike d w.node w'.node) ws :=
  List.forall₂_same.2 fun w _ => .refl w.node

end Node

/-! ## The invariant -/

/-- The window shows a stretch of the rows that the child has in a context. -/
structure Window.Stands (d : Dataset) (context : Binding) (w : Window Node) : Prop where
  place : w.node.context = context ∨ w.node.neverMatches = true
  positioned : w.node.neverMatches = false → w.node.scan.Positioned
  /-- The rows are those gone by, those in the window, and those that the child has left. -/
  parts : ∃ gone, (w.chunk = 0 → gone = []) ∧
    w.node.rows d context = gone ++ (w.entries ++ w.node.remaining d)
  more : w.more = !(w.node.remaining d).isEmpty
  current : w.cursor < w.entries.length ∨ w.node.rows d context = []

theorem Phase.extend_ne_find : Phase.extend ≠ .find := by decide

/-- The node is in the midst of the combinations of an own row. -/
def NodeState.combines : NodeState → Prop
  | .active phase | .ready phase => phase = .extend
  | .exhausted => False

theorem NodeState.not_combines_find : ¬ (NodeState.active .find).combines := Phase.extend_ne_find.symm

theorem NodeState.not_combines_exhausted : ¬ NodeState.exhausted.combines := id

namespace Node

variable {d : Dataset} {n n' : Node} {context : Binding}

/-- How one node stands towards its scan and its children. -/
structure Standing (d : Dataset) (n : Node) : Prop where
  sound : n.scan.Sound d
  stands : n.neverMatches = false → n.scan.At d n.context
  rest : n.scan.rest <:+ n.scan.rows
  attributes : n.attributes = n.scan.attributes
  never : n.neverMatches = !n.scan.openTerms
  capacity : 0 < n.capacity
  decided : ∀ e ∈ n.preFilters, ∀ v ∈ e.vars, n.scan.hasVariable v = true
  exhausted : n.neverMatches = true → n.state = .exhausted
  orders : ∀ w ∈ n.children, n.scan.order.vars <+: w.node.scan.order.vars
  contexts : ∀ context, n.childContext = some context →
    ∀ w ∈ n.children, w.node.context = context ∨ w.node.neverMatches = true
  windows : n.state.combines → n.childContext = some (n.own.extendAbsent n.context) ∧
    ∀ w ∈ n.children, w.Stands d (n.own.extendAbsent n.context)

/-- All nodes of a tree stand as they should. -/
inductive Valid (d : Dataset) : Node → Prop
  | intro {n : Node} (own : n.Standing d) (others : ∀ w ∈ n.children, Valid d w.node) : Valid d n

theorem Valid.standing (h : n.Valid d) : n.Standing d := by
  cases h; assumption

theorem Valid.children (h : n.Valid d) : ∀ w ∈ n.children, w.node.Valid d := by
  cases h; assumption

theorem Valid.bounded (valid : d.Valid) (h : n.Valid d) : n.Bounded d := by
  induction h with
  | @intro n own _ ih =>
    refine ⟨?_, ih⟩
    have sound := own.sound
    generalize n.scan = scan at sound
    cases scan with
    | fixed s => trivial
    | index s => exact Scan.bounded_index valid sound

/-! ## Reading off rows -/

/-- A node that never matches has no rows. -/
theorem Standing.rows_eq_nil (h : n.Standing d) (never : n.neverMatches = true) (context : Binding) :
    n.rows d context = [] := by
  have closed : n.scan.openTerms = false := by simpa [h.never] using never
  rw [rows_eq, closed]
  rfl

theorem remaining_of_exhausted (h : n.state = .exhausted) : n.remaining d = [] := by
  rw [remaining_eq, h]

/-- Unless the node never matches, its rows are those of its own rows. -/
theorem Standing.rows_eq (h : n.Standing d) (possible : n.neverMatches = false) (context : Binding) :
    n.rows d context = (n.scan.rowsAt d context).flatMap (n.rowsOf d context) := by
  have opened : n.scan.openTerms = true := by simpa [h.never] using possible
  rw [Node.rows_eq, if_pos opened]

/-- The own rows that are left are the last ones of those for the context. -/
theorem Standing.isSuffix_rowsAt (h : n.Standing d) (possible : n.neverMatches = false) :
    n.scan.rest <:+ n.scan.rowsAt d n.context := by
  have rest := h.rest
  have stands := h.stands possible
  cases same : n.scan with
  | fixed s =>
    rw [same] at rest
    exact rest
  | index s =>
    rw [same] at stands rest
    rcases stands with ⟨_, rows⟩ | ⟨_, rows⟩
    · have none : s.rest <:+ [] := rows ▸ rest
      exact none.trans List.nil_suffix
    · have rest : s.rest <:+ s.rowsFor d (s.keyFor n.context) := rows ▸ rest
      exact rest

/-- An own row that is left binds the attributes of the scan. -/
theorem Standing.isSome_get?_own (valid : d.Valid) (h : n.Standing d)
    (possible : n.neverMatches = false) {ids : Row} (member : ids ∈ n.scan.rest) {v : Variable} :
    ((Binding.ofRow n.scan.attributes ids).get? v).isSome = true ↔ v ∈ n.scan.attributes :=
  Binding.isSome_get?_ofRow (h.sound.length_eq valid ((h.isSuffix_rowsAt possible).subset member))

/-- The filters that the own row decides drop all combinations with it or none. -/
theorem Standing.rowsOf_eq (valid : d.Valid) (h : n.Standing d) (possible : n.neverMatches = false)
    {ids : Row} (member : ids ∈ n.scan.rest) (context : Binding) :
    n.rowsOf d context ids
      = if n.preFilters.all fun e => e.isSatisfied (view d (.ofRow n.scan.attributes ids) ∅) then
          merged d context n.postFilters (.ofRow n.scan.attributes ids)
            (Wheel.picks (columns d ((Binding.ofRow n.scan.attributes ids).extendAbsent context)
              n.children))
        else [] :=
  merged_append (fun e he v hv => (h.isSome_get?_own valid possible member).2
    (h.sound.hasVariable_iff.1 (h.decided e he v hv))) _

end Node

namespace Window.Stands

variable {d : Dataset} {context : Binding} {w : Window Node}

/-- A window is empty only if the child has no rows. -/
theorem isEmpty_iff (h : w.Stands d context) :
    w.isEmpty = true ↔ w.node.rows d context = [] := by
  rw [isEmpty, List.isEmpty_iff]
  constructor
  · intro none
    exact h.current.resolve_left (by simp [none])
  · intro none
    obtain ⟨gone, _, parts⟩ := h.parts
    rw [none] at parts
    exact (List.append_eq_nil_iff.1 (List.append_eq_nil_iff.1 parts.symm).2).1

/-- The wheel of an empty window is stuck at nothing. -/
theorem wheel_of_isEmpty (h : w.Stands d context) (empty : w.isEmpty = true) :
    w.wheel d context = ⟨[none], [none]⟩ := by
  have none := h.isEmpty_iff.1 empty
  obtain ⟨gone, _, parts⟩ := h.parts
  rw [none] at parts
  obtain ⟨entries, rest⟩ := List.append_eq_nil_iff.1 (List.append_eq_nil_iff.1 parts.symm).2
  simp [wheel, Node.column, none, entries, rest]

theorem cursor_lt (h : w.Stands d context) (some : ¬ w.isEmpty = true) :
    w.cursor < w.entries.length :=
  h.current.resolve_right fun none => some (h.isEmpty_iff.2 none)

/-- The wheel of any other window shows the current row first. -/
theorem ahead_eq (h : w.Stands d context) (some : ¬ w.isEmpty = true) :
    (w.wheel d context).ahead
      = .some (w.entries.get ⟨w.cursor, h.cursor_lt some⟩) ::
        (w.entries.drop (w.cursor + 1) ++ w.node.remaining d).map .some := by
  unfold wheel
  rw [List.drop_eq_getElem_cons (h.cursor_lt some)]
  rfl

/-- What the wheel shows is the current row of the window. -/
theorem head?_ahead (h : w.Stands d context) :
    (w.wheel d context).ahead.head? = some w.current? := by
  by_cases empty : w.isEmpty = true
  · have none : w.entries = [] := by simpa [isEmpty] using empty
    rw [h.wheel_of_isEmpty empty]
    simp [current?, none]
  · rw [h.ahead_eq empty, current?, List.getElem?_eq_getElem (h.cursor_lt empty)]
    rfl

end Window.Stands

end QuadQuery
