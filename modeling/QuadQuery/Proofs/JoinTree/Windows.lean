import QuadQuery.Proofs.JoinTree.Steps

/-!
# Windows of a standing join tree

Filling, refilling and rewinding the windows of a node's children, for any way to advance a child
that hands out the rows the child has left. Turning the odometer of the windows leads from one
position to the next (`Window.moveFirst_spec`, `Window.rewindAll_spec`).
-/

namespace QuadQuery

namespace Window

variable {d : Dataset} {w w' : Window Node} {ws ws' : List (Window Node)} {env : Env}
  {advance : Advance} {capacity : Nat} {context : Binding} {firstChanged : Nat}

/-! ## Filling -/

/-- Drawing rows takes them from the front of those that are left. -/
theorem draw_spec (serves : Node.Serves d advance) (count : Nat) {node : Node}
    (valid : node.Valid d) :
    (draw advance count node).1 = .error .outOfSteps ∨ ∃ node',
      draw advance count node = (.ok (), (node.remaining d).take count, node') ∧
      Node.Kept d node node' ∧ node'.remaining d = (node.remaining d).drop count := by
  induction count generalizing node with
  | zero => exact .inr ⟨node, rfl, .refl valid, rfl⟩
  | succ count ih =>
    unfold draw
    rcases advanced : advance node with ⟨result, next⟩
    rcases serves node valid with stuck | ⟨kept, found, remaining, ready⟩ <;>
      rw [advanced] at *
    · left
      rw [show result = .error .outOfSteps from stuck]
    · simp only at found remaining ready
      cases rows : node.remaining d with
      | nil =>
        rw [rows] at found remaining
        subst found
        exact .inr ⟨next, rfl, kept, remaining⟩
      | cons row later =>
        rw [rows] at found remaining
        subst found
        obtain ⟨phase, pending⟩ := ready rfl
        obtain ⟨row', taken, take, kept', split, _⟩ := Node.take_spec kept.valid pending
        rw [remaining, List.cons.injEq] at split
        obtain ⟨rfl, rfl⟩ := split
        simp only [List.isEmpty_cons, Bool.not_false, take]
        rcases ih kept'.valid with stuck | ⟨last, drawn, kept'', rest⟩
        · left
          rcases others : draw advance count taken with ⟨result, rows', last⟩
          rw [others] at stuck
          exact stuck
        · rw [drawn]
          exact .inr ⟨last, rfl, (kept.trans kept').trans kept'', rest⟩

/-- The window holds the next rows of the child, as many as it may. -/
structure Filled (d : Dataset) (capacity : Nat) (w w' : Window Node) : Prop where
  kept : Node.Kept d w.node w'.node
  entries : w'.entries = (w.node.remaining d).take capacity
  remaining : w'.node.remaining d = (w.node.remaining d).drop capacity
  more : w'.more = !(w'.node.remaining d).isEmpty
  cursor : w'.cursor = 0
  chunk : w'.chunk = w.chunk

theorem fill_spec (serves : Node.Serves d advance) (capacity : Nat) (valid : w.node.Valid d) :
    (w.fill advance capacity).1 = .error .outOfSteps ∨
      ∃ w', w.fill advance capacity = (.ok (), w') ∧ Filled d capacity w w' := by
  unfold fill
  rcases draw_spec serves capacity valid with stuck | ⟨node, drawn, kept, remaining⟩
  · obtain ⟨_, same⟩ := exists_of_fst_eq stuck
    exact .inl (by simp only [same])
  · rw [drawn]
    simp only
    split
    · rcases advanced : advance node with ⟨result, next⟩
      rcases serves node kept.valid with stuck | ⟨kept', found, rest, _⟩ <;> rw [advanced] at *
      · left
        obtain rfl : result = .error .outOfSteps := stuck
        rfl
      · simp only at found rest
        subst found
        exact .inr ⟨_, rfl, kept.trans kept', rfl, rest.trans remaining, by rw [rest], rfl, rfl⟩
    · next short =>
      have none : node.remaining d = [] := by
        rw [remaining]
        rw [List.length_take] at short
        exact List.drop_eq_nil_of_le (by omega)
      exact .inr ⟨_, rfl, kept, rfl, remaining, by simp [none], rfl, rfl⟩

/-- A window that was filled with the rows of the child from some point on stands. -/
theorem Filled.stands (h : Filled d capacity w w') (room : 0 < capacity)
    (place : w.node.context = context ∨ w.node.neverMatches = true)
    (positioned : w.node.neverMatches = false → w.node.scan.Positioned) {gone : List Binding}
    {chunk : Nat} (start : chunk = 0 → gone = [])
    (parts : w.node.rows d context = gone ++ w.node.remaining d)
    (some : w.node.remaining d = [] → w.node.rows d context = []) :
    ({ w' with chunk } : Window Node).Stands d context where
  place := by rw [h.kept.context, h.kept.alike.never]; exact place
  positioned possible := h.kept.positioned.2 (positioned (h.kept.alike.never ▸ possible))
  parts := ⟨gone, start, by
    rw [h.kept.alike.rows, h.entries, h.remaining, List.take_append_drop, parts]⟩
  more := h.more
  current := by
    rw [h.cursor, h.entries, h.kept.alike.rows, List.length_take]
    by_cases none : w.node.remaining d = []
    · exact .inr (some none)
    · have := List.length_pos_of_ne_nil none
      exact .inl (by omega)

/-- Its wheel shows what the child had left. -/
theorem Filled.ahead (h : Filled d capacity w w') (context : Binding) :
    (w'.wheel d context).ahead = Node.column (w.node.remaining d) := by
  rw [wheel, h.cursor, h.entries, h.remaining, List.drop_zero, List.take_append_drop]

/-! ## One window -/

/-- The window was put to the first of all rows that its child has in the context. -/
structure Started (d : Dataset) (context : Binding) (w w' : Window Node) : Prop where
  valid : w'.node.Valid d
  alike : Node.Alike d w.node w'.node
  stands : w'.Stands d context
  ahead : (w'.wheel d context).ahead = (w.wheel d context).all

/-- A window that is filled after its child was moved is at the first row. -/
theorem Filled.started {node : Node} {found : Bool} (sought : Node.Sought d context w.node found node)
    (h : Filled d capacity { w with node, chunk := 0 } w') (room : 0 < capacity) :
    Started d context w w' := by
  have rows : node.remaining d = node.rows d context :=
    sought.remaining.trans (sought.alike.rows context).symm
  have alike := sought.alike.trans h.kept.alike
  refine ⟨h.kept.valid, alike, ?_, ?_⟩
  · exact h.stands room sought.place sought.positioned (fun _ => rfl) rows.symm
      fun none => rows.symm.trans none
  · exact (h.ahead context).trans (congrArg Node.column sought.remaining)

theorem load_spec (serves : Node.Serves env.dataset advance) (room : 0 < capacity)
    (valid : w.node.Valid env.dataset)
    (truthful : w.node.neverMatches = false → w.node.scan.Positioned →
      w.node.scan.Unmoved w.node.context context firstChanged) :
    (w.load env advance context firstChanged capacity).1 = .error .outOfSteps ∨
      ∃ w', w.load env advance context firstChanged capacity = (.ok (), w') ∧
        Started env.dataset context w w' := by
  obtain ⟨found, node, moved, sought⟩ := Node.seek_spec valid truthful
  unfold load
  simp only [moved]
  cases found with
  | true =>
    rcases fill_spec (w := { w with node, chunk := 0 }) serves capacity sought.valid with
      stuck | ⟨w', filled, holds⟩
    · exact .inl stuck
    · exact .inr ⟨w', filled, holds.started sought room⟩
  | false =>
    have none := sought.rows_eq_nil valid
    have rows : node.rows env.dataset context = [] := (sought.alike.rows context).trans none
    have rest : node.remaining env.dataset = [] := sought.remaining.trans none
    refine .inr ⟨_, rfl, sought.valid, sought.alike, ?_, ?_⟩
    · exact ⟨sought.place, sought.positioned, ⟨[], fun _ => rfl, by simp [rows, rest]⟩,
        by simp [rest], .inr rows⟩
    · simp [wheel, none, rest]

theorem rewind_spec (serves : Node.Serves d advance) (room : 0 < capacity)
    (valid : w.node.Valid d) (stands : w.Stands d context) :
    (w.rewind advance capacity).1 = .error .outOfSteps ∨
      ∃ w', w.rewind advance capacity = (.ok (), w') ∧ Started d context w w' := by
  unfold rewind
  split
  · next first =>
    obtain ⟨gone, start, parts⟩ := stands.parts
    obtain rfl := start first
    refine .inr ⟨_, rfl, valid, .refl _, ⟨stands.place, stands.positioned, ⟨[], start, parts⟩,
      stands.more, stands.current.imp_left fun inside => ?_⟩, ?_⟩
    · exact Nat.zero_lt_of_lt inside
    · simp only [wheel, List.drop_zero, parts, List.nil_append]
  · have sought := (Node.reset_spec valid stands.positioned).of_place valid stands.place
    rcases fill_spec (w := { w with node := w.node.reset.2, chunk := 0 }) serves capacity
      sought.valid with stuck | ⟨w', filled, holds⟩
    · exact .inl stuck
    · exact .inr ⟨w', filled, holds.started sought room⟩

/-- The window moved on by one row of its child. -/
structure Stepped (d : Dataset) (context : Binding) (w w' : Window Node) : Prop where
  valid : w'.node.Valid d
  alike : Node.Alike d w.node w'.node
  stands : w'.Stands d context
  ahead : (w'.wheel d context).ahead = (w.wheel d context).ahead.tail

/-- A window moves to its next row by moving its cursor, and only if there is such a row. -/
theorem step?_eq_some (stepped : w.step? = some w') :
    w.cursor + 1 < w.entries.length ∧ w' = { w with cursor := w.cursor + 1 } := by
  unfold step? at stepped
  split at stepped
  · next further =>
    cases stepped
    exact ⟨further, rfl⟩
  · cases stepped

/-- A window that cannot move to a next row has shown all of them. -/
theorem drop_of_step?_eq_none (last : w.step? = none) : w.entries.drop (w.cursor + 1) = [] := by
  unfold step? at last
  split at last
  · cases last
  · exact List.drop_eq_nil_of_le (by omega)

theorem step?_spec (valid : w.node.Valid d) (stands : w.Stands d context)
    (some : ¬ w.isEmpty = true) (stepped : w.step? = .some w') : Stepped d context w w' := by
  have ahead := stands.ahead_eq some
  obtain ⟨further, rfl⟩ := step?_eq_some stepped
  have rest : w.entries.drop (w.cursor + 1) ≠ [] := by
    rw [ne_eq, List.drop_eq_nil_iff]
    omega
  refine ⟨valid, .refl _, ⟨stands.place, stands.positioned, stands.parts, stands.more, .inl further⟩,
    ?_⟩
  rw [ahead, List.tail_cons, wheel, Node.column, if_neg (by simp [rest])]

/-- Once a window has shown its last row it goes on with the rows that its child has left. -/
theorem refill_spec (serves : Node.Serves d advance) (room : 0 < capacity) (valid : w.node.Valid d)
    (stands : w.Stands d context) (some : ¬ w.isEmpty = true) (last : w.step? = none) :
    (w.refill advance capacity).1 = .error .outOfSteps ∨
      w.refill advance capacity = (.ok false, w) ∧ (w.wheel d context).ahead.tail = [] ∨
      ∃ w', w.refill advance capacity = (.ok true, w') ∧ Stepped d context w w' := by
  have ahead := stands.ahead_eq some
  rw [drop_of_step?_eq_none last, List.nil_append] at ahead
  unfold refill
  rw [stands.more]
  cases rows : w.node.remaining d with
  | nil =>
    rw [rows] at ahead
    exact .inr (.inl ⟨rfl, by rw [ahead]; rfl⟩)
  | cons row later =>
    simp only [List.isEmpty_cons, Bool.not_false, Bool.not_true, Bool.false_eq_true, if_false]
    rcases fill_spec serves capacity valid with stuck | ⟨w', filled, holds⟩
    · obtain ⟨_, same⟩ := exists_of_fst_eq stuck
      exact .inl (by simp only [same])
    · right; right
      obtain ⟨gone, _, parts⟩ := stands.parts
      have isSome : w'.isEmpty = false := by
        rw [isEmpty, holds.entries, rows]
        obtain ⟨c, rfl⟩ := Nat.exists_eq_succ_of_ne_zero room.ne'
        rfl
      rw [filled]
      simp only [isSome]
      refine ⟨_, rfl, holds.kept.valid, holds.kept.alike, ?_, ?_⟩
      · rw [← List.append_assoc] at parts
        refine holds.stands room stands.place stands.positioned
          (fun h => absurd h (Nat.succ_ne_zero _)) parts fun none => ?_
        exact absurd (rows.symm.trans none) (List.cons_ne_nil _ _)
      · rw [ahead, rows]
        exact (holds.ahead context).trans (congrArg Node.column rows)

/-! ## All windows -/

/-- Every window stands, and so does its child. -/
def AllStand (d : Dataset) (context : Binding) (ws : List (Window Node)) : Prop :=
  ∀ w ∈ ws, w.node.Valid d ∧ w.Stands d context

theorem Started.wheel_eq (h : Started d context w w') :
    w'.wheel d context = (w.wheel d context).restarted :=
  Wheel.ext h.ahead (congrArg Node.column (h.alike.rows context))

theorem Stepped.wheel_eq (h : Stepped d context w w') :
    w'.wheel d context = { w.wheel d context with ahead := (w.wheel d context).ahead.tail } :=
  Wheel.ext h.ahead (congrArg Node.column (h.alike.rows context))

theorem loadAll_spec (serves : Node.Serves env.dataset advance) (room : 0 < capacity)
    (valid : ∀ w ∈ ws, w.node.Valid env.dataset)
    (truthful : ∀ w ∈ ws, w.node.neverMatches = false → w.node.scan.Positioned →
      w.node.scan.Unmoved w.node.context context firstChanged) :
    (loadAll env advance context firstChanged capacity ws).1 = .error .outOfSteps ∨
      ∃ ws', loadAll env advance context firstChanged capacity ws = (.ok (), ws') ∧
        ws.Forall₂ (Started env.dataset context) ws' := by
  induction ws with
  | nil => exact .inr ⟨[], rfl, .nil⟩
  | cons w rest ih =>
    obtain ⟨first, others⟩ := List.forall_mem_cons.1 valid
    obtain ⟨truth, truths⟩ := List.forall_mem_cons.1 truthful
    unfold loadAll
    rcases load_spec serves room first truth with stuck | ⟨w', loaded, started⟩
    · obtain ⟨_, same⟩ := exists_of_fst_eq stuck
      exact .inl (by simp only [same])
    · rw [loaded]
      rcases ih others truths with stuck | ⟨rest', all, starts⟩
      · exact .inl stuck
      · simp only [all]
        exact .inr ⟨_, rfl, .cons started starts⟩

theorem rewindAll_spec (serves : Node.Serves d advance) (room : 0 < capacity)
    (stand : AllStand d context ws) :
    (rewindAll advance capacity ws).1 = .error .outOfSteps ∨
      ∃ ws', rewindAll advance capacity ws = (.ok (), ws') ∧
        ws.Forall₂ (Started d context) ws' := by
  induction ws with
  | nil => exact .inr ⟨[], rfl, .nil⟩
  | cons w rest ih =>
    obtain ⟨⟨valid, stands⟩, others⟩ := List.forall_mem_cons.1 stand
    unfold rewindAll
    split
    · next empty =>
      have again : Started d context w w :=
        ⟨valid, .refl _, stands, by rw [stands.wheel_of_isEmpty empty]⟩
      rcases ih others with stuck | ⟨rest', all, starts⟩
      · exact .inl stuck
      · simp only [all]
        exact .inr ⟨_, rfl, .cons again starts⟩
    · rcases rewind_spec serves room valid stands with stuck | ⟨w', rewound, started⟩
      · obtain ⟨_, same⟩ := exists_of_fst_eq stuck
        exact .inl (by simp only [same])
      · rw [rewound]
        rcases ih others with stuck | ⟨rest', all, starts⟩
        · exact .inl stuck
        · simp only [all]
          exact .inr ⟨_, rfl, .cons started starts⟩

/-- Where the windows are after the first that can has moved on, if there was one. -/
structure Moved (d : Dataset) (context : Binding) (ws : List (Window Node)) (found : Bool)
    (turn : Turn) : Prop where
  moved : turn.moved = .ok found
  stand : AllStand d context (turn.lower ++ turn.upper)
  alike : ws.Forall₂ (fun w w' => Node.Alike d w.node w'.node) (turn.lower ++ turn.upper)
  /-- Once the windows in front of it are back at their start, the next position is reached. -/
  positions : (Wheel.positions (ws.map (wheel d context))).tail =
    if found then Wheel.positions (turn.lower.map (fun w => (w.wheel d context).restarted) ++
      turn.upper.map (wheel d context)) else []

/-- The first window has moved on. -/
theorem Moved.here {refilled : Bool} {x : Option Binding} {later : List (Option Binding)}
    (ahead : (w.wheel d context).ahead = x :: later) (stepped : Stepped d context w w')
    (others : AllStand d context ws) :
    Moved d context (w :: ws) true ⟨.ok true, refilled, [], w' :: ws⟩ where
  moved := rfl
  stand := List.forall_mem_cons.2 ⟨⟨stepped.valid, stepped.stands⟩, others⟩
  alike := .cons stepped.alike (Node.alike_all ws)
  positions := by
    rw [if_pos rfl, List.map_nil, List.nil_append, List.map_cons, List.map_cons, stepped.wheel_eq,
      Wheel.tail_positions_of_step ahead, ahead]
    rfl

/-- The first window is at its end, so that one behind it has to move on. -/
theorem Moved.behind {x : Option Binding} {found : Bool} {turn : Turn}
    (ahead : (w.wheel d context).ahead = [x]) (valid : w.node.Valid d) (stands : w.Stands d context)
    (moved : Moved d context ws found turn) :
    Moved d context (w :: ws) found { turn with lower := w :: turn.lower } where
  moved := moved.moved
  stand := List.forall_mem_cons.2 ⟨⟨valid, stands⟩, moved.stand⟩
  alike := .cons (.refl w.node) moved.alike
  positions := by
    have positions := moved.positions
    cases found with
    | true => exact Wheel.tail_positions_of_end ahead positions.symm
    | false => exact Wheel.tail_positions_eq_nil ahead positions

theorem moveFirst_spec (serves : Node.Serves d advance) (room : 0 < capacity)
    (stand : AllStand d context ws) :
    (moveFirst advance capacity ws).moved = .error .outOfSteps ∨
      ∃ found, Moved d context ws found (moveFirst advance capacity ws) := by
  induction ws with
  | nil => exact .inr ⟨false, rfl, by simp [AllStand, moveFirst], .nil, rfl⟩
  | cons w rest ih =>
    obtain ⟨⟨valid, stands⟩, others⟩ := List.forall_mem_cons.1 stand
    have behind : ∀ x, (w.wheel d context).ahead = [x] →
        (moveFirst advance capacity rest).moved = .error .outOfSteps ∨ ∃ found,
          Moved d context (w :: rest) found { moveFirst advance capacity rest with
            lower := w :: (moveFirst advance capacity rest).lower } :=
      fun x ahead => (ih others).imp_right (.imp fun found moved => moved.behind ahead valid stands)
    unfold moveFirst
    dsimp only
    split
    · next empty => exact behind none (by rw [stands.wheel_of_isEmpty empty])
    · next some =>
      have ahead := stands.ahead_eq some
      split
      · next w' stepped => exact .inr ⟨true, .here ahead (step?_spec valid stands some stepped) others⟩
      · next last =>
        rcases refill_spec serves room valid stands some last with
          stuck | ⟨same, shown⟩ | ⟨w', refilled, stepped⟩
        · obtain ⟨_, same⟩ := exists_of_fst_eq stuck
          exact .inl (by simp only [same])
        · rw [same]
          rw [ahead, List.tail_cons] at shown
          exact behind _ (by rw [ahead, shown])
        · rw [refilled]
          exact .inr ⟨true, .here ahead stepped others⟩

end Window

end QuadQuery
