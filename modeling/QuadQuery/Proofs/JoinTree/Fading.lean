import QuadQuery.Proofs.JoinTree.Serving

/-!
# Nodes after cancellation

A cancelled scan has no next row, so a node goes on only with what it and its children have already
drawn. `Node.Fades` says that all it will come to is the beginning of a list of rows, and advancing
a node and taking its row keep that up (`Node.advance_fades`, `Node.Fades.take`).

A window that is turned back to its start has to be filled anew if it does not hold all rows of its
child any more, and a cancelled child looks like one without rows then. So every window with another
one behind it is asked to hold all rows of its child. The last window never turns back.
-/

namespace QuadQuery

/-! ## Windows -/

/-- The window holds all rows of its child. -/
structure Window.Whole (w : Window Node) : Prop where
  chunk : w.chunk = 0
  more : w.more = false
  current : w.cursor < w.entries.length ∨ w.entries = []

namespace Window

open Node (column)

variable {w : Window Node} {ws : List (Window Node)} {left : List Binding}
  {wheels : List (Wheel (Option Binding))} {P : Node → List Binding → Prop} {advance : Advance}
  {capacity : Nat}

/-- The windows will turn through a beginning of the positions of the wheels: all in front of the
last one hold all rows of their children, and the child of the last one comes to a beginning of the
rows that its wheel has ahead. -/
inductive Fade (P : Node → List Binding → Prop) :
    List (Window Node) → List (Wheel (Option Binding)) → Prop
  | nil : Fade P [] []
  | last {w : Window Node} {wheel : Wheel (Option Binding)} {left : List Binding}
      (child : w.more = true → P w.node left)
      (current : w.cursor < w.entries.length ∨ w.entries = [] ∧ left = [])
      (ahead : wheel.ahead = column (w.entries.drop w.cursor ++ left)) : Fade P [w] [wheel]
  | front {w : Window Node} {ws : List (Window Node)} {wheels : List (Wheel (Option Binding))}
      (whole : w.Whole) (others : Fade P ws wheels) :
      Fade P (w :: ws) (⟨column (w.entries.drop w.cursor), column w.entries⟩ :: wheels)

/-- A window that is not at its end shows its current row first. -/
theorem column_drop (inside : w.cursor < w.entries.length) (left : List Binding) :
    column (w.entries.drop w.cursor ++ left)
      = some w.entries[w.cursor] :: (w.entries.drop (w.cursor + 1) ++ left).map some := by
  rw [List.drop_eq_getElem_cons inside]
  rfl

theorem column_of_ne_nil {rows : List Binding} (some : rows ≠ []) : column rows = rows.map .some :=
  if_neg (by simpa using some)

theorem head?_column (current : w.cursor < w.entries.length ∨ w.entries = [] ∧ left = []) :
    (column (w.entries.drop w.cursor ++ left)).head? = some w.current? := by
  rcases current with inside | ⟨none, rfl⟩
  · rw [column_drop inside, current?, List.getElem?_eq_getElem inside]
    rfl
  · simp [current?, none, column]

/-- What the wheels show first is the current combination. -/
theorem Fade.positions_eq (h : Fade P ws wheels) :
    ∃ others, Wheel.positions wheels = ws.map current? :: others := by
  refine Wheel.positions_eq_cons ?_
  induction h with
  | nil => exact .nil
  | last _ current ahead => exact .cons (ahead ▸ head?_column current) .nil
  | front whole _ ih =>
    refine .cons ?_ ih
    have first := head?_column (whole.current.imp_right fun none => ⟨none, rfl⟩)
    rwa [List.append_nil] at first

/-! ## Turning back -/

/-- The window at its first row. -/
def restart (w : Window Node) : Window Node :=
  if w.isEmpty then w else { w with cursor := 0 }

theorem Whole.restart (h : w.Whole) : w.restart.Whole := by
  unfold Window.restart
  split
  · exact h
  · next some =>
    have some : w.entries ≠ [] := by simpa [isEmpty] using some
    exact ⟨h.chunk, h.more, .inl (List.length_pos_of_ne_nil some)⟩

theorem restart_shows (w : Window Node) :
    w.restart.entries.drop w.restart.cursor = w.entries ∧ w.restart.entries = w.entries := by
  unfold restart
  split
  · next empty => simp [List.isEmpty_iff.1 empty]
  · exact ⟨rfl, rfl⟩

/-- Windows that hold all rows are turned back without asking their children. -/
theorem rewindAll_of_whole (whole : ∀ w ∈ ws, w.Whole) :
    rewindAll advance capacity ws = (.ok (), ws.map restart) := by
  induction ws with
  | nil => rfl
  | cons w rest ih =>
    obtain ⟨first, others⟩ := List.forall_mem_cons.1 whole
    rw [rewindAll, ih others, List.map_cons, restart, rewind, if_pos first.chunk]
    split <;> rfl

end Window

/-! ## Nodes -/

namespace Node

variable {d : Dataset} {n n' : Node} {rows : List Binding} {env : Env} {advance : Advance}
  {wheels : List (Wheel (Option Binding))} {capacity : Nat}

/-- The rows of a node whose windows turn like the wheels and that has other rows later. -/
def due (d : Dataset) (wheels : List (Wheel (Option Binding))) (later : List Binding) (n : Node) :
    List Binding :=
  let others := merged d n.context n.postFilters n.own (Wheel.positions wheels).tail
  match n.state with
  | .exhausted | .active .find => later
  | .ready .find => n.extended :: later
  | .active .extend => others ++ later
  | .ready .extend => n.extended :: (others ++ later)

/-- Once cancelled, the node comes to a beginning of the rows. -/
inductive Fades (d : Dataset) : Node → List Binding → Prop
  | intro {n : Node} {rows later : List Binding} {wheels : List (Wheel (Option Binding))}
      (silent : n.scan.next? true = none)
      (windows : n.state.combines → Window.Fade (Fades d) n.children wheels)
      (due : rows = n.due d wheels later) : Fades d n rows

theorem Fades.silent (h : Fades d n rows) : n.scan.next? true = none := by
  cases h; assumption

/-- A node that has to draw from its scan comes to nothing at all. -/
theorem fades_of_idle (silent : n.scan.next? true = none)
    (idle : n.state = .exhausted ∨ n.state = .active .find) (rows : List Binding) :
    Fades d n rows := by
  have same : rows = n.due d [] rows := by
    rcases idle with state | state <;> rw [due, state]
  refine .intro silent (fun combines => ?_) same
  rcases idle with state | state <;> rw [state] at combines
  · exact absurd combines NodeState.not_combines_exhausted
  · exact absurd combines NodeState.not_combines_find

/-- A pending row is the first of those that are due. -/
theorem Fades.take (h : Fades d n rows) {phase : Phase} (ready : n.state = .ready phase) :
    ∃ row n' rest, n.take = (.ok row, n') ∧ rows = row :: rest ∧ Fades d n' rest := by
  obtain @⟨_, _, later, wheels, silent, windows, rfl⟩ := h
  have taken : n.take = (.ok n.extended, { n with state := .active phase, extended := ∅ }) := by
    rw [Node.take, ready]
  refine ⟨_, _, due d wheels later { n with state := .active phase, extended := ∅ }, taken, ?_,
    .intro silent (fun combines => windows (by rw [ready]; exact combines)) rfl⟩
  rw [due, ready]
  cases phase <;> rfl

/-- A way to advance cancelled nodes that takes nothing away from what is due. -/
def KeepsDue (d : Dataset) (advance : Advance) : Prop :=
  ∀ (n : Node) (rows : List Binding), Fades d n rows →
    (advance n).1 = .error .outOfSteps ∨ ∃ found n', advance n = (.ok found, n') ∧
      Fades d n' rows ∧ (found = true → ∃ phase, n'.state = .ready phase)

end Node

/-! ## Filling windows -/

namespace Window

open Node (Fades KeepsDue column)

variable {d : Dataset} {w w' : Window Node} {ws : List (Window Node)} {rows left : List Binding}
  {wheels : List (Wheel (Option Binding))} {advance : Advance} {capacity : Nat}

theorem draw_fades (keeps : KeepsDue d advance) (count : Nat) {node : Node}
    (h : Fades d node rows) :
    (draw advance count node).1 = .error .outOfSteps ∨ ∃ drawn node' rest,
      draw advance count node = (.ok (), drawn, node') ∧ rows = drawn ++ rest ∧
        Fades d node' rest := by
  induction count generalizing node rows with
  | zero => exact .inr ⟨[], node, rows, rfl, rfl, h⟩
  | succ count ih =>
    unfold draw
    rcases keeps node rows h with stuck | ⟨found, next, advanced, kept, ready⟩
    · obtain ⟨_, same⟩ := exists_of_fst_eq stuck
      exact .inl (by simp only [same])
    · rw [advanced]
      cases found with
      | false => exact .inr ⟨[], next, rows, rfl, rfl, kept⟩
      | true =>
        obtain ⟨phase, pending⟩ := ready rfl
        obtain ⟨row, taken, rest, take, rfl, kept'⟩ := kept.take pending
        simp only [take]
        rcases ih kept' with stuck | ⟨drawn, last, rest', others, rfl, kept''⟩
        · obtain ⟨_, same⟩ := exists_of_fst_eq stuck
          exact .inl (by simp only [same])
        · rw [others]
          exact .inr ⟨row :: drawn, last, rest', rfl, rfl, kept''⟩

theorem fill_fades (keeps : KeepsDue d advance) (capacity : Nat) (h : Fades d w.node rows) :
    (w.fill advance capacity).1 = .error .outOfSteps ∨ ∃ w' rest,
      w.fill advance capacity = (.ok (), w') ∧ w'.cursor = 0 ∧ rows = w'.entries ++ rest ∧
        Fades d w'.node rest := by
  unfold fill
  rcases draw_fades keeps capacity h with stuck | ⟨drawn, node, rest, same, rfl, kept⟩
  · obtain ⟨_, same⟩ := exists_of_fst_eq stuck
    exact .inl (by simp only [same])
  · rw [same]
    simp only
    split
    · rcases keeps node rest kept with stuck | ⟨found, next, advanced, kept', _⟩
      · obtain ⟨_, same⟩ := exists_of_fst_eq stuck
        exact .inl (by simp only [same])
      · rw [advanced]
        exact .inr ⟨_, rest, rfl, rfl, rfl, kept'⟩
    · exact .inr ⟨_, rest, rfl, rfl, rfl, kept⟩

/-- A last window whose rows were all shown goes on with those that its child comes to. -/
theorem refill_fades (keeps : KeepsDue d advance) (capacity : Nat)
    (child : w.more = true → Fades d w.node left) :
    (w.refill advance capacity).1 = .error .outOfSteps ∨
      (∃ w', w.refill advance capacity = (.ok false, w')) ∨
      ∃ w' rest, w.refill advance capacity = (.ok true, w') ∧ w'.cursor = 0 ∧ w'.entries ≠ [] ∧
        left = w'.entries ++ rest ∧ Fades d w'.node rest := by
  unfold refill
  split
  · exact .inr (.inl ⟨w, rfl⟩)
  · next more =>
    rcases fill_fades keeps capacity (child (by simpa using more)) with
      stuck | ⟨w', rest, filled, cursor, split, kept⟩
    · obtain ⟨_, same⟩ := exists_of_fst_eq stuck
      exact .inl (by simp only [same])
    · rw [filled]
      cases empty : w'.isEmpty with
      | true => exact .inr (.inl ⟨_, by simp only [empty]; rfl⟩)
      | false =>
        refine .inr (.inr ⟨{ w' with chunk := w'.chunk + 1 }, rest, by simp only [empty]; rfl,
          cursor, fun none => ?_, split, kept⟩)
        rw [isEmpty, show w'.entries = [] from none] at empty
        cases empty

/-! ## Turning the odometer -/

/-- Some window has moved on, and those in front of it can be turned back without their children. -/
structure Turns (d : Dataset) (ws : List (Window Node)) (wheels : List (Wheel (Option Binding)))
    (turn : Turn) : Prop where
  moved : turn.moved = .ok true
  whole : ∀ w ∈ turn.lower, w.Whole
  fade : ∃ wheels', Fade (Fades d) (turn.lower.map restart ++ turn.upper) wheels' ∧
    Wheel.positions wheels' = (Wheel.positions wheels).tail

/-- The first window has moved on within its rows. -/
theorem Turns.here {wheel : Wheel (Option Binding)} {later : List (Option Binding)}
    {x : Option Binding} {refilled : Bool} (ahead : wheel.ahead = x :: later)
    (fade : Fade (Fades d) (w' :: ws) ({ wheel with ahead := later } :: wheels)) :
    Turns d (w :: ws) (wheel :: wheels) ⟨.ok true, refilled, [], w' :: ws⟩ where
  moved := rfl
  whole := nofun
  fade := ⟨_, fade, (Wheel.tail_positions_of_step ahead).symm⟩

/-- The first window is at its end, so that one behind it has moved on. -/
theorem Turns.behind (whole : w.Whole) {x : Option Binding}
    (ahead : column (w.entries.drop w.cursor) = [x]) {turn : Turn}
    (turns : Turns d ws wheels turn) :
    Turns d (w :: ws) (⟨column (w.entries.drop w.cursor), column w.entries⟩ :: wheels)
      { turn with lower := w :: turn.lower } where
  moved := turns.moved
  whole := List.forall_mem_cons.2 ⟨whole, turns.whole⟩
  fade := by
    obtain ⟨wheels', fade, positions⟩ := turns.fade
    obtain ⟨first, all⟩ := w.restart_shows
    have fade' := Fade.front whole.restart fade
    rw [first, all] at fade'
    let wheel : Wheel (Option Binding) := ⟨column (w.entries.drop w.cursor), column w.entries⟩
    exact ⟨wheel.restarted :: wheels', fade', (wheel.tail_positions_of_end ahead positions).symm⟩

/-- The windows ran out of steps, or none of them can move on, or one did. -/
def TurnsOrStops (d : Dataset) (ws : List (Window Node)) (wheels : List (Wheel (Option Binding)))
    (turn : Turn) : Prop :=
  turn.moved = .error .outOfSteps ∨ turn.moved = .ok false ∨ Turns d ws wheels turn

/-- The last window moves on within its rows or by those that its child comes to. -/
theorem moveFirst_last {wheel : Wheel (Option Binding)} (keeps : KeepsDue d advance)
    (capacity : Nat) (child : w.more = true → Fades d w.node left)
    (current : w.cursor < w.entries.length ∨ w.entries = [] ∧ left = [])
    (ahead : wheel.ahead = column (w.entries.drop w.cursor ++ left)) :
    TurnsOrStops d [w] [wheel] (moveFirst advance capacity [w]) := by
  unfold moveFirst
  dsimp only
  split
  · exact .inr (.inl rfl)
  · next some =>
    have inside : w.cursor < w.entries.length :=
      current.resolve_right fun nothing => some (by rw [isEmpty, nothing.1]; rfl)
    rw [column_drop inside] at ahead
    split
    · next w' stepped =>
      obtain ⟨further, rfl⟩ := step?_eq_some stepped
      refine .inr (.inr (.here ahead (.last child (.inl further) ?_)))
      rw [column_drop further, List.drop_eq_getElem_cons further]
      rfl
    · next stepped =>
      rw [drop_of_step?_eq_none stepped, List.nil_append] at ahead
      rcases refill_fades keeps capacity child with
        stuck | ⟨w', refilled⟩ | ⟨w', rest, refilled, cursor, some, rfl, kept⟩
      · obtain ⟨_, same⟩ := exists_of_fst_eq stuck
        exact .inl (by simp only [same])
      · rw [refilled]
        exact .inr (.inl rfl)
      · rw [refilled]
        refine .inr (.inr (.here ahead (.last (fun _ => kept) (.inl ?_) ?_)))
        · rw [cursor]
          exact List.length_pos_of_ne_nil some
        · rw [cursor, List.drop_zero, column_of_ne_nil (by simp [some])]

/-- A window that holds all rows moves on within them, or leaves it to those behind it. -/
theorem moveFirst_front (whole : w.Whole) (others : Fade (Fades d) ws wheels)
    (turned : TurnsOrStops d ws wheels (moveFirst advance capacity ws)) :
    TurnsOrStops d (w :: ws) (⟨column (w.entries.drop w.cursor), column w.entries⟩ :: wheels)
      (moveFirst advance capacity (w :: ws)) := by
  -- At its end the window waits for one behind it, and is turned back without its child then.
  have behind {x} (ahead : column (w.entries.drop w.cursor) = [x]) :
      TurnsOrStops d (w :: ws) (⟨column (w.entries.drop w.cursor), column w.entries⟩ :: wheels)
        { moveFirst advance capacity ws with
          lower := w :: (moveFirst advance capacity ws).lower } :=
    turned.imp_right (.imp_right (.behind whole ahead))
  rw [moveFirst]
  split
  · next empty => exact behind (x := none) (by simp [List.isEmpty_iff.1 empty, column])
  · next some =>
    have inside : w.cursor < w.entries.length :=
      whole.current.resolve_right fun none => some (by rw [isEmpty, none]; rfl)
    have ahead := column_drop inside []
    rw [List.append_nil, List.append_nil] at ahead
    split
    · next w' stepped =>
      obtain ⟨further, rfl⟩ := step?_eq_some stepped
      have next := column_drop (w := { w with cursor := w.cursor + 1 }) further []
      rw [List.append_nil, List.append_nil] at next
      have same : (w.entries.drop (w.cursor + 1)).map .some
          = column (w.entries.drop (w.cursor + 1)) := by
        rw [next, List.drop_eq_getElem_cons further]
        rfl
      refine .inr (.inr (.here ahead ?_))
      rw [same]
      exact .front ⟨whole.chunk, whole.more, .inl further⟩ others
    · next stepped =>
      rw [drop_of_step?_eq_none stepped, List.map_nil] at ahead
      rw [refill, whole.more]
      exact behind ahead

theorem moveFirst_fades (keeps : KeepsDue d advance) (capacity : Nat)
    (h : Fade (Fades d) ws wheels) : TurnsOrStops d ws wheels (moveFirst advance capacity ws) := by
  induction h with
  | nil => exact .inr (.inl rfl)
  | last child current ahead => exact moveFirst_last keeps capacity child current ahead
  | front whole others ih => exact moveFirst_front whole others ih

end Window

/-! ## Advancing -/

namespace Node

variable {d : Dataset} {n : Node} {rows : List Binding} {env : Env} {advance : Advance}
  {wheels : List (Wheel (Option Binding))}

theorem nextCombination_fades (keeps : KeepsDue d advance)
    (h : Window.Fade (Fades d) n.children wheels) :
    (n.nextCombination advance).1 = .error .outOfSteps ∨
      (∃ children stats, n.nextCombination advance = (.ok false, { n with children, stats })) ∨
      ∃ children stats wheels',
        n.nextCombination advance = (.ok true, { n with children, stats }) ∧
        Window.Fade (Fades d) children wheels' ∧
        Wheel.positions wheels' = (Wheel.positions wheels).tail := by
  unfold nextCombination
  rcases Window.moveFirst_fades keeps n.capacity h with stuck | ended | turns
  · left
    simp only [stuck]
  · simp only [ended]
    exact .inr (.inl ⟨_, _, rfl⟩)
  · obtain ⟨wheels', fade, positions⟩ := turns.fade
    simp only [turns.moved, Window.rewindAll_of_whole turns.whole]
    exact .inr (.inr ⟨_, _, wheels', rfl, fade, positions⟩)

/-- Once the next combination is put together it is pending or gone, and the others are due. -/
theorem due_judged {children : List (Window Node)} {later : List Binding}
    (fade : Window.Fade (Fades d) children wheels) {state : NodeState}
    (judged : state = if passes d n.context n.postFilters (combined n.own children)
      then .ready .extend else .active .extend) (stats : NodeStats) :
    merged d n.context n.postFilters n.own (Wheel.positions wheels) ++ later
      = due d wheels later
        { n with children, state, stats, extended := combined n.own children } := by
  obtain ⟨others, positions⟩ := fade.positions_eq
  rw [due, positions, merged_cons, ← combined_eq, List.tail_cons]
  split at judged
  · next holds => rw [if_pos holds, judged]; rfl
  · next fails => rw [if_neg fails, judged]

theorem extend_fades (keeps : KeepsDue env.dataset advance) (h : Fades env.dataset n rows)
    (active : n.state = .active .extend) :
    (n.extend env advance).1 = .error .outOfSteps ∨
      ∃ n', n.extend env advance = (.ok (), n') ∧ Fades env.dataset n' rows := by
  obtain @⟨_, _, later, wheels, silent, windows, rfl⟩ := h
  unfold extend
  rcases nextCombination_fades keeps (windows (by rw [active]; rfl)) with
    stuck | ⟨children, stats, ended⟩ | ⟨children, stats, wheels', turned, fade, positions⟩
  · obtain ⟨_, same⟩ := exists_of_fst_eq stuck
    exact .inl (by simp only [same])
  · rw [ended]
    refine .inr ⟨_, rfl, ?_⟩
    exact fades_of_idle (n := { n with children, stats, state := .active .find }) silent
      (.inr rfl) _
  · rw [turned]
    simp only
    have left : n.due env.dataset wheels later = merged env.dataset n.context n.postFilters n.own
        (Wheel.positions wheels') ++ later := by
      rw [due, active, positions]
    generalize joined : combine _ = m
    obtain ⟨stats', checked⟩ := checkPost_eq env.dataset m
    rw [checked, left]
    subst joined
    split
    · next judged =>
      obtain ⟨holds, rfl⟩ := Prod.mk.inj judged
      exact .inr ⟨_, rfl, .intro silent (fun _ => fade)
        (due_judged fade (if_pos holds).symm stats')⟩
    · next judged =>
      obtain ⟨fails, rfl⟩ := Prod.mk.inj judged
      exact .inr ⟨_, rfl, .intro silent (fun _ => fade) (due_judged fade
        (active.trans (if_neg (ne_true_of_eq_false fails)).symm) stats')⟩

/-- Whatever the budget, a cancelled node keeps to what is due. -/
theorem advanceWithin_fades (cancelled : env.cancelled = true) (budget : Nat) :
    KeepsDue env.dataset (advanceWithin env budget) := by
  induction budget with
  | zero => exact fun n rows _ => .inl rfl
  | succ budget ih =>
    intro n rows h
    unfold advanceWithin
    split
    · exact .inr ⟨false, n, rfl, h, nofun⟩
    · next phase ready => exact .inr ⟨true, n, rfl, h, fun _ => ⟨phase, ready⟩⟩
    · next phase active =>
      cases phase with
      | find =>
        have ended : n.find env (advanceWithin env budget)
            = (.ok (), { n with state := .exhausted }) := by
          rw [find, cancelled, h.silent]
        simp only [ended]
        refine ih _ rows ?_
        exact fades_of_idle (n := { n with state := .exhausted }) h.silent (.inl rfl) rows
      | extend =>
        rcases extend_fades ih h active with stuck | ⟨n', ticked, kept⟩
        · obtain ⟨_, same⟩ := exists_of_fst_eq stuck
          exact .inl (by simp only [same])
        · simp only [ticked]
          exact ih n' rows kept

/-- Advancing a cancelled node comes to the first of the rows that are due or to its end. -/
theorem advance_fades (cancelled : env.cancelled = true) (bounded : n.Bounded env.dataset)
    (h : Fades env.dataset n rows) : ∃ found n', n.advance env = (.ok found, n') ∧
      Fades env.dataset n' rows ∧ (found = true → ∃ phase, n'.state = .ready phase) :=
  (advanceWithin_fades cancelled _ n rows h).resolve_left (advance_bounds bounded).steps

end Node

end QuadQuery
