import QuadQuery.Proofs.JoinTree.Willing

/-!
# What the windows hold

The rows that a child has for its context are divided into stretches that are as long as a window
may be. A window that was filled holds one of them, the child is right behind it, and the first row
behind it is pending (`Window.Framed`). Filling a window for a new context, moving it on and moving
it back all lead to such a window, and so this holds throughout a tree, whatever is done to its root.
-/

namespace QuadQuery

namespace Node

variable {d : Dataset} {n n' : Node} {context : Binding} {advance : Advance}

/-- All rows that a node has for the context that it was last moved to. -/
def rowsHere (d : Dataset) (n : Node) : List Binding :=
  n.rows d n.context

theorem Kept.rowsHere (h : Kept d n n') : n'.rowsHere d = n.rowsHere d := by
  rw [Node.rowsHere, h.context, h.alike.rows]
  rfl

/-- A node that was moved has all of its rows left. -/
theorem Sought.remaining_eq_rowsHere {found : Bool} (h : Sought d context n found n') :
    n'.remaining d = n'.rowsHere d := by
  have all : n'.remaining d = n'.rows d context := h.remaining.trans (h.alike.rows context).symm
  rcases h.place with same | never
  · rw [all, Node.rowsHere, same]
  · have none := h.valid.standing.rows_eq_nil never
    rw [all, Node.rowsHere, none, none]

/-- A child has the same rows for the context that its parent remembers and for its own: either these
are the same, or it has none for any. -/
theorem Valid.rows_eq_rowsHere (settled : n.Valid d) (remembered : n.childContext = some context)
    {w : Window Node} (child : w ∈ n.children) : w.node.rows d context = w.node.rowsHere d := by
  rcases settled.standing.contexts context remembered w child with here | never
  · rw [Node.rowsHere, here]
  · have none := (settled.children w child).standing.rows_eq_nil never
    rw [Node.rowsHere, none, none]

theorem Serves.served (serves : Serves d advance) (valid : n.Valid d) {found : Bool}
    (advanced : advance n = (.ok found, n')) : Served d n (.ok found) n' := by
  have spec := serves n valid
  rw [advanced] at spec
  exact spec.resolve_left nofun

end Node

/-- The window holds the stretch with the number `chunk` of the rows of the child, and the child is
right behind it. -/
structure Window.Framed (d : Dataset) (capacity : Nat) (w : Window Node) : Prop where
  placed : w.node.neverMatches = false → w.node.scan.Positioned
  entries : w.entries = ((w.node.rowsHere d).drop (w.chunk * capacity)).take capacity
  behind : w.node.remaining d = (w.node.rowsHere d).drop ((w.chunk + 1) * capacity)
  more : w.more = !(w.node.remaining d).isEmpty
  pending : w.more = true → ∃ phase, w.node.state = .ready phase
  current : w.cursor < w.entries.length ∨ w.node.rowsHere d = []

/-- The window is as it was put into the tree, and its child has never been moved to a context. -/
def Window.Unloaded (w : Window Node) : Prop :=
  w = { node := w.node } ∧ (w.node.scan.needsPlace = true → ¬ w.node.scan.Positioned)

namespace Node

variable {d : Dataset} {n n' : Node} {env : Env}
  {advance : Advance} {context : Binding} {firstChanged : Nat}

/-- Throughout a tree, no window of a node has been filled until the node has put a combination
together, and from then on each of them holds a stretch of the rows of its child. -/
inductive Framed (d : Dataset) : Node → Prop
  | intro {n : Node} (begun : n.state.combines → n.stats.combinations ≠ 0)
      (filled : n.stats.combinations ≠ 0 → ∀ w ∈ n.children, w.Framed d n.capacity)
      (unloaded : n.stats.combinations = 0 → ∀ w ∈ n.children, w.Unloaded)
      (others : ∀ w ∈ n.children, Framed d w.node) : Framed d n

theorem Framed.begun (h : n.Framed d) : n.state.combines → n.stats.combinations ≠ 0 := by
  cases h; assumption

theorem Framed.filled (h : n.Framed d) :
    n.stats.combinations ≠ 0 → ∀ w ∈ n.children, w.Framed d n.capacity := by
  cases h; assumption

theorem Framed.unloaded (h : n.Framed d) :
    n.stats.combinations = 0 → ∀ w ∈ n.children, w.Unloaded := by
  cases h; assumption

theorem Framed.children (h : n.Framed d) : ∀ w ∈ n.children, w.node.Framed d := by
  cases h; assumption

/-- Nothing matters but the windows and whether a combination was put together. -/
theorem Framed.of_same (h : n.Framed d) (children : n'.children = n.children)
    (capacity : n'.capacity = n.capacity)
    (combinations : n'.stats.combinations = n.stats.combinations)
    (begun : n'.state.combines → n.state.combines) : n'.Framed d := by
  refine .intro (fun combines => ?_) ?_ ?_ (children ▸ h.children)
  · rw [combinations]
    exact h.begun (begun combines)
  · rw [combinations, children, capacity]
    exact h.filled
  · rw [combinations, children]
    exact h.unloaded

/-- Every window holds a stretch of the rows of its child, and all is well below it. -/
def AllFramed (d : Dataset) (capacity : Nat)
    (ws : List (Window Node)) : Prop :=
  ∀ w ∈ ws, w.node.Valid d ∧ w.node.Framed d ∧ w.Framed d capacity

theorem Framed.of_filled (begun : n.stats.combinations ≠ 0)
    (all : AllFramed d n.capacity n.children) : n.Framed d :=
  .intro (fun _ => begun) (fun _ w member => (all w member).2.2) (fun stats => absurd stats begun)
    fun w member => (all w member).2.1

theorem Framed.all (h : n.Framed d) (valid : n.Valid d)
    (begun : n.stats.combinations ≠ 0) : AllFramed d n.capacity n.children :=
  fun w member => ⟨valid.children w member, h.children w member, h.filled begun w member⟩

/-- A way to advance nodes that leaves the windows below them in order. -/
def KeepsFramed (d : Dataset) (advance : Advance) : Prop :=
  ∀ (n : Node) (found : Bool) (n' : Node), n.Valid d → n.Framed d →
    advance n = (.ok found, n') → n'.Framed d

/-! ## Steps of one node -/

theorem not_combines_stateFor (found : Bool) : ¬ (stateFor found).combines := by
  cases found
  · exact NodeState.not_combines_exhausted
  · exact NodeState.not_combines_find

theorem Framed.take (h : n.Framed d) : n.take.2.Framed d := by
  unfold Node.take
  split
  · next phase ready => exact h.of_same rfl rfl rfl fun combines => by rw [ready]; exact combines
  · exact h

theorem Framed.open (h : n.Framed d) (env : Env) : (n.open env).2.Framed d := by
  unfold Node.open
  dsimp only
  split
  · exact h.of_same rfl rfl rfl fun combines => absurd combines NodeState.not_combines_exhausted
  · split
    · exact h.of_same rfl rfl rfl fun combines => absurd combines NodeState.not_combines_find
    · exact h.of_same rfl rfl rfl fun combines => combines

theorem Framed.seek (h : n.Framed d) (env : Env) (context : Binding) (firstChanged : Nat) :
    (n.seek env context firstChanged).2.Framed d := by
  unfold Node.seek
  split
  · exact h.of_same rfl rfl rfl fun combines => absurd combines NodeState.not_combines_exhausted
  · split
    · exact h.of_same rfl rfl rfl fun combines => absurd combines (not_combines_stateFor _)
    · exact h.of_same rfl rfl rfl fun combines => combines

theorem Framed.reset (h : n.Framed d) : n.reset.2.Framed d := by
  unfold Node.reset
  split
  · exact h.of_same rfl rfl rfl fun combines => absurd combines NodeState.not_combines_exhausted
  · exact h.of_same rfl rfl rfl fun combines => absurd combines (not_combines_stateFor _)

end Node

namespace Window

open Node (AllFramed KeepsFramed Serves Sought)

variable {d : Dataset} {w w' : Window Node}
  {ws ws' : List (Window Node)} {env : Env} {advance : Advance} {capacity : Nat}
  {context : Binding} {firstChanged : Nat}

/-! ## Filling -/

theorem draw_framed (serves : Serves d advance) (keeps : KeepsFramed d advance)
    (count : Nat) {node node' : Node} {rows : List Binding} (valid : node.Valid d)
    (framed : node.Framed d)
    (drawn : draw advance count node = (.ok (), rows, node')) :
    node'.Valid d ∧ node'.Framed d := by
  induction count generalizing node rows with
  | zero =>
    cases drawn
    exact ⟨valid, framed⟩
  | succ count ih =>
    unfold draw at drawn
    rcases advanced : advance node with ⟨_ | _ | _, next⟩
    · rw [advanced] at drawn
      cases drawn
    · rw [advanced] at drawn
      cases drawn
      exact ⟨(serves.served valid advanced).kept.valid, keeps _ _ _ valid framed advanced⟩
    · have served := serves.served valid advanced
      obtain ⟨phase, pending⟩ := served.ready rfl
      obtain ⟨row, taken, take, kept, _, _⟩ := Node.take_spec served.kept.valid pending
      have framed' := (keeps _ _ _ valid framed advanced).take
      rw [take] at framed'
      rcases others : draw advance count taken with ⟨result, rows', last⟩
      rw [advanced] at drawn
      simp only [take, others] at drawn
      cases drawn
      exact ih kept.valid framed' others

/-- Filling a window leaves the child in order, with a row pending if there are more. -/
theorem fill_framed (serves : Serves d advance) (keeps : KeepsFramed d advance)
    (valid : w.node.Valid d) (framed : w.node.Framed d)
    (filled : w.fill advance capacity = (.ok (), w')) :
    w'.node.Framed d ∧ (w'.more = true → ∃ phase, w'.node.state = .ready phase) := by
  unfold fill at filled
  rcases drawn : draw advance capacity w.node with ⟨_ | _, entries, node⟩
  · rw [drawn] at filled
    cases filled
  · obtain ⟨valid', framed'⟩ := draw_framed serves keeps capacity valid framed drawn
    rw [drawn] at filled
    simp only at filled
    split at filled
    · rcases advanced : advance node with ⟨_ | more, next⟩
      · rw [advanced] at filled
        cases filled
      · rw [advanced] at filled
        cases filled
        refine ⟨keeps _ _ _ valid' framed' advanced, fun isMore => ?_⟩
        exact (serves.served valid' advanced).ready (congrArg _ isMore)
    · cases filled
      exact ⟨framed', nofun⟩

/-- A window that is filled where a stretch begins holds this stretch. -/
theorem fill_frames (serves : Serves d advance) (keeps : KeepsFramed d advance)
    (room : 0 < capacity) (valid : w.node.Valid d) (framed : w.node.Framed d)
    (placed : w.node.neverMatches = false → w.node.scan.Positioned) {chunk : Nat}
    (start : w.node.remaining d = (w.node.rowsHere d).drop (chunk * capacity))
    (inside : w.node.remaining d = [] → w.node.rowsHere d = [])
    (filled : w.fill advance capacity = (.ok (), w')) :
    w'.node.Valid d ∧ w'.node.Framed d ∧
      ({ w' with chunk } : Window Node).Framed d capacity := by
  have holds := reached_of_ok (fill_spec serves capacity valid) filled
  obtain ⟨framed', pending⟩ := fill_framed serves keeps valid framed filled
  have same := holds.kept.rowsHere
  refine ⟨holds.kept.valid, framed', ?_, ?_, ?_, holds.more, pending, ?_⟩
  · exact fun possible => holds.kept.positioned.2 (placed (holds.kept.alike.never ▸ possible))
  · simp only [same, holds.entries, start]
  · simp only [same, holds.remaining, start, List.drop_drop, Nat.succ_mul]
  · simp only [same, holds.cursor, holds.entries, List.length_take]
    by_cases none : w.node.remaining d = []
    · exact .inr (inside none)
    · have := List.length_pos_of_ne_nil none
      exact .inl (by omega)

/-- So does a window that is filled after its child was moved. -/
theorem fill_frames_first (serves : Serves d advance) (keeps : KeepsFramed d advance)
    (room : 0 < capacity) {n node : Node} {found : Bool} (sought : Sought d context n found node)
    (framed : node.Framed d)
    (filled : ({ w with node, chunk := 0 } : Window Node).fill advance capacity = (.ok (), w')) :
    w'.node.Valid d ∧ w'.node.Framed d ∧ w'.Framed d capacity := by
  have all := sought.remaining_eq_rowsHere
  have start : node.remaining d = (node.rowsHere d).drop (0 * capacity) := by
    rw [Nat.zero_mul, List.drop_zero, all]
  have number : w'.chunk = 0 :=
    (reached_of_ok (fill_spec serves capacity sought.valid) filled).chunk
  have whole : ({ w' with chunk := 0 } : Window Node) = w' := by rw [← number]
  have holds := fill_frames serves keeps room sought.valid framed sought.positioned start
    (fun none => all.symm.trans none) filled
  rwa [whole] at holds

/-! ## One window -/

theorem load_framed (serves : Serves env.dataset advance)
    (keeps : KeepsFramed env.dataset advance) (room : 0 < capacity)
    (valid : w.node.Valid env.dataset) (framed : w.node.Framed env.dataset)
    (truthful : w.node.neverMatches = false → w.node.scan.Positioned →
      w.node.scan.Unmoved w.node.context context firstChanged)
    (loaded : w.load env advance context firstChanged capacity = (.ok (), w')) :
    w'.node.Valid env.dataset ∧ w'.node.Framed env.dataset ∧
      w'.Framed env.dataset capacity := by
  obtain ⟨found, node, moved, sought⟩ := Node.seek_spec valid truthful
  have framed' := framed.seek env context firstChanged
  rw [moved] at framed'
  unfold load at loaded
  simp only [moved] at loaded
  cases found with
  | true => exact fill_frames_first serves keeps room sought framed' loaded
  | false =>
    cases loaded
    have all := sought.remaining_eq_rowsHere
    have none : node.remaining env.dataset = [] := sought.remaining.trans (sought.rows_eq_nil valid)
    have nothing : node.rowsHere env.dataset = [] := all.symm.trans none
    exact ⟨sought.valid, framed', sought.positioned, by simp [nothing], by simp [none, nothing],
      by simp [none], nofun, .inr nothing⟩

theorem rewind_framed (serves : Serves d advance) (keeps : KeepsFramed d advance)
    (room : 0 < capacity) (valid : w.node.Valid d) (framed : w.node.Framed d)
    (window : w.Framed d capacity) (rewound : w.rewind advance capacity = (.ok (), w')) :
    w'.node.Valid d ∧ w'.node.Framed d ∧ w'.Framed d capacity := by
  unfold rewind at rewound
  split at rewound
  · cases rewound
    exact ⟨valid, framed, window.placed, window.entries, window.behind, window.more, window.pending,
      window.current.imp_left Nat.zero_lt_of_lt⟩
  · exact fill_frames_first serves keeps room (Node.reset_spec valid window.placed) framed.reset
      rewound

theorem refill_framed (serves : Serves d advance) (keeps : KeepsFramed d advance)
    (room : 0 < capacity) (valid : w.node.Valid d) (framed : w.node.Framed d)
    (window : w.Framed d capacity) {found : Bool}
    (refilled : w.refill advance capacity = (.ok found, w')) :
    w'.node.Valid d ∧ w'.node.Framed d ∧ w'.Framed d capacity := by
  unfold refill at refilled
  split at refilled
  · cases refilled
    exact ⟨valid, framed, window⟩
  · next isMore =>
    -- There are rows behind the window, so it is not the last.
    have left : w.node.remaining d ≠ [] := fun none => isMore (by simp [window.more, none])
    rcases filled : w.fill advance capacity with ⟨_ | _, v⟩
    · rw [filled] at refilled
      cases refilled
    · have number := (reached_of_ok (fill_spec serves capacity valid) filled).chunk
      rw [filled] at refilled
      cases refilled
      have holds := fill_frames serves keeps room valid framed window.placed window.behind
        (fun none => absurd none left) filled
      rwa [← number] at holds

/-! ## All windows -/

theorem loadAll_framed (serves : Serves env.dataset advance)
    (keeps : KeepsFramed env.dataset advance) (room : 0 < capacity)
    (valid : ∀ w ∈ ws, w.node.Valid env.dataset)
    (framed : ∀ w ∈ ws, w.node.Framed env.dataset)
    (truthful : ∀ w ∈ ws, w.node.neverMatches = false → w.node.scan.Positioned →
      w.node.scan.Unmoved w.node.context context firstChanged)
    (loaded : loadAll env advance context firstChanged capacity ws = (.ok (), ws')) :
    AllFramed env.dataset capacity ws' := by
  induction ws generalizing ws' with
  | nil =>
    cases loaded
    exact List.forall_mem_nil _
  | cons w rest ih =>
    obtain ⟨first, others⟩ := List.forall_mem_cons.1 valid
    obtain ⟨framed, framed'⟩ := List.forall_mem_cons.1 framed
    obtain ⟨truth, truths⟩ := List.forall_mem_cons.1 truthful
    unfold loadAll at loaded
    rcases here : w.load env advance context firstChanged capacity with ⟨_ | _, v⟩
    · rw [here] at loaded
      cases loaded
    · rcases later : loadAll env advance context firstChanged capacity rest with ⟨result, vs⟩
      rw [here] at loaded
      simp only [later] at loaded
      cases loaded
      exact List.forall_mem_cons.2 ⟨load_framed serves keeps room first framed truth here,
        ih others framed' truths later⟩

theorem rewindAll_framed (serves : Serves d advance) (keeps : KeepsFramed d advance)
    (room : 0 < capacity) (all : AllFramed d capacity ws)
    (rewound : rewindAll advance capacity ws = (.ok (), ws')) :
    AllFramed d capacity ws' := by
  induction ws generalizing ws' with
  | nil =>
    cases rewound
    exact all
  | cons w rest ih =>
    obtain ⟨first, others⟩ := List.forall_mem_cons.1 all
    unfold rewindAll at rewound
    rcases later : rewindAll advance capacity rest with ⟨result, vs⟩
    split at rewound
    · simp only [later] at rewound
      cases rewound
      exact List.forall_mem_cons.2 ⟨first, ih others later⟩
    · rcases here : w.rewind advance capacity with ⟨_ | _, v⟩
      · rw [here] at rewound
        cases rewound
      · rw [here] at rewound
        simp only [later] at rewound
        cases rewound
        obtain ⟨valid, framed, window⟩ := first
        exact List.forall_mem_cons.2 ⟨rewind_framed serves keeps room valid framed window here,
          ih others later⟩

theorem moveFirst_framed (serves : Serves d advance) (keeps : KeepsFramed d advance)
    (room : 0 < capacity) (all : AllFramed d capacity ws) {found : Bool}
    (moved : (moveFirst advance capacity ws).moved = .ok found) :
    AllFramed d capacity
      ((moveFirst advance capacity ws).lower ++ (moveFirst advance capacity ws).upper) := by
  induction ws with
  | nil => exact List.forall_mem_nil _
  | cons w rest ih =>
    obtain ⟨first, others⟩ := List.forall_mem_cons.1 all
    obtain ⟨valid, framed, window⟩ := first
    unfold moveFirst at moved ⊢
    dsimp only at moved ⊢
    by_cases empty : w.isEmpty = true
    · simp only [if_pos empty] at moved ⊢
      exact List.forall_mem_cons.2 ⟨⟨valid, framed, window⟩, ih others moved⟩
    · simp only [if_neg empty] at moved ⊢
      cases stepped : w.step? with
      | some v =>
        obtain ⟨further, rfl⟩ := step?_eq_some stepped
        refine List.forall_mem_cons.2 ⟨⟨valid, framed, window.placed, window.entries, window.behind,
          window.more, window.pending, .inl further⟩, others⟩
      | none =>
        simp only [stepped] at moved
        rcases refilled : w.refill advance capacity with ⟨_ | _ | _, v⟩
        · rw [refilled] at moved
          cases moved
        · simp only [refilled] at moved
          exact List.forall_mem_cons.2
            ⟨refill_framed serves keeps room valid framed window refilled, ih others moved⟩
        · exact List.forall_mem_cons.2
            ⟨refill_framed serves keeps room valid framed window refilled, others⟩

end Window

namespace Node

variable {d : Dataset} {n n' : Node} {env : Env}
  {advance : Advance}

/-! ## Turns of the loop -/

theorem nextCombination_framed (serves : Serves d advance) (keeps : KeepsFramed d advance)
    (room : 0 < n.capacity) (all : AllFramed d n.capacity n.children) {found : Bool}
    (turned : n.nextCombination advance = (.ok found, n')) :
    AllFramed d n.capacity n'.children := by
  unfold nextCombination at turned
  dsimp only at turned
  rcases moved : (Window.moveFirst advance n.capacity n.children).moved with _ | _ | _
  · rw [moved] at turned
    cases turned
  · have framed := Window.moveFirst_framed serves keeps room all moved
    rw [moved] at turned
    cases turned
    exact framed
  · obtain ⟨lower, upper⟩ :=
      List.forall_mem_append.1 (Window.moveFirst_framed serves keeps room all moved)
    rw [moved] at turned
    dsimp only at turned
    rcases rewound : Window.rewindAll advance n.capacity
      (Window.moveFirst advance n.capacity n.children).lower with ⟨_ | _, ws⟩
    · rw [rewound] at turned
      cases turned
    · rw [rewound] at turned
      cases turned
      exact List.forall_mem_append.2
        ⟨Window.rewindAll_framed serves keeps room lower rewound, upper⟩

theorem find_framed (live : env.cancelled = false) (serves : Serves env.dataset advance)
    (keeps : KeepsFramed env.dataset advance) (settled : n.Valid env.dataset)
    (framed : n.Framed env.dataset)
    (found : n.find env advance = (.ok (), n')) : n'.Framed env.dataset := by
  cases rest : n.scan.rest with
  | nil =>
    simp only [Node.find, live, Scan.next?_nil rest] at found
    cases found
    exact framed.of_same rfl rfl rfl fun combines => absurd combines NodeState.not_combines_exhausted
  | cons ids later =>
    obtain ⟨scan, drawn, blank, _, rfl, _, _⟩ := Scan.next?_cons rest env.dataset n.context
    rw [← live] at drawn
    cases holds : n.admits env.dataset ids with
    | false =>
      have counted := counted_of_missed advance drawn holds
      obtain ⟨stats, missed⟩ := find_of_missed advance drawn rfl holds
      rw [found] at counted
      cases missed.symm.trans found
      exact framed.of_same rfl rfl counted.combinations fun combines => combines
    | true =>
      have hints := unmoved_children settled.standing settled.children
        ((Binding.ofRow n.attributes ids).extendAbsent n.context)
      rw [← Scan.order_of_blank blank] at hints
      rcases loaded : Window.loadAll env advance
          ((Binding.ofRow n.attributes ids).extendAbsent n.context)
          (scan.order.firstChanged n.childContext
            ((Binding.ofRow n.attributes ids).extendAbsent n.context)) n.capacity n.children
        with ⟨_ | _, children⟩
      · obtain ⟨stats, failed⟩ := find_of_failed drawn rfl holds loaded
        cases failed.symm.trans found
      · have counted := counted_of_loaded drawn holds loaded
        obtain ⟨stats, passed⟩ := find_of_loaded drawn rfl holds loaded
        rw [found] at counted
        cases passed.symm.trans found
        refine .of_filled ?_ (Window.loadAll_framed serves keeps settled.standing.capacity
          settled.children framed.children hints loaded)
        rw [counted.combinations]
        exact Nat.succ_ne_zero _

theorem extend_framed (serves : Serves env.dataset advance)
    (keeps : KeepsFramed env.dataset advance) (settled : n.Valid env.dataset)
    (framed : n.Framed env.dataset) (active : n.state = .active .extend)
    (extended : n.extend env advance = (.ok (), n')) : n'.Framed env.dataset := by
  have own := settled.standing
  have begun := framed.begun (by rw [active]; rfl)
  have stand : Window.AllStand env.dataset (n.own.extendAbsent n.context) n.children :=
    fun w member => ⟨settled.children w member,
      (own.windows (by rw [active]; exact rfl)).2 w member⟩
  rcases nextCombination_spec serves own.capacity stand with
    stuck | ⟨found, children, stats, turned, _, _, _⟩
  · obtain ⟨m, same⟩ := exists_of_fst_eq stuck
    rw [Node.extend, same] at extended
    cases extended
  have all := nextCombination_framed serves keeps own.capacity (framed.all settled begun) turned
  cases found with
  | false =>
    have counted := counted_nextCombination advance n
    rw [turned] at counted
    rw [Node.extend, turned] at extended
    cases extended
    refine .of_filled ?_ all
    rw [counted.combinations]
    exact begun
  | true =>
    have counted := counted_of_next env turned
    obtain ⟨stats, next⟩ := extend_of_next env active turned
    rw [extended] at counted
    cases next.symm.trans extended
    refine .of_filled ?_ all
    rw [counted.combinations]
    exact Nat.succ_ne_zero _

/-- However far a node is advanced, the windows below it stay in order. -/
theorem advanceWithin_framed (valid : env.dataset.Valid) (live : env.cancelled = false)
    (budget : Nat) : KeepsFramed env.dataset (advanceWithin env budget) := by
  induction budget with
  | zero =>
    intro n found n' _ _ advanced
    cases advanced
  | succ budget ih =>
    intro n found n' settled framed advanced
    have serves := advanceWithin_spec valid live budget
    unfold advanceWithin at advanced
    cases state : n.state with
    | exhausted =>
      simp only [state] at advanced
      cases advanced
      exact framed
    | ready phase =>
      simp only [state] at advanced
      cases advanced
      exact framed
    | active phase =>
      simp only [state] at advanced
      cases phase with
      | find =>
        rcases find_spec valid live serves settled state with stuck | ⟨m, drawn, turned⟩
        · obtain ⟨_, same⟩ := exists_of_fst_eq stuck
          simp [same] at advanced
        · simp only [drawn] at advanced
          exact ih m found n' turned.kept.valid
            (find_framed live serves ih settled framed drawn) advanced
      | extend =>
        rcases extend_spec serves settled state with stuck | ⟨m, extended, turned⟩
        · obtain ⟨_, same⟩ := exists_of_fst_eq stuck
          simp [same] at advanced
        · simp only [extended] at advanced
          exact ih m found n' turned.kept.valid
            (extend_framed serves ih settled framed state extended) advanced

/-! ## Runs -/

theorem Framed.perform (valid : env.dataset.Valid) (live : env.cancelled = false)
    (settled : n.Valid env.dataset) (framed : n.Framed env.dataset) (step : Step) :
    (n.perform env step).2.Framed env.dataset := by
  cases step with
  | «open» =>
    have opened := framed.open env
    simp only [Node.perform]
    split <;> (next same => rw [same] at opened; exact opened)
  | seek context firstChanged =>
    have sought := framed.seek env context firstChanged
    simp only [Node.perform]
    split <;> (next same => rw [same] at sought; exact sought)
  | reset => exact framed.reset
  | advance =>
    obtain ⟨n', advanced⟩ := exists_of_fst_eq (advance_spec valid live settled).found
    rw [perform_advance advanced]
    exact advanceWithin_framed valid live _ n _ n' settled framed advanced
  | take =>
    have taken := framed.take
    simp only [Node.perform]
    split <;> (next same => rw [same] at taken; exact taken)

/-- What holds of the root for a reader of its rows holds as well after some steps, and so do the
windows below it. -/
theorem Framed.after {root : Node} {r : Reading} {order : AttributeOrder}
    (valid : env.dataset.Valid) (live : env.cancelled = false) (heeds : root.scan.Heeds order)
    (h : QuadQuery.Follows env.dataset root n r) {last : Option Binding}
    (known : ∀ context, r.place = some context → last = some context ∨ root.scan.needsPlace = false)
    (steps : List Step) (truthful : Truthful order last steps)
    (framed : n.Framed env.dataset) :
    (n.after env steps).Valid env.dataset ∧ (n.after env steps).Framed env.dataset := by
  induction steps generalizing n r last with
  | nil => exact ⟨h.valid, framed⟩
  | cons step rest ih =>
    obtain ⟨⟨_, follows⟩, last', known', truthful'⟩ :=
      perform_spec valid live heeds h known truthful
    exact ih follows known' truthful' (framed.perform valid live h.valid step)

end Node

/-! ## Trees that were just put together -/

namespace Scan

theorem needsPlace_init (s : Scan) (d : Dataset) (incoming : AttributeOrder) :
    (s.init d incoming).2.needsPlace = s.needsPlace := by
  cases s <;> rfl

theorem positioned_init (s : Scan) (d : Dataset) (incoming : AttributeOrder) :
    (s.init d incoming).2.Positioned ↔ s.Positioned := by
  cases s <;> exact .rfl

end Scan

namespace Node

variable {d : Dataset} {n : Node}

/-- Nothing has been done yet with any node of the tree. -/
inductive Untouched : Node → Prop
  | intro {n : Node} (stats : n.stats.combinations = 0) (idle : ¬ n.state.combines)
      (nowhere : n.scan.needsPlace = true → ¬ n.scan.Positioned)
      (blank : ∀ w ∈ n.children, w = { node := w.node })
      (others : ∀ w ∈ n.children, Untouched w.node) : Untouched n

theorem Untouched.nowhere (h : n.Untouched) : n.scan.needsPlace = true → ¬ n.scan.Positioned := by
  cases h; assumption

theorem Untouched.framed (h : n.Untouched) : n.Framed d := by
  induction h with
  | intro stats idle _ blank others ih =>
    exact .intro (fun combines => absurd combines idle) (fun begun => absurd stats begun)
      (fun _ w member => ⟨blank w member, (others w member).nowhere⟩) ih

theorem Built.untouched (built : n.Built) : n.Untouched := by
  induction built with
  | @ofScan scan unused capacity =>
    refine .intro rfl NodeState.not_combines_find (fun needs => ?_) nofun nofun
    cases scan with
    | fixed s => cases needs
    | index s =>
      have same : s = { pattern := s.pattern } := unused
      rw [same]
      exact fun placed => placed rfl
  | addChild _ _ first second =>
    obtain ⟨stats, idle, nowhere, blank, others⟩ := first
    exact .intro stats idle nowhere
      (List.forall_mem_append.2 ⟨blank, List.forall_mem_singleton.2 rfl⟩)
      (List.forall_mem_append.2 ⟨others, List.forall_mem_singleton.2 second⟩)
  | addFilter _ e first =>
    obtain ⟨stats, idle, nowhere, blank, others⟩ := first
    unfold Node.addFilter
    split <;> exact .intro stats idle nowhere blank others

/-- Settling the order moves no child and fills no window. -/
theorem Untouched.init (h : n.Untouched) (d : Dataset) (incoming : AttributeOrder) :
    (n.init d incoming).2.Untouched := by
  induction h generalizing incoming with
  | @intro n stats idle nowhere blank _ ih =>
    have windows (order : AttributeOrder) :
        ∀ w ∈ (initAll d order n.children).2, w = { node := w.node } := by
      generalize n.children = ws at blank
      induction ws generalizing order with
      | nil => exact List.forall_mem_nil _
      | cons w rest more =>
        obtain ⟨first, others⟩ := List.forall_mem_cons.1 blank
        rw [initAll_cons]
        refine List.forall_mem_cons.2 ⟨?_, more _ others⟩
        rw [first]
    rw [init_eq]
    refine .intro stats ?_ ?_ (windows _) (forall_mem_initAll fun w member order _ =>
      ih w member order)
    · dsimp only
      split
      · exact NodeState.not_combines_exhausted
      · exact idle
    · dsimp only
      rwa [Scan.needsPlace_init, Scan.positioned_init]

/-- Whatever is done to the root of a tree without refusals, all is in order below it. -/
theorem Built.framed_after (reachable : d.Reachable) (built : n.Built) (incoming : AttributeOrder)
    (steps : List Step) (truthful : Truthful incoming none steps) :
    let root := (n.init d incoming).2
    (root.after { dataset := d } steps).Valid d ∧ (root.after { dataset := d } steps).Framed d := by
  intro root
  have heeds : (n.init d incoming).2.scan.Heeds incoming := by
    rw [init_eq]
    exact n.scan.heeds_init d incoming
  have start : QuadQuery.Follows ({ dataset := d } : Env).dataset root root (.start root) :=
    follows_start built d incoming
  refine Framed.after reachable.valid rfl heeds start (fun context place => ?_) steps truthful
    (built.untouched.init d incoming).framed
  unfold Reading.start at place
  split at place
  · cases place
  · next free => exact .inr (by simpa using free)

theorem Framed.nodes (valid : n.Valid d) (framed : n.Framed d) :
    ∀ m ∈ n.nodes, m.Valid d ∧ m.Framed d :=
  forall_mem_nodes (fun _ h w child => ⟨h.1.children w child, h.2.children w child⟩) n
    ⟨valid, framed⟩

/-! ## Windows of trees with refusals -/

theorem rowsHere_willing (d : Dataset) (n : Node) : n.willing.rowsHere d = n.rowsHere d := by
  rw [rowsHere, rows_willing, willing_eq]
  rfl

/-- As long as no step has failed, every node would be in order if there were no refusals. -/
theorem MadeOf.framed_after (reachable : d.Reachable) (made : n.MadeOf Scan.Fresh)
    (incoming : AttributeOrder) (steps : List Step) (truthful : Truthful incoming none steps)
    (fine : .failed ∉ (n.init d incoming).2.replies { dataset := d } steps) :
    ∀ m ∈ ((n.init d incoming).2.after { dataset := d } steps).nodes,
      m.willing.Valid d ∧ m.willing.Framed d := by
  intro m member
  obtain ⟨valid, framed⟩ := made.built_willing.framed_after reachable incoming steps truthful
  rw [init_willing, after_willing fine] at valid framed
  refine framed.nodes valid m.willing ?_
  rw [nodes_willing]
  exact List.mem_map_of_mem member

end Node

namespace Window

variable {d : Dataset} {w : Window Node} {capacity : Nat}

theorem Framed.of_willing (h : w.willing.Framed d capacity) : w.Framed d capacity := by
  obtain ⟨placed, entries, behind, more, pending, current⟩ := h
  simp only [willing, Node.rowsHere_willing, Node.remaining_willing] at entries behind more current
  simp only [willing, Node.willing_eq, Scan.positioned_willing] at placed pending
  exact ⟨placed, entries, behind, more, pending, current⟩

theorem Unloaded.of_willing (h : w.willing.Unloaded) : w.Unloaded := by
  obtain ⟨blank, nowhere⟩ := h
  cases w with
  | mk node entries cursor more chunk =>
    cases blank
    simp only [willing, Node.willing_eq, Scan.needsPlace_willing, Scan.positioned_willing]
      at nowhere
    exact ⟨rfl, nowhere⟩

theorem Framed.length_le (h : w.Framed d capacity) : w.entries.length ≤ capacity := by
  rw [h.entries]
  exact List.length_take_le _ _

/-- The child hands out all of its rows once it starts over, and those behind the window when it goes
on. -/
theorem Framed.handsOut (h : w.Framed d capacity) (reachable : d.Reachable)
    (settled : w.node.Valid d) :
    w.node.reset.2.HandsOut { dataset := d } (w.node.rowsHere d) ∧
      w.node.HandsOut { dataset := d } ((w.node.rowsHere d).drop ((w.chunk + 1) * capacity)) := by
  have sought := Node.reset_spec settled h.placed
  have all : w.node.reset.2.remaining d = w.node.rowsHere d := sought.remaining
  rw [← h.behind, ← all]
  exact ⟨Node.handsOut_remaining (n := w.node.reset.2) reachable.valid rfl sought.valid,
    Node.handsOut_remaining (n := w.node) reachable.valid rfl settled⟩

/-- The row behind the window is pending. -/
theorem Framed.take_eq (h : w.Framed d capacity) {row : Binding}
    (next : (w.node.rowsHere d)[(w.chunk + 1) * capacity]? = some row) :
    ∃ phase node, w.node.state = .ready phase ∧ w.node.take = (.ok row, node) := by
  have first : (w.node.remaining d).head? = some row := by
    rw [h.behind, List.head?_drop, next]
  have isMore : w.more = true := by
    rw [h.more]
    cases rest : w.node.remaining d with
    | nil =>
      rw [rest] at first
      cases first
    | cons => rfl
  obtain ⟨phase, ready⟩ := h.pending isMore
  rw [Node.remaining_eq, ready] at first
  obtain rfl : w.node.extended = row := by
    cases phase <;> exact Option.some.inj first
  exact ⟨phase, { w.node with state := .active phase, extended := ∅ }, ready, by
    rw [Node.take, ready]⟩

end Window

namespace Node

variable {d : Dataset} {n : Node}

/-! ## Main statement -/

/-- As long as no step at the root of a settled tree fails and all hints are right, every window in
the tree is in one of two conditions. Either its node has not put any combination together; then the
window is as it was put into the tree. Or it has, and then the window was filled: it has at most as
many rows as it may, and these are the stretch with the number `chunk` of all rows of the child for
the context that it was last moved to. The cursor is inside the window unless there are no rows at
all. The child is right behind the window; there are more rows if and only if there is one behind it,
and that one is pending.

Scans may refuse to be opened or moved as long as they are not asked to. If none ever refuses, a child
hands out all of these rows when it starts over, and those behind the window when it goes on. -/
theorem windows_framed (reachable : d.Reachable) (made : n.MadeOf Scan.Fresh)
    (incoming : AttributeOrder) (steps : List Step) (truthful : Truthful incoming none steps) :
    let live : Env := { dataset := d }
    let root := (n.init d incoming).2
    .failed ∉ root.replies live steps →
      ∀ m ∈ (root.after live steps).nodes, ∀ w ∈ m.children,
        (m.stats.combinations = 0 → w.Unloaded) ∧
        (m.stats.combinations ≠ 0 →
          let rows := w.node.rows d w.node.context
          let next := (w.chunk + 1) * m.capacity
          (∀ context, m.childContext = some context → w.node.rows d context = rows) ∧
          w.entries.length ≤ m.capacity ∧
          w.entries = (rows.drop (w.chunk * m.capacity)).take m.capacity ∧
          (w.cursor < w.entries.length ∨ w.entries = [] ∧ rows = []) ∧
          w.node.remaining d = rows.drop next ∧
          (n.Built → w.node.reset.2.HandsOut live rows ∧ w.node.HandsOut live (rows.drop next)) ∧
          (w.more = true ↔ next < rows.length) ∧
          ∀ row, rows[next]? = some row →
            ∃ phase node, w.node.state = .ready phase ∧ w.node.take = (.ok row, node)) := by
  intro live root fine m member w child
  obtain ⟨settled, framed⟩ := made.framed_after reachable incoming steps truthful fine m member
  have there : w.willing ∈ m.willing.children := by
    rw [willing_eq]
    exact List.mem_map_of_mem child
  have stats : m.willing.stats = m.stats := by rw [willing_eq]
  have capacity : m.willing.capacity = m.capacity := by rw [willing_eq]
  refine ⟨fun idle => (framed.unloaded (stats ▸ idle) _ there).of_willing, fun begun => ?_⟩
  intro rows next
  have window : w.Framed d m.capacity :=
    (capacity ▸ framed.filled (stats ▸ begun) _ there : w.willing.Framed d m.capacity).of_willing
  refine ⟨fun context same => ?_, window.length_le, window.entries, ?_, window.behind,
    fun built => ?_, ?_, fun row => window.take_eq⟩
  · have remembered : m.willing.childContext = some context := by
      rw [willing_eq]
      exact same
    have known : w.node.willing.rows d context = w.node.willing.rowsHere d :=
      settled.rows_eq_rowsHere remembered there
    rwa [rows_willing, rowsHere_willing] at known
  · refine window.current.imp_right fun none => ⟨?_, none⟩
    have nothing : w.node.rowsHere d = [] := none
    rw [window.entries, nothing, List.drop_nil, List.take_nil]
  · obtain ⟨valid, framed⟩ := built.framed_after reachable incoming steps truthful
    exact window.handsOut reachable ((framed.nodes valid m member).1.children w child)
  · rw [window.more, window.behind]
    simp [rows, next, rowsHere]

/-- The first child has four rows, so that the second window is full and yet the last one. The second
child would refuse to be opened, but only the root is. -/
theorem windows_framed_multiple :
    let d := (Dataset.empty.addAll [⟨.iri "a", .iri "p", .iri "b", none⟩,
      ⟨.iri "b", .iri "q", .integer 1, none⟩, ⟨.iri "b", .iri "q", .integer 2, none⟩,
      ⟨.iri "b", .iri "q", .integer 3, none⟩, ⟨.iri "b", .iri "q", .integer 4, none⟩]).2
    let node (s p o : String) : Node := ofScan (.index
      { pattern := ⟨[.triple (.var ⟨s⟩) (.term (.iri p)) (.var ⟨o⟩)]⟩ }) 2
    let given : FixedScan := { vars := [⟨"z"⟩], rows := [[1]], openRefusal := some "closed" }
    let n := ((node "s" "p" "o").addChild (node "o" "q" "x")).addChild (ofScan (.fixed given) 2)
    let live : Env := { dataset := d }
    let steps : List Step := [.open, .advance, .take, .advance, .take, .advance]
    let root := (n.init d ∅).2.after live steps
    (root.children.map fun w => (w.chunk, w.cursor, w.entries.length, w.more))
        = [(1, 0, 2, false), (0, 0, 1, false)] ∧
      ∀ w ∈ root.children, (w.more = true ↔ (w.chunk + 1) * root.capacity
        < (w.node.rows d w.node.context).length) := by
  intro d node given n live steps root
  have fresh (s p o : String) : (node s p o).MadeOf Scan.Fresh := .ofScan (Scan.fresh_index _) 2
  have given : (ofScan (.fixed given) 2).MadeOf Scan.Fresh := .ofScan ⟨rfl, by decide⟩ 2
  have made : n.MadeOf Scan.Fresh :=
    .addChild (.addChild (fresh "s" "p" "o") (fresh "o" "q" "x")) given
  have fine : .failed ∉ (n.init d ∅).2.replies live steps := by decide +kernel
  have begun : root.stats.combinations ≠ 0 := by decide +kernel
  have shown : (root.children.map fun w => (w.chunk, w.cursor, w.entries.length, w.more))
      = [(1, 0, 2, false), (0, 0, 1, false)] := by decide +kernel
  have here : root ∈ root.nodes := by
    rw [nodes_eq]
    exact List.mem_cons_self
  refine ⟨shown, fun w member => ?_⟩
  obtain ⟨_, filled⟩ :=
    windows_framed (.addAll .empty _ : d.Reachable) made ∅ steps trivial fine root here w member
  exact (filled begun).2.2.2.2.2.2.1

end Node

end QuadQuery
