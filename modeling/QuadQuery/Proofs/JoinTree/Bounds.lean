import QuadQuery.Proofs.JoinTree.Work

/-!
# Nodes do not run out of steps

Every turn of the loop that advances a node lowers the work ahead of it, whatever the scans do and
also when a query is cancelled in between. Main statement: with the budget that is computed from the
tree a node always comes to a row, to its end, or to a failure of a scan (`Node.advance_bounds`).
-/

namespace QuadQuery

namespace Node

variable {d : Dataset} {n n' : Node} {env : Env} {advance : Advance} {budget : Nat}

/-- What can be said of every attempt to advance a node. -/
structure Settled (d : Dataset) (n : Node) (result : Except Failure Bool) (n' : Node) : Prop where
  steps : result ≠ .error .outOfSteps
  bounded : n'.Bounded d
  less : ∀ found, result = .ok found →
    NoMore d n n' ∧ (n'.work d).ahead ≤ (n.work d).ahead
  ready : result = .ok true → ∃ phase, n'.state = .ready phase

/-- A way to advance nodes that need no more than the budget. -/
def Settles (d : Dataset) (budget : Nat) (advance : Advance) : Prop :=
  ∀ n : Node, n.Bounded d → n.budget d ≤ budget → Settled d n (advance n).1 (advance n).2

/-! ## Steps of one node -/

/-- A node with the same children whose scan and state have moved. -/
theorem NoMore.of_children (bounded : n.Bounded d) (own : n'.scan.Bounded d)
    (limit : n'.scan.limit d ≤ n.scan.limit d) (same : n'.children = n.children)
    (ahead : (n'.work d).ahead ≤ max (n.work d).ceiling (n.work d).ahead) : NoMore d n n' := by
  have ceiling : (n'.work d).ceiling ≤ (n.work d).ceiling := by
    simp only [work_eq, workOf, odometer, same]
    exact Nat.add_le_add_right (Nat.mul_le_mul_right _ limit) _
  refine ⟨⟨own, same ▸ bounded.children⟩, ceiling, ?_⟩
  have below : (n'.odometer d).budget = (n.odometer d).budget := by rw [odometer, odometer, same]
  simp only [Node.budget]
  rw [work_eq, work_eq d n] at *
  simp only [workOf] at ceiling ahead ⊢
  omega

theorem take_bounds (bounded : n.Bounded d) {phase : Phase} (ready : n.state = .ready phase) :
    ∃ row n', n.take = (.ok row, n') ∧ NoMore d n n' ∧
      (n'.work d).ahead + 1 = (n.work d).ahead := by
  have taken : n.take = (.ok n.extended, { n with state := .active phase, extended := ∅ }) := by
    rw [take, ready]
  have less : (({ n with state := .active phase, extended := ∅ } : Node).work d).ahead + 1
      = (n.work d).ahead := by
    rw [work_eq, work_eq, ready]
    cases phase <;> rfl
  refine ⟨_, _, taken, .of_children bounded bounded.scan (Nat.le_refl _) rfl ?_, less⟩
  omega

theorem seek_bounds (bounded : n.Bounded d) (here : env.dataset = d) {context : Binding}
    {firstChanged : Nat} {result : Except Failure Bool}
    (moved : n.seek env context firstChanged = (result, n')) :
    result ≠ .error .outOfSteps ∧ n'.Bounded d ∧
      ∀ found, result = .ok found → NoMore d n n' ∧ (n'.work d).ahead ≤ (n.work d).ceiling := by
  subst here
  unfold seek at moved
  split at moved
  · cases moved
    have none : (({ n with state := .exhausted } : Node).work env.dataset).ahead = 0 := by
      rw [work_eq]; rfl
    exact ⟨by simp, ⟨bounded.scan, bounded.children⟩, fun _ _ =>
      ⟨.of_children bounded bounded.scan (Nat.le_refl _) rfl (none.trans_le (Nat.zero_le _)),
        none.trans_le (Nat.zero_le _)⟩⟩
  · split at moved
    · next found scan sought =>
      cases moved
      obtain ⟨own, limit, steps, left⟩ := Scan.seek_bounds bounded.scan sought
      have ahead : (({ n with context, scan, state := stateFor found } : Node).work
          env.dataset).ahead ≤ (n.work env.dataset).ceiling := by
        rw [work_eq, work_eq env.dataset n]
        cases found with
        | false => exact Nat.zero_le _
        | true =>
          have rows := Nat.mul_le_mul_right (2 * (n.odometer env.dataset).combinations + 2) (left rfl)
          simp only [workOf, stateFor, if_true]
          exact (Nat.add_le_add_right rows 1).trans (by omega)
      exact ⟨by simp, ⟨own, bounded.children⟩, fun _ _ =>
        ⟨.of_children bounded own limit rfl (ahead.trans (Nat.le_max_left ..)), ahead⟩⟩
    · next failure scan sought =>
      cases moved
      obtain ⟨own, _, steps, _⟩ := Scan.seek_bounds bounded.scan sought
      refine ⟨fun h => steps ?_, ⟨own, bounded.children⟩, fun _ h => ?_⟩
      · rw [Except.error.inj h]
      · cases h

theorem reset_bounds (bounded : n.Bounded d) :
    NoMore d n n.reset.2 ∧ (n.reset.2.work d).ahead ≤ (n.work d).ceiling := by
  unfold reset
  split
  · have none : (({ n with state := .exhausted } : Node).work d).ahead = 0 := by
      rw [work_eq]; rfl
    exact ⟨.of_children bounded bounded.scan (Nat.le_refl _) rfl (none.trans_le (Nat.zero_le _)),
      none.trans_le (Nat.zero_le _)⟩
  · obtain ⟨own, limit, left⟩ := Scan.reset_bounds bounded.scan
    have ahead : (({ n with scan := n.scan.reset.2, state := stateFor n.scan.reset.1 } : Node).work
        d).ahead ≤ (n.work d).ceiling := by
      rw [work_eq, work_eq d n]
      cases n.scan.reset.1 with
      | false => exact Nat.zero_le _
      | true =>
        have rows := Nat.mul_le_mul_right (2 * (n.odometer d).combinations + 2) left
        simp only [workOf, stateFor, if_true]
        exact (Nat.add_le_add_right rows 1).trans (by omega)
    exact ⟨.of_children bounded own limit.le rfl (ahead.trans (Nat.le_max_left ..)), ahead⟩

end Node

/-! ## Windows -/

namespace Window

variable {d : Dataset} {w w' : Window Node} {ws ws' : List (Window Node)} {env : Env}
  {advance : Advance} {budget capacity : Nat} {context : Binding} {firstChanged : Nat}

theorem NoMore.refl (bounded : w.node.Bounded d) : NoMore d w w :=
  ⟨.refl bounded, Nat.le_refl _⟩

theorem NoMore.trans {w'' : Window Node} (h : NoMore d w w') (h' : NoMore d w' w'') :
    NoMore d w w'' :=
  ⟨h.node.trans h'.node, h'.radix.trans h.radix⟩

/-- Every row that is drawn lowers the work ahead of the child. -/
theorem draw_bounds (settles : Node.Settles d budget advance) (count : Nat) {node node' : Node}
    {result : Except Failure Unit} {rows : List Binding} (bounded : node.Bounded d)
    (fits : node.budget d ≤ budget) (drawn : draw advance count node = (result, rows, node')) :
    result ≠ .error .outOfSteps ∧ node'.Bounded d ∧ (result = .ok () →
      Node.NoMore d node node' ∧ rows.length + (node'.work d).ahead ≤ (node.work d).ahead) := by
  induction count generalizing node node' result rows with
  | zero =>
    cases drawn
    exact ⟨by simp, bounded, fun _ => ⟨.refl bounded, by simp⟩⟩
  | succ count ih =>
    obtain ⟨steps, kept, less, ready⟩ := settles node bounded fits
    unfold draw at drawn
    rcases advanced : advance node with ⟨_ | found, next⟩ <;>
      simp only [advanced] at drawn steps kept less ready
    · cases drawn
      exact ⟨by simpa using steps, kept, by simp⟩
    · obtain ⟨noMore, ahead⟩ := less found rfl
      cases found with
      | false =>
        cases drawn
        exact ⟨by simp, kept, fun _ => ⟨noMore, by simpa using ahead⟩⟩
      | true =>
        obtain ⟨phase, pending⟩ := ready rfl
        obtain ⟨row, taken, take, noMore', one⟩ := Node.take_bounds kept pending
        simp only [take] at drawn
        rcases others : draw advance count taken with ⟨result', rows', last⟩
        simp only [others] at drawn
        cases drawn
        obtain ⟨steps', kept', less'⟩ :=
          ih noMore'.bounded ((noMore'.budget.trans noMore.budget).trans fits) others
        refine ⟨steps', kept', fun ok => ?_⟩
        obtain ⟨noMore'', ahead'⟩ := less' ok
        exact ⟨(noMore.trans noMore').trans noMore'', by simp only [List.length_cons]; omega⟩

/-- A window that was filled shows its first row; what it holds was ahead of the child. -/
theorem fill_bounds (settles : Node.Settles d budget advance) {result : Except Failure Unit}
    (bounded : w.node.Bounded d) (fits : w.node.budget d ≤ budget)
    (filled : w.fill advance capacity = (result, w')) :
    result ≠ .error .outOfSteps ∧ w'.node.Bounded d ∧ (result = .ok () →
      Node.NoMore d w.node w'.node ∧
        w'.entries.length + (w'.node.work d).ahead ≤ (w.node.work d).ahead) := by
  unfold fill at filled
  rcases drawn : draw advance capacity w.node with ⟨_ | _, entries, node⟩ <;>
    (obtain ⟨steps, kept, less⟩ := draw_bounds settles capacity bounded fits drawn
     simp only [drawn] at filled)
  · cases filled
    exact ⟨steps, kept, by simp⟩
  · obtain ⟨noMore, ahead⟩ := less rfl
    split at filled
    · obtain ⟨steps', kept', less', _⟩ := settles node kept (noMore.budget.trans fits)
      rcases advanced : advance node with ⟨_ | more, next⟩ <;>
        simp only [advanced] at filled steps' kept' less' <;> cases filled
      · exact ⟨by simpa using steps', kept', by simp⟩
      · obtain ⟨noMore', ahead'⟩ := less' more rfl
        exact ⟨by simp, kept', fun _ => ⟨noMore.trans noMore', by simp only; omega⟩⟩
    · cases filled
      exact ⟨by simp, kept, fun _ => ⟨noMore, ahead⟩⟩

/-- Filling the window of a child that was just moved does not raise the radix. -/
theorem NoMore.of_filled {moved : Node} (first : Node.NoMore d w.node moved)
    (next : Node.NoMore d moved w'.node) (start : (moved.work d).ahead ≤ (w.node.work d).ceiling)
    (filled : w'.entries.length + (w'.node.work d).ahead ≤ (moved.work d).ahead) :
    NoMore d w w' := by
  refine ⟨first.trans next, ?_⟩
  have ceiling := (first.trans next).ceiling
  simp only [Node.radix]
  omega

theorem load_bounds (settles : Node.Settles d budget advance) (here : env.dataset = d)
    {result : Except Failure Unit} (bounded : w.node.Bounded d) (fits : w.node.budget d ≤ budget)
    (loaded : w.load env advance context firstChanged capacity = (result, w')) :
    result ≠ .error .outOfSteps ∧ w'.node.Bounded d ∧ (result = .ok () → NoMore d w w') := by
  unfold load at loaded
  rcases sought : w.node.seek env context firstChanged with ⟨_ | found, node⟩ <;>
    (obtain ⟨steps, kept, less⟩ := Node.seek_bounds bounded here sought
     simp only [sought] at loaded)
  · cases loaded
    exact ⟨by simpa using steps, kept, by simp⟩
  · obtain ⟨noMore, ahead⟩ := less found rfl
    cases found with
    | false =>
      cases loaded
      exact ⟨by simp, kept, fun _ => .of_filled noMore (.refl kept) ahead (by simp)⟩
    | true =>
      obtain ⟨steps', kept', less'⟩ :=
        fill_bounds settles (w := { w with chunk := 0, node }) kept (noMore.budget.trans fits) loaded
      refine ⟨steps', kept', fun ok => ?_⟩
      obtain ⟨noMore', filled⟩ := less' ok
      exact .of_filled noMore noMore' ahead filled

theorem rewind_bounds (settles : Node.Settles d budget advance) {result : Except Failure Unit}
    (bounded : w.node.Bounded d) (fits : w.node.budget d ≤ budget)
    (rewound : w.rewind advance capacity = (result, w')) :
    result ≠ .error .outOfSteps ∧ w'.node.Bounded d ∧ (result = .ok () → NoMore d w w') := by
  unfold rewind at rewound
  split at rewound
  · cases rewound
    exact ⟨by simp, bounded, fun _ => ⟨.refl bounded, Nat.le_refl _⟩⟩
  · obtain ⟨noMore, ahead⟩ := Node.reset_bounds bounded
    obtain ⟨steps, kept, less⟩ := fill_bounds settles (w := { w with node := w.node.reset.2, chunk := 0 })
      noMore.bounded (noMore.budget.trans fits) rewound
    refine ⟨steps, kept, fun ok => ?_⟩
    obtain ⟨noMore', filled⟩ := less ok
    exact .of_filled noMore noMore' ahead filled

/-- New rows in a window lower its digit. -/
theorem refill_bounds (settles : Node.Settles d budget advance) {result : Except Failure Bool}
    (bounded : w.node.Bounded d) (fits : w.node.budget d ≤ budget)
    (refilled : w.refill advance capacity = (result, w')) :
    result ≠ .error .outOfSteps ∧ w'.node.Bounded d ∧
      (∀ found, result = .ok found → NoMore d w w') ∧
      (result = .ok true → Node.digit d w' < Node.digit d w) := by
  unfold refill at refilled
  split at refilled
  · cases refilled
    exact ⟨by simp, bounded, fun _ _ => .refl bounded, by simp⟩
  · rcases filled : w.fill advance capacity with ⟨_ | _, next⟩ <;>
      (obtain ⟨steps, kept, less⟩ := fill_bounds settles bounded fits filled
       simp only [filled] at refilled; cases refilled)
    · exact ⟨by simpa using steps, kept, by simp, by simp⟩
    · obtain ⟨noMore, ahead⟩ := less rfl
      refine ⟨by simp, kept, fun _ _ => ⟨noMore, ?_⟩, fun some => ?_⟩
      · have ceiling := noMore.ceiling
        simp only [Node.radix]
        omega
      · have rows : next.entries.length ≠ 0 := by simpa [isEmpty] using some
        simp only [Node.digit]
        omega

/-! ## All windows -/

theorem NoMore.bounded_of_forall₂ (h : ws.Forall₂ (NoMore d) ws') :
    ∀ w ∈ ws', w.node.Bounded d := by
  induction h with
  | nil => simp
  | cons first _ ih => exact List.forall_mem_cons.2 ⟨first.node.bounded, ih⟩

theorem NoMore.fits_of_forall₂ (h : ws.Forall₂ (NoMore d) ws')
    (fits : ∀ w ∈ ws, w.node.budget d ≤ budget) : ∀ w ∈ ws', w.node.budget d ≤ budget := by
  induction h with
  | nil => simp
  | cons first _ ih =>
    obtain ⟨fitsFirst, fitsRest⟩ := List.forall_mem_cons.1 fits
    exact List.forall_mem_cons.2 ⟨first.node.budget.trans fitsFirst, ih fitsRest⟩

theorem NoMore.refl_all (bounded : ∀ w ∈ ws, w.node.Bounded d) : ws.Forall₂ (NoMore d) ws :=
  List.forall₂_same.2 fun w member => .refl (bounded w member)

theorem loadAll_bounds (settles : Node.Settles d budget advance) (here : env.dataset = d)
    {result : Except Failure Unit} (bounded : ∀ w ∈ ws, w.node.Bounded d)
    (fits : ∀ w ∈ ws, w.node.budget d ≤ budget)
    (loaded : loadAll env advance context firstChanged capacity ws = (result, ws')) :
    result ≠ .error .outOfSteps ∧ (∀ w ∈ ws', w.node.Bounded d) ∧
      (result = .ok () → ws.Forall₂ (NoMore d) ws') := by
  induction ws generalizing result ws' with
  | nil =>
    cases loaded
    exact ⟨by simp, by simp, fun _ => .nil⟩
  | cons w rest ih =>
    obtain ⟨first, others⟩ := List.forall_mem_cons.1 bounded
    obtain ⟨fits, fitRest⟩ := List.forall_mem_cons.1 fits
    unfold loadAll at loaded
    rcases one : w.load env advance context firstChanged capacity with ⟨_ | _, next⟩ <;>
      (obtain ⟨steps, kept, less⟩ := load_bounds settles here first fits one
       simp only [one] at loaded)
    · cases loaded
      exact ⟨steps, List.forall_mem_cons.2 ⟨kept, others⟩, by simp⟩
    · rcases all : loadAll env advance context firstChanged capacity rest with ⟨result', rest'⟩
      simp only [all] at loaded
      cases loaded
      obtain ⟨steps', kept', less'⟩ := ih others fitRest all
      exact ⟨steps', List.forall_mem_cons.2 ⟨kept, kept'⟩, fun ok => .cons (less rfl) (less' ok)⟩

theorem rewindAll_bounds (settles : Node.Settles d budget advance)
    {result : Except Failure Unit} (bounded : ∀ w ∈ ws, w.node.Bounded d)
    (fits : ∀ w ∈ ws, w.node.budget d ≤ budget)
    (rewound : rewindAll advance capacity ws = (result, ws')) :
    result ≠ .error .outOfSteps ∧ (∀ w ∈ ws', w.node.Bounded d) ∧
      (result = .ok () → ws.Forall₂ (NoMore d) ws') := by
  induction ws generalizing result ws' with
  | nil =>
    cases rewound
    exact ⟨by simp, by simp, fun _ => .nil⟩
  | cons w rest ih =>
    obtain ⟨first, others⟩ := List.forall_mem_cons.1 bounded
    obtain ⟨fits, fitRest⟩ := List.forall_mem_cons.1 fits
    rcases all : rewindAll advance capacity rest with ⟨result', rest'⟩
    obtain ⟨steps', kept', less'⟩ := ih others fitRest all
    unfold rewindAll at rewound
    split at rewound
    · simp only [all] at rewound
      cases rewound
      exact ⟨steps', List.forall_mem_cons.2 ⟨first, kept'⟩,
        fun ok => .cons (.refl first) (less' ok)⟩
    · rcases one : w.rewind advance capacity with ⟨_ | _, next⟩ <;>
        (obtain ⟨steps, kept, less⟩ := rewind_bounds settles first fits one
         simp only [one, all] at rewound; cases rewound)
      · exact ⟨steps, List.forall_mem_cons.2 ⟨kept, others⟩, by simp⟩
      · exact ⟨steps', List.forall_mem_cons.2 ⟨kept, kept'⟩, fun ok => .cons (less rfl) (less' ok)⟩

theorem NoMore.trans_all {ws'' : List (Window Node)} (h : ws.Forall₂ (NoMore d) ws')
    (h' : ws'.Forall₂ (NoMore d) ws'') : ws.Forall₂ (NoMore d) ws'' := by
  induction h generalizing ws'' with
  | nil => exact h'
  | cons first _ ih =>
    obtain ⟨_, _, next, others, rfl⟩ := List.forall₂_cons_left_iff.1 h'
    exact .cons (first.trans next) (ih others)

/-- What can be said of every turn of an odometer. -/
structure Turned (d : Dataset) (ws : List (Window Node)) (turn : Turn) : Prop where
  steps : turn.moved ≠ .error .outOfSteps
  bounded : ∀ w ∈ turn.lower ++ turn.upper, w.node.Bounded d
  less : ∀ found, turn.moved = .ok found → ws.Forall₂ (NoMore d) (turn.lower ++ turn.upper)
  /-- If a window moved on, its digit is lower than before. -/
  moved : turn.moved = .ok true → ∃ lower w rest w', ws = lower ++ w :: rest ∧
    turn.upper = w' :: rest ∧ lower.Forall₂ (NoMore d) turn.lower ∧
    NoMore d w w' ∧ Node.digit d w' < Node.digit d w

theorem Turned.behind {turn : Turn} (first : w'.node.Bounded d) (less : NoMore d w w')
    (turned : Turned d ws turn) : Turned d (w :: ws) { turn with lower := w' :: turn.lower } where
  steps := turned.steps
  bounded := List.forall_mem_cons.2 ⟨first, turned.bounded⟩
  less found ok := .cons less (turned.less found ok)
  moved ok := by
    obtain ⟨lower, v, rest, v', split, upper, lowers, radixes, digits⟩ := turned.moved ok
    exact ⟨w :: lower, v, rest, v', by rw [split]; rfl, upper, .cons less lowers, radixes, digits⟩

/-- The first window has moved on. -/
theorem Turned.here {refilled : Bool} (others : ∀ w ∈ ws, w.node.Bounded d) (less : NoMore d w w')
    (digits : Node.digit d w' < Node.digit d w) :
    Turned d (w :: ws) ⟨.ok true, refilled, [], w' :: ws⟩ where
  steps := by simp
  bounded := List.forall_mem_cons.2 ⟨less.node.bounded, others⟩
  less _ _ := .cons less (NoMore.refl_all others)
  moved _ := ⟨[], w, ws, w', rfl, rfl, .nil, less, digits⟩

theorem moveFirst_bounds (settles : Node.Settles d budget advance)
    (bounded : ∀ w ∈ ws, w.node.Bounded d) (fits : ∀ w ∈ ws, w.node.budget d ≤ budget) :
    Turned d ws (moveFirst advance capacity ws) := by
  induction ws with
  | nil => exact ⟨by simp [moveFirst], by simp [moveFirst], fun _ _ => .nil, by simp [moveFirst]⟩
  | cons w rest ih =>
    obtain ⟨first, others⟩ := List.forall_mem_cons.1 bounded
    obtain ⟨fits, fitRest⟩ := List.forall_mem_cons.1 fits
    have turned := ih others fitRest
    unfold moveFirst
    dsimp only
    split
    · exact turned.behind first (.refl first)
    · split
      · next w' stepped =>
        unfold step? at stepped
        split at stepped
        · next further =>
          cases stepped
          refine .here others ⟨.refl first, Nat.le_refl _⟩ ?_
          simp only [Node.digit]
          omega
        · cases stepped
      · rcases refilled : w.refill advance capacity with ⟨failure | _ | _, w'⟩ <;>
          obtain ⟨steps, kept, less, digits⟩ := refill_bounds settles first fits refilled
        · exact ⟨by simpa using steps, List.forall_mem_cons.2 ⟨kept, others⟩, by simp, by simp⟩
        · exact turned.behind kept (less false rfl)
        · exact .here others (less true rfl) (digits rfl)

end Window

/-! ## The loop -/

namespace Node

variable {d : Dataset} {n n' : Node} {env : Env} {advance : Advance} {budget : Nat}

theorem nextCombination_bounds (settles : Settles d budget advance) {result : Except Failure Bool}
    (bounded : n.Bounded d) (fits : ∀ w ∈ n.children, w.node.budget d ≤ budget)
    (turned : n.nextCombination advance = (result, n')) :
    result ≠ .error .outOfSteps ∧ n'.Bounded d ∧ n'.scan = n.scan ∧ n'.state = n.state ∧
      (∀ found, result = .ok found → n.children.Forall₂ (Window.NoMore d) n'.children) ∧
      (result = .ok true → (n'.odometer d).turns < (n.odometer d).turns) := by
  have turn : Window.Turned d n.children (Window.moveFirst advance n.capacity n.children) :=
    Window.moveFirst_bounds settles bounded.children fits
  unfold nextCombination at turned
  rcases moved : (Window.moveFirst advance n.capacity n.children).moved with failure | _ | _ <;>
    simp only [moved] at turned
  · cases turned
    exact ⟨by simpa [moved] using turn.steps, ⟨bounded.scan, turn.bounded⟩, rfl, rfl, by simp,
      by simp⟩
  · cases turned
    exact ⟨by simp, ⟨bounded.scan, turn.bounded⟩, rfl, rfl, fun _ _ => turn.less false moved,
      by simp⟩
  · obtain ⟨lower, w, rest, w', split, upper, lowers, radixes, digits⟩ := turn.moved moved
    have whole := turn.bounded
    rw [upper] at whole
    obtain ⟨lowerBounded, upperBounded⟩ := List.forall_mem_append.1 whole
    have lowerFits := Window.NoMore.fits_of_forall₂ lowers fun v member =>
      fits v (split ▸ List.mem_append_left _ member)
    rcases rewound : Window.rewindAll advance n.capacity
        (Window.moveFirst advance n.capacity n.children).lower with ⟨_ | _, lower'⟩ <;>
      (obtain ⟨steps, kept, less⟩ := Window.rewindAll_bounds settles lowerBounded lowerFits rewound
       simp only [rewound, upper] at turned; cases turned)
    · exact ⟨by simpa using steps, ⟨bounded.scan, List.forall_mem_append.2 ⟨kept, upperBounded⟩⟩,
        rfl, rfl, by simp, by simp⟩
    · have lowers' := Window.NoMore.trans_all lowers (less rfl)
      have rest : rest.Forall₂ (Window.NoMore d) rest :=
        Window.NoMore.refl_all (List.forall_mem_cons.1 upperBounded).2
      refine ⟨by simp, ⟨bounded.scan, List.forall_mem_append.2 ⟨kept, upperBounded⟩⟩, rfl, rfl,
        fun _ _ => ?_, fun _ => ?_⟩
      · rw [split]
        exact List.rel_append lowers' (.cons radixes rest)
      · rw [odometer, odometer, split]
        exact turns_lt lowers' radixes.radix digits

/-- One turn of the loop: what is ahead afterwards is less than before. -/
structure Ticked (d : Dataset) (n : Node) (result : Except Failure Unit) (n' : Node) : Prop where
  steps : result ≠ .error .outOfSteps
  bounded : n'.Bounded d
  less : result = .ok () → NoMore d n n' ∧ (n'.odometer d).budget ≤ (n.odometer d).budget ∧
    (n'.work d).ahead < (n.work d).ahead

/-- A turn that leaves the node with less ahead and its scan and children with no more. -/
theorem Ticked.of_less (own : n'.scan.Bounded d) (limit : n'.scan.limit d ≤ n.scan.limit d)
    (children : n.children.Forall₂ (Window.NoMore d) n'.children)
    (ahead : (n'.work d).ahead < (n.work d).ahead) : Ticked d n (.ok ()) n' := by
  have bounded : n'.Bounded d := ⟨own, Window.NoMore.bounded_of_forall₂ children⟩
  have combinations := combinations_mono children
  have below := odometer_budget_mono children
  have ceiling : (n'.work d).ceiling ≤ (n.work d).ceiling := by
    simp only [work_eq, workOf, odometer]
    exact Nat.add_le_add_right (Nat.mul_le_mul limit (by omega)) 2
  refine ⟨by simp, bounded, fun _ => ⟨⟨bounded, ceiling, ?_⟩, below, ahead⟩⟩
  simp only [Node.budget]
  rw [work_eq, work_eq d n] at *
  simp only [workOf, odometer] at ceiling ahead ⊢
  omega

theorem rows_mono (children : n.children.Forall₂ (Window.NoMore d) n'.children) (rows : Nat) :
    rows * (2 * (n'.odometer d).combinations + 2) ≤ rows * (2 * (n.odometer d).combinations + 2) := by
  have combinations : (n'.odometer d).combinations ≤ (n.odometer d).combinations :=
    combinations_mono children
  exact Nat.mul_le_mul_left rows (by omega)

/-- The work of an own row covers all combinations that it can have. -/
theorem ahead_lt_of_drawn (left : n'.scan.left + 1 = n.scan.left) (find : n.state = .active .find)
    (children : n.children.Forall₂ (Window.NoMore d) n'.children)
    (active : n'.state ≠ .exhausted) : (n'.work d).ahead < (n.work d).ahead := by
  have rows := rows_mono children n'.scan.left
  have turns := turns_lt_combinations d n'.children
  have combinations := combinations_mono children
  have one := Nat.succ_mul n'.scan.left (2 * (n.odometer d).combinations + 2)
  rw [work_eq, work_eq d n, find]
  simp only [workOf, ← left]
  rw [Nat.add_one, one]
  simp only [odometer] at rows ⊢
  rcases state : n'.state with (_ | _) | (_ | _) | _
  case exhausted => exact absurd state active
  all_goals simp only; omega

/-- Checking filters counts the check and changes nothing else. -/
theorem checkPre_eq (d : Dataset) (own : Binding) (n : Node) : ∃ stats,
    n.checkPre d own
      = (n.preFilters.all fun e => e.isSatisfied (view d own ∅), { n with stats }) := by
  unfold checkPre
  split
  · next none =>
    exact ⟨n.stats, Prod.ext (by simp [List.isEmpty_iff.1 none]) (by cases n; rfl)⟩
  · exact ⟨_, rfl⟩

theorem checkPost_eq (d : Dataset) (n : Node) : ∃ stats,
    n.checkPost d
      = (n.postFilters.all fun e => e.isSatisfied (view d n.extended n.context),
        { n with stats }) := by
  unfold checkPost
  split
  · next none =>
    exact ⟨n.stats, Prod.ext (by simp [List.isEmpty_iff.1 none]) (by cases n; rfl)⟩
  · exact ⟨_, rfl⟩

theorem find_bounds (settles : Settles d budget advance) (here : env.dataset = d)
    {result : Except Failure Unit} (bounded : n.Bounded d)
    (fits : ∀ w ∈ n.children, w.node.budget d ≤ budget) (active : n.state = .active .find)
    (found : n.find env advance = (result, n')) : Ticked d n result n' := by
  have others := Window.NoMore.refl_all bounded.children
  unfold find at found
  split at found
  · cases found
    exact .of_less bounded.scan (Nat.le_refl _) others (by
      rw [work_eq, work_eq d n, active]; exact Nat.succ_pos _)
  · next ids scan drawn =>
    obtain ⟨own, limit, left⟩ := Scan.next?_bounds bounded.scan drawn
    obtain ⟨stats, checked⟩ := checkPre_eq env.dataset (.ofRow n.attributes ids)
      { n with scan, stats.ownRows := n.stats.ownRows + 1 }
    simp only [checked] at found
    split at found
    · next missed =>
      obtain ⟨_, rfl⟩ := Prod.mk.inj missed
      cases found
      exact .of_less own limit.le others (ahead_lt_of_drawn left active others (by simp [active]))
    · next passed =>
      obtain ⟨_, rfl⟩ := Prod.mk.inj passed
      simp only at found
      split at found
      · next failure children loaded =>
        obtain ⟨steps, kept, _⟩ := Window.loadAll_bounds settles here bounded.children fits loaded
        cases found
        exact ⟨by simpa using steps, ⟨own, kept⟩, by simp⟩
      · next children loaded =>
        obtain ⟨_, _, less⟩ := Window.loadAll_bounds settles here bounded.children fits loaded
        generalize combined : combine _ = joined at found
        obtain ⟨stats, checked⟩ := checkPost_eq env.dataset joined
        rw [checked] at found
        subst combined
        split at found
        · next judged =>
          obtain ⟨_, rfl⟩ := Prod.mk.inj judged
          cases found
          exact .of_less own limit.le (less rfl)
            (ahead_lt_of_drawn left active (less rfl) nofun)
        · next judged =>
          obtain ⟨_, rfl⟩ := Prod.mk.inj judged
          cases found
          exact .of_less own limit.le (less rfl)
            (ahead_lt_of_drawn left active (less rfl) nofun)

theorem extend_bounds (settles : Settles d budget advance) {result : Except Failure Unit}
    (bounded : n.Bounded d) (fits : ∀ w ∈ n.children, w.node.budget d ≤ budget)
    (active : n.state = .active .extend) (extended : n.extend env advance = (result, n')) :
    Ticked d n result n' := by
  unfold extend at extended
  rcases turned : n.nextCombination advance with ⟨failure | _ | _, next⟩ <;>
    (obtain ⟨steps, kept, scan, state, less, turns⟩ := nextCombination_bounds settles bounded fits turned
     simp only [turned] at extended)
  · cases extended
    exact ⟨by simpa using steps, kept, by simp⟩
  · cases extended
    refine .of_less kept.scan (by rw [scan]) (less false rfl) ?_
    have rows := rows_mono (less false rfl) n.scan.left
    rw [work_eq, work_eq d n, active]
    simp only [workOf, scan, odometer] at rows ⊢
    omega
  · have fewer := turns rfl
    have rows := rows_mono (less true rfl) n.scan.left
    obtain ⟨stats, checked⟩ := checkPost_eq env.dataset next.combine
    rw [checked] at extended
    split at extended
    · next judged =>
      obtain ⟨_, rfl⟩ := Prod.mk.inj judged
      cases extended
      refine .of_less kept.scan (by simp [combine, scan]) (less true rfl) ?_
      rw [work_eq, work_eq d n, active]
      simp only [workOf, combine, scan, odometer] at rows fewer ⊢
      omega
    · next judged =>
      obtain ⟨_, rfl⟩ := Prod.mk.inj judged
      cases extended
      refine .of_less kept.scan (by simp [combine, scan]) (less true rfl) ?_
      rw [work_eq, work_eq d n, active]
      simp only [workOf, combine, scan, state, active, odometer] at rows fewer ⊢
      omega

/-- A budget for the turns ahead, and for all children in each of them, is enough. -/
theorem advanceWithin_bounds (here : env.dataset = d) (budget : Nat) (bounded : n.Bounded d)
    (enough : (n.work d).ahead + (n.odometer d).budget + 1 ≤ budget) :
    Settled d n (n.advanceWithin env budget).1 (n.advanceWithin env budget).2 := by
  induction budget generalizing n with
  | zero => omega
  | succ budget ih =>
    -- The same budget serves the children, since it exceeds what they need together.
    have settles : Settles d budget (advanceWithin env budget) := fun child bounded fits =>
      ih bounded (by
        rw [Node.budget, work_eq] at fits
        rw [work_eq]
        simp only [workOf] at fits ⊢
        omega)
    have stays : ∀ found, (found = true → ∃ phase, n.state = .ready phase) →
        Settled d n (.ok found) n := fun found ready =>
      ⟨by simp, bounded, fun _ _ => ⟨.refl bounded, Nat.le_refl _⟩,
        fun ok => ready (by simpa using ok)⟩
    unfold advanceWithin
    split
    · exact stays false (by simp)
    · next phase ready => exact stays true fun _ => ⟨phase, ready⟩
    · next phase active =>
      have fits : ∀ w ∈ n.children, w.node.budget d ≤ budget := fun w member =>
        (budget_le_odometer member).trans (by simp only [odometer] at enough; omega)
      dsimp only
      split
      · next failure n' same =>
        have ticked : Ticked d n (.error failure) n' := by
          cases phase with
          | find => exact find_bounds settles here bounded fits active same
          | extend => exact extend_bounds settles bounded fits active same
        obtain ⟨steps, kept, _⟩ := ticked
        exact ⟨by simpa using steps, kept, by simp, by simp⟩
      · next n' same =>
        have ticked : Ticked d n (.ok ()) n' := by
          cases phase with
          | find => exact find_bounds settles here bounded fits active same
          | extend => exact extend_bounds settles bounded fits active same
        obtain ⟨_, kept, less⟩ := ticked
        obtain ⟨noMore, below, ahead⟩ := less rfl
        obtain ⟨steps, kept', less', ready⟩ := ih kept (by omega)
        exact ⟨steps, kept', fun found ok =>
          ⟨noMore.trans (less' found ok).1, (less' found ok).2.trans ahead.le⟩, ready⟩

/-- Advancing a node comes to a row, to the end, or to a failure of a scan. -/
theorem advance_bounds (bounded : n.Bounded env.dataset) :
    Settled env.dataset n (n.advance env).1 (n.advance env).2 :=
  advanceWithin_bounds rfl _ bounded (by
    rw [Node.budget, work_eq]
    simp only [workOf]
    omega)

end Node

end QuadQuery
