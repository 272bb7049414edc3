import QuadQuery.Proofs.JoinTree.History

/-!
# The shape of a join tree

Whatever is done to the root of a join tree, every node keeps its kind of scan and its number of
children. So a property of both that holds throughout a tree goes on to hold, also when the tree is
settled (`Node.Throughout.init`) and when its steps fail (`Node.Throughout.perform`).
-/

namespace QuadQuery

namespace Node

/-- The property holds of the kind of the scan and the number of children of every node. -/
inductive Throughout (Q : Bool → Nat → Prop) : Node → Prop
  | intro {n : Node} (own : Q n.scan.needsPlace n.children.length)
      (others : ∀ w ∈ n.children, Throughout Q w.node) : Throughout Q n

variable {Q : Bool → Nat → Prop} {d : Dataset} {n n' : Node} {env : Env} {advance : Advance}
  {context : Binding} {firstChanged : Nat}

theorem Throughout.own (h : n.Throughout Q) : Q n.scan.needsPlace n.children.length := by
  cases h; assumption

theorem Throughout.children (h : n.Throughout Q) : ∀ w ∈ n.children, w.node.Throughout Q := by
  cases h; assumption

/-- Nothing but the kind of the scan and the children matters. -/
theorem Throughout.of_children (h : n.Throughout Q)
    (scan : n'.scan.needsPlace = n.scan.needsPlace) (same : n'.children = n.children) :
    n'.Throughout Q :=
  .intro (scan ▸ same ▸ h.own) (same ▸ h.children)

/-- The windows hold on to a shape that they can be given. -/
def AllThroughout (Q : Bool → Nat → Prop) (count : Nat) (ws : List (Window Node)) : Prop :=
  ws.length = count ∧ ∀ w ∈ ws, w.node.Throughout Q

theorem Throughout.of_all (h : n.Throughout Q) (scan : n'.scan.needsPlace = n.scan.needsPlace)
    (all : AllThroughout Q n.children.length n'.children) : n'.Throughout Q :=
  .intro (by rw [scan, all.1]; exact h.own) all.2

theorem AllThroughout.cons {w : Window Node} {ws : List (Window Node)} {count : Nat}
    (first : w.node.Throughout Q) (others : AllThroughout Q count ws) :
    AllThroughout Q (count + 1) (w :: ws) :=
  ⟨congrArg (· + 1) others.1, List.forall_mem_cons.2 ⟨first, others.2⟩⟩

/-- A way to advance nodes that keeps the shape of trees. -/
def KeepsShape (Q : Bool → Nat → Prop) (advance : Advance) : Prop :=
  ∀ n : Node, n.Throughout Q → (advance n).2.Throughout Q

/-! ## Steps of one node -/

theorem Throughout.take (h : n.Throughout Q) : n.take.2.Throughout Q := by
  unfold Node.take
  split <;> exact h.of_children rfl rfl

theorem Throughout.open (h : n.Throughout Q) (env : Env) : (n.open env).2.Throughout Q := by
  have kind : (n.scan.open env.dataset).2.needsPlace = n.scan.needsPlace := by
    cases n.scan with
    | index s => simp only [Scan.open]; split <;> rfl
    | fixed s => rfl
  unfold Node.open
  dsimp only
  split
  · exact h.of_children rfl rfl
  · split <;> (next same => rw [same] at kind; exact h.of_children kind rfl)

theorem Throughout.seek (h : n.Throughout Q) (env : Env) (context : Binding) (firstChanged : Nat) :
    (n.seek env context firstChanged).2.Throughout Q := by
  have kind : (n.scan.seek env.dataset context firstChanged).2.needsPlace = n.scan.needsPlace := by
    cases n.scan with
    | index s => simp only [Scan.seek]; split <;> rfl
    | fixed s => rfl
  unfold Node.seek
  split
  · exact h.of_children rfl rfl
  · split <;> (next same => rw [same] at kind; exact h.of_children kind rfl)

theorem Throughout.reset (h : n.Throughout Q) : n.reset.2.Throughout Q := by
  have kind : n.scan.reset.2.needsPlace = n.scan.needsPlace := by cases n.scan <;> rfl
  unfold Node.reset
  split
  · exact h.of_children rfl rfl
  · exact h.of_children kind rfl

end Node

/-! ## Windows -/

namespace Window

open Node (Throughout AllThroughout KeepsShape)

variable {Q : Bool → Nat → Prop} {w : Window Node} {ws : List (Window Node)} {env : Env}
  {advance : Advance} {capacity count : Nat} {context : Binding} {firstChanged : Nat}

theorem draw_throughout (keeps : KeepsShape Q advance) (count : Nat) {node : Node}
    (h : node.Throughout Q) : (draw advance count node).2.2.Throughout Q := by
  induction count generalizing node with
  | zero => exact h
  | succ count ih =>
    have advanced := keeps node h
    unfold draw
    split
    · next same => rw [same] at advanced; exact advanced
    · next same => rw [same] at advanced; exact advanced
    · next same =>
      rw [same] at advanced
      have taken := advanced.take
      split
      · next same' => rw [same'] at taken; exact taken
      · next same' => rw [same'] at taken; exact ih taken

theorem fill_throughout (keeps : KeepsShape Q advance) (capacity : Nat)
    (h : w.node.Throughout Q) :
    (w.fill advance capacity).2.node.Throughout Q := by
  have drawn := draw_throughout keeps capacity h
  unfold fill
  split
  · next same => rw [same] at drawn; exact drawn
  · next same =>
    rw [same] at drawn
    have advanced := keeps _ drawn
    dsimp only
    split
    · split <;> (next same' => rw [same'] at advanced; exact advanced)
    · exact drawn

theorem load_throughout (keeps : KeepsShape Q advance) (env : Env) (context : Binding)
    (firstChanged capacity : Nat) (h : w.node.Throughout Q) :
    (w.load env advance context firstChanged capacity).2.node.Throughout Q := by
  have sought := h.seek env context firstChanged
  unfold load
  dsimp only
  split
  · next same => rw [same] at sought; exact sought
  · next same => rw [same] at sought; exact fill_throughout keeps capacity sought
  · next same => rw [same] at sought; exact sought

theorem refill_throughout (keeps : KeepsShape Q advance) (capacity : Nat)
    (h : w.node.Throughout Q) :
    (w.refill advance capacity).2.node.Throughout Q := by
  have filled := fill_throughout keeps capacity h
  unfold refill
  split
  · exact h
  · split <;> (next same => rw [same] at filled; exact filled)

theorem rewind_throughout (keeps : KeepsShape Q advance) (capacity : Nat)
    (h : w.node.Throughout Q) :
    (w.rewind advance capacity).2.node.Throughout Q := by
  unfold rewind
  split
  · exact h
  · exact fill_throughout keeps capacity h.reset

theorem loadAll_throughout (keeps : KeepsShape Q advance) (env : Env) (context : Binding)
    (firstChanged capacity : Nat) (h : AllThroughout Q count ws) :
    AllThroughout Q count (loadAll env advance context firstChanged capacity ws).2 := by
  obtain ⟨rfl, all⟩ := h
  induction ws with
  | nil => exact ⟨rfl, all⟩
  | cons w rest ih =>
    obtain ⟨first, others⟩ := List.forall_mem_cons.1 all
    have loaded := load_throughout keeps env context firstChanged capacity first
    unfold loadAll
    split
    · next same => rw [same] at loaded; exact .cons loaded ⟨rfl, others⟩
    · next same => rw [same] at loaded; exact .cons loaded (ih others)

theorem rewindAll_throughout (keeps : KeepsShape Q advance) (capacity : Nat)
    (h : AllThroughout Q count ws) :
    AllThroughout Q count (rewindAll advance capacity ws).2 := by
  obtain ⟨rfl, all⟩ := h
  induction ws with
  | nil => exact ⟨rfl, all⟩
  | cons w rest ih =>
    obtain ⟨first, others⟩ := List.forall_mem_cons.1 all
    have rewound := rewind_throughout keeps capacity first
    unfold rewindAll
    split
    · exact .cons first (ih others)
    · split
      · next same => rw [same] at rewound; exact .cons rewound ⟨rfl, others⟩
      · next same => rw [same] at rewound; exact .cons rewound (ih others)

theorem moveFirst_throughout (keeps : KeepsShape Q advance) (capacity : Nat)
    (h : AllThroughout Q count ws) :
    AllThroughout Q count
      ((moveFirst advance capacity ws).lower ++ (moveFirst advance capacity ws).upper) := by
  obtain ⟨rfl, all⟩ := h
  induction ws with
  | nil => exact ⟨rfl, all⟩
  | cons w rest ih =>
    obtain ⟨first, others⟩ := List.forall_mem_cons.1 all
    have refilled := refill_throughout keeps capacity first
    unfold moveFirst
    dsimp only
    split
    · exact .cons first (ih others)
    · split
      · next stepped =>
        obtain ⟨_, rfl⟩ := step?_eq_some stepped
        exact .cons first ⟨rfl, others⟩
      · split
        · next same => rw [same] at refilled; exact .cons refilled ⟨rfl, others⟩
        · next same => rw [same] at refilled; exact .cons refilled ⟨rfl, others⟩
        · next same => rw [same] at refilled; exact .cons refilled (ih others)

end Window

/-! ## The loop -/

namespace Node

variable {Q : Bool → Nat → Prop} {d : Dataset} {n : Node} {env : Env} {advance : Advance}

theorem Throughout.nextCombination (h : n.Throughout Q) (keeps : KeepsShape Q advance) :
    (n.nextCombination advance).2.Throughout Q := by
  have moved := Window.moveFirst_throughout keeps n.capacity ⟨rfl, h.children⟩
  unfold Node.nextCombination
  dsimp only
  split
  · exact h.of_all rfl moved
  · exact h.of_all rfl moved
  · obtain ⟨length, all⟩ := moved
    obtain ⟨lower, upper⟩ := List.forall_mem_append.1 all
    have rewound := Window.rewindAll_throughout keeps n.capacity ⟨rfl, lower⟩
    split <;>
    · next same =>
      rw [same] at rewound
      refine h.of_all rfl ⟨?_, List.forall_mem_append.2 ⟨rewound.2, upper⟩⟩
      rw [List.length_append, rewound.1, ← List.length_append, length]

theorem Throughout.find (h : n.Throughout Q) (keeps : KeepsShape Q advance) (env : Env) :
    (n.find env advance).2.Throughout Q := by
  unfold Node.find
  split
  · exact h.of_children rfl rfl
  · next ids scan drawn =>
    have kind : scan.needsPlace = n.scan.needsPlace := by
      cases same : n.scan <;>
      · rw [same] at drawn
        simp only [Scan.next?, Option.map_eq_some_iff] at drawn
        obtain ⟨_, _, pair⟩ := drawn
        cases pair
        rfl
    obtain ⟨stats, checked⟩ := checkPre_eq env.dataset (.ofRow n.attributes ids)
      { n with scan, stats.ownRows := n.stats.ownRows + 1 }
    simp only [checked]
    split
    · next missed =>
      obtain ⟨_, rfl⟩ := Prod.mk.inj missed
      exact h.of_children kind rfl
    · next passed =>
      obtain ⟨_, rfl⟩ := Prod.mk.inj passed
      have loaded (context : Binding) (firstChanged : Nat) :=
        Window.loadAll_throughout keeps env context firstChanged n.capacity ⟨rfl, h.children⟩
      specialize loaded ((Binding.ofRow n.attributes ids).extendAbsent n.context)
        (scan.order.firstChanged n.childContext
          ((Binding.ofRow n.attributes ids).extendAbsent n.context))
      simp only
      split
      · next same =>
        rw [same] at loaded
        exact h.of_all kind loaded
      · next same =>
        rw [same] at loaded
        generalize joined : combine _ = m
        obtain ⟨stats, checked⟩ := checkPost_eq env.dataset m
        rw [checked]
        subst joined
        split <;>
        · next judged =>
          obtain ⟨_, rfl⟩ := Prod.mk.inj judged
          exact h.of_all kind loaded

theorem Throughout.extend (h : n.Throughout Q) (keeps : KeepsShape Q advance) (env : Env) :
    (n.extend env advance).2.Throughout Q := by
  have turned := h.nextCombination keeps
  unfold Node.extend
  split
  · next same => rw [same] at turned; exact turned
  · next same => rw [same] at turned; exact turned.of_children rfl rfl
  · next m same =>
    rw [same] at turned
    obtain ⟨stats, checked⟩ := checkPost_eq env.dataset m.combine
    rw [checked]
    split <;>
    · next judged =>
      obtain ⟨_, rfl⟩ := Prod.mk.inj judged
      exact turned.of_children rfl rfl

theorem advanceWithin_throughout (env : Env) (budget : Nat) :
    KeepsShape Q (advanceWithin env budget) := by
  induction budget with
  | zero => exact fun _ h => h
  | succ budget ih =>
    intro n h
    unfold advanceWithin
    split
    · exact h
    · exact h
    · next phase _ =>
      have found := h.find ih env
      have extended := h.extend ih env
      cases phase <;> dsimp only <;> split
      · next same => rw [same] at found; exact found
      · next same => rw [same] at found; exact ih _ found
      · next same => rw [same] at extended; exact extended
      · next same => rw [same] at extended; exact ih _ extended

/-! ## Runs -/

theorem Throughout.perform (h : n.Throughout Q) (env : Env) (step : Step) :
    (n.perform env step).2.Throughout Q := by
  cases step with
  | «open» =>
    have opened := h.open env
    simp only [Node.perform]
    split <;> (next same => rw [same] at opened; exact opened)
  | seek context firstChanged =>
    have sought := h.seek env context firstChanged
    simp only [Node.perform]
    split <;> (next same => rw [same] at sought; exact sought)
  | reset => exact h.reset
  | advance =>
    have advanced : (n.advance env).2.Throughout Q := advanceWithin_throughout env _ n h
    simp only [Node.perform]
    split <;> (next same => rw [same] at advanced; exact advanced)
  | take =>
    have taken := h.take
    simp only [Node.perform]
    split <;> (next same => rw [same] at taken; exact taken)

theorem Throughout.init (h : n.Throughout Q) (d : Dataset) (incoming : AttributeOrder) :
    (n.init d incoming).2.Throughout Q := by
  induction h generalizing incoming with
  | @intro n own _ ih =>
    have kind : (n.scan.init d incoming).2.needsPlace = n.scan.needsPlace := by
      cases n.scan <;> rfl
    have length (ws : List (Window Node)) (order : AttributeOrder) :
        (initAll d order ws).2.length = ws.length := by
      induction ws generalizing order with
      | nil => rfl
      | cons w rest more => rw [initAll_cons, List.length_cons, more, List.length_cons]
    rw [init_eq]
    refine .intro ?_ (forall_mem_initAll fun w member order _ => ih w member order)
    rw [kind, length]
    exact own

end Node

end QuadQuery
