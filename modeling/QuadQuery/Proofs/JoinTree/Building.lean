import QuadQuery.Proofs.JoinTree.Standing

/-!
# Join trees as they are built

A join tree is put together from nodes without children by adding children and filters. Once its
order of variables is settled it stands as it should (`Node.valid_init`).
-/

namespace QuadQuery

namespace Scan

/-- A scan that has not been used yet: a basic pattern, or given rows that are as long as their
variables and are never refused. -/
def Unused : Scan → Prop
  | .index s => s = { pattern := s.pattern }
  | .fixed s => s.openRefusal = none ∧ s.seekRefusal = none ∧ s.rest = s.rows ∧
      ∀ row ∈ s.rows, row.length = s.vars.length

variable {d : Dataset} {s : Scan}

theorem unused_index (pattern : BasicPattern) : Unused (.index { pattern }) := rfl

theorem isPrefix_order_init (s : Scan) (d : Dataset) (incoming : AttributeOrder) :
    incoming.vars <+: (s.init d incoming).1.vars := by
  cases s with
  | index s => exact IndexScan.isPrefix_order_init s d incoming
  | fixed s => exact AttributeOrder.isPrefix_extend

theorem order_init (s : Scan) (d : Dataset) (incoming : AttributeOrder) :
    (s.init d incoming).2.order = (s.init d incoming).1 := by
  cases s <;> rfl

theorem hasVariable_init (s : Scan) (d : Dataset) (incoming : AttributeOrder) :
    (s.init d incoming).2.hasVariable = s.hasVariable := by
  cases s <;> rfl

theorem Unused.sound_init (h : s.Unused) (d : Dataset) (incoming : AttributeOrder) :
    (s.init d incoming).2.Sound d := by
  cases s with
  | index s => exact IndexScan.initialized_init s d incoming
  | fixed s => exact ⟨h.1, h.2.1, h.2.2.2⟩

/-- A scan that was not used is nowhere yet. -/
theorem Unused.at_init (h : s.Unused) (d : Dataset) (incoming : AttributeOrder) (context : Binding) :
    (s.init d incoming).2.At d context := by
  cases s with
  | index s =>
    left
    rw [show s = { pattern := s.pattern } from h]
    exact ⟨rfl, rfl⟩
  | fixed s => trivial

theorem Unused.rest_init (h : s.Unused) (d : Dataset) (incoming : AttributeOrder) :
    (s.init d incoming).2.rest = (s.init d incoming).2.rows := by
  cases s with
  | index s =>
    rw [show s = { pattern := s.pattern } from h]
    rfl
  | fixed s => exact h.2.2.1

end Scan

namespace Node

variable {d : Dataset} {n child : Node} {incoming : AttributeOrder}

/-- A join tree put together from unused scans. -/
inductive Built : Node → Prop
  | ofScan {scan : Scan} (unused : scan.Unused) (capacity : Nat) : Built (.ofScan scan capacity)
  | addChild {n child : Node} (first : Built n) (second : Built child) : Built (n.addChild child)
  | addFilter {n : Node} (first : Built n) (e : Expr) : Built (n.addFilter e)

/-- What holds of every node of a tree that was just put together. -/
inductive Unused : Node → Prop
  | intro {n : Node} (scan : n.scan.Unused) (capacity : 0 < n.capacity)
      (decided : ∀ e ∈ n.preFilters, ∀ v ∈ e.vars, n.scan.hasVariable v = true)
      (state : n.state = .active .find) (context : n.context = ∅) (childContext : n.childContext = none)
      (others : ∀ w ∈ n.children, Unused w.node) : Unused n

theorem Built.unused (h : n.Built) : n.Unused := by
  induction h with
  | ofScan unused capacity =>
    exact .intro unused (Nat.lt_of_lt_of_le Nat.one_pos (Nat.le_max_right ..)) nofun rfl rfl rfl nofun
  | addChild _ _ first second =>
    obtain ⟨scan, capacity, decided, state, context, childContext, others⟩ := first
    refine .intro scan capacity decided state context childContext ?_
    exact List.forall_mem_append.2 ⟨others, List.forall_mem_singleton.2 second⟩
  | addFilter _ e first =>
    obtain ⟨scan, capacity, decided, state, context, childContext, others⟩ := first
    unfold Node.addFilter
    split
    · next decides =>
      refine .intro scan capacity ?_ state context childContext others
      refine List.forall_mem_append.2 ⟨decided, List.forall_mem_singleton.2 fun v member => ?_⟩
      exact List.all_eq_true.1 decides v member
    · exact .intro scan capacity decided state context childContext others

/-- A join tree put together from scans of some kind. -/
inductive MadeOf (kind : Scan → Prop) : Node → Prop
  | ofScan {scan : Scan} (fit : kind scan) (capacity : Nat) : MadeOf kind (.ofScan scan capacity)
  | addChild {n child : Node} (first : MadeOf kind n) (second : MadeOf kind child) :
    MadeOf kind (n.addChild child)
  | addFilter {n : Node} (first : MadeOf kind n) (e : Expr) : MadeOf kind (n.addFilter e)

/-- Whatever its scans are, a filter is filed with those that the own row decides only if the scan has
all of its variables. -/
theorem MadeOf.hasVariable {kind : Scan → Prop} (h : n.MadeOf kind) :
    ∀ e ∈ n.preFilters, ∀ v ∈ e.vars, n.scan.hasVariable v = true := by
  induction h with
  | ofScan _ capacity => exact nofun
  | addChild _ _ first _ => exact first
  | addFilter _ e first =>
    unfold Node.addFilter
    split
    · next decides =>
      exact List.forall_mem_append.2 ⟨first, List.forall_mem_singleton.2 (List.all_eq_true.1 decides)⟩
    · exact first

/-! ## Settling the order of variables -/

theorem init_eq (d : Dataset) (incoming : AttributeOrder) (n : Node) :
    n.init d incoming = ((initAll d (n.scan.init d incoming).1 n.children).1,
      { n with
        scan := (n.scan.init d incoming).2
        attributes := (n.scan.init d incoming).2.attributes
        children := (initAll d (n.scan.init d incoming).1 n.children).2
        state := if !(n.scan.init d incoming).2.openTerms then .exhausted else n.state
        neverMatches := !(n.scan.init d incoming).2.openTerms }) := by
  cases n; rfl

theorem initAll_cons (d : Dataset) (incoming : AttributeOrder) (w : Window Node)
    (rest : List (Window Node)) :
    initAll d incoming (w :: rest) = ((initAll d (w.node.init d incoming).1 rest).1,
      { w with node := (w.node.init d incoming).2 } ::
        (initAll d (w.node.init d incoming).1 rest).2) := by
  cases w; rfl

mutual

/-- Settling the order only adds variables. -/
theorem isPrefix_init (d : Dataset) (incoming : AttributeOrder) :
    (n : Node) → incoming.vars <+: (n.init d incoming).1.vars
  | ⟨scan, _, _, children, _, _, _, _, _, _, _, _, _⟩ =>
    (Scan.isPrefix_order_init scan d incoming).trans (isPrefix_initAll d _ children)

theorem isPrefix_initAll (d : Dataset) (incoming : AttributeOrder) :
    (ws : List (Window Node)) → incoming.vars <+: (initAll d incoming ws).1.vars
  | [] => List.prefix_rfl
  | ⟨node, _, _, _, _⟩ :: rest =>
    (isPrefix_init d incoming node).trans (isPrefix_initAll d _ rest)

end

/-- Every child is settled with an order that goes on from that of its parent. -/
theorem forall_mem_initAll {ws : List (Window Node)} {P : Node → Prop}
    (h : ∀ w ∈ ws, ∀ order : AttributeOrder, incoming.vars <+: order.vars →
      P (w.node.init d order).2) : ∀ w ∈ (initAll d incoming ws).2, P w.node := by
  induction ws generalizing incoming with
  | nil => exact fun w member => nomatch member
  | cons w rest ih =>
    rw [initAll_cons]
    refine List.forall_mem_cons.2 ⟨h w List.mem_cons_self incoming List.prefix_rfl, ih ?_⟩
    exact fun v member order longer =>
      h v (List.mem_cons_of_mem _ member) order ((isPrefix_init d incoming w.node).trans longer)

/-- A tree stands as it should once its order is settled. -/
theorem Unused.valid_init (h : n.Unused) (d : Dataset) (incoming : AttributeOrder) :
    (n.init d incoming).2.Valid d := by
  induction h generalizing incoming with
  | @intro n scan capacity decided state context childContext others ih =>
    have order := Scan.order_init n.scan d incoming
    have orders : ∀ w ∈ (initAll d (n.scan.init d incoming).1 n.children).2,
        (n.scan.init d incoming).1.vars <+: w.node.scan.order.vars := by
      refine forall_mem_initAll (P := fun m => (n.scan.init d incoming).1.vars <+: m.scan.order.vars)
        fun w _ order longer => ?_
      rw [init_eq, Scan.order_init]
      exact longer.trans (Scan.isPrefix_order_init ..)
    rw [init_eq]
    refine .intro ⟨scan.sound_init d incoming, fun _ => scan.at_init d incoming n.context, ?_, rfl,
      rfl, capacity, ?_, ?_, ?_, ?_, ?_⟩ (forall_mem_initAll fun w member order _ => ih w member order)
    · rw [scan.rest_init]
    · rwa [Scan.hasVariable_init]
    · exact fun never => if_pos never
    · rwa [order]
    · intro c some
      exact absurd (childContext.symm.trans some) nofun
    · intro combines
      simp only [state] at combines
      split at combines <;> exact absurd combines nofun

/-- A tree whose order was just settled has nothing pending. -/
theorem Unused.idle_init (h : n.Unused) (d : Dataset) (incoming : AttributeOrder) :
    (n.init d incoming).2.state = .exhausted ∧ (n.init d incoming).2.neverMatches = true ∨
      (n.init d incoming).2.state = .active .find ∧ (n.init d incoming).2.neverMatches = false := by
  obtain ⟨_, _, _, state, _, _, _⟩ := h
  rw [init_eq, ← state]
  cases (n.scan.init d incoming).2.openTerms
  · exact .inl ⟨rfl, rfl⟩
  · exact .inr ⟨rfl, rfl⟩

theorem valid_init (built : n.Built) (d : Dataset) (incoming : AttributeOrder) :
    (n.init d incoming).2.Valid d :=
  built.unused.valid_init d incoming

end Node

end QuadQuery
