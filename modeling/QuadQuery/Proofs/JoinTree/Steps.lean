import QuadQuery.Proofs.JoinTree.Standing

/-!
# Steps of a standing node

What taking a row, moving to a context and starting over do to a node that stands as it should: it
still does, and the rows that are left are those behind the one taken, or all rows of the context.
-/

namespace QuadQuery

theorem exists_of_fst_eq {α β : Type} {p : α × β} {a : α} (h : p.1 = a) : ∃ b, p = (a, b) :=
  ⟨p.2, by rw [← h]⟩

namespace Node

variable {d : Dataset} {n n' n'' : Node} {env : Env} {context : Binding} {firstChanged : Nat}

/-- The node stands as it should, still in the same context. -/
structure Kept (d : Dataset) (n n' : Node) : Prop where
  valid : n'.Valid d
  alike : Alike d n n'
  context : n'.context = n.context
  positioned : n'.scan.Positioned ↔ n.scan.Positioned

theorem Kept.refl (valid : n.Valid d) : Kept d n n := ⟨valid, .refl n, rfl, Iff.rfl⟩

theorem Kept.trans (h : Kept d n n') (h' : Kept d n' n'') : Kept d n n'' :=
  ⟨h'.valid, h.alike.trans h'.alike, h'.context.trans h.context,
    h'.positioned.trans h.positioned⟩

/-- What advancing a node should come to: the next of the rows that are left is pending. -/
structure Served (d : Dataset) (n : Node) (result : Except Failure Bool) (n' : Node) : Prop where
  kept : Kept d n n'
  found : result = .ok !(n.remaining d).isEmpty
  remaining : n'.remaining d = n.remaining d
  ready : result = .ok true → ∃ phase, n'.state = .ready phase

/-- A way to advance nodes that does what it should unless it runs out of steps. -/
def Serves (d : Dataset) (advance : Advance) : Prop :=
  ∀ n : Node, n.Valid d → (advance n).1 = .error .outOfSteps ∨ Served d n (advance n).1 (advance n).2

/-! ## Taking and moving -/

/-- The invariant after a step that moves the scan or changes the state. -/
theorem Standing.of_blank (h : n.Standing d) (blank : n'.scan.blank = n.scan.blank)
    (stands : n'.neverMatches = false → n'.scan.At d n'.context) (rest : n'.scan.rest <:+ n'.scan.rows)
    (same : n'.attributes = n.attributes ∧ n'.neverMatches = n.neverMatches ∧
      n'.capacity = n.capacity ∧ n'.preFilters = n.preFilters)
    (exhausted : n'.neverMatches = true → n'.state = .exhausted)
    (orders : ∀ w ∈ n'.children, n.scan.order.vars <+: w.node.scan.order.vars)
    (contexts : ∀ context, n'.childContext = some context →
      ∀ w ∈ n'.children, w.node.context = context ∨ w.node.neverMatches = true)
    (windows : n'.state.combines → n'.childContext = some (n'.own.extendAbsent n'.context) ∧
      ∀ w ∈ n'.children, w.Stands d (n'.own.extendAbsent n'.context)) : n'.Standing d where
  sound := h.sound.of_blank blank
  stands := stands
  rest := rest
  attributes := by rw [same.1, Scan.attributes_of_blank blank, h.attributes]
  never := by rw [same.2.1, Scan.openTerms_of_blank blank, h.never]
  capacity := by rw [same.2.2.1]; exact h.capacity
  decided := by rw [same.2.2.2, Scan.hasVariable_of_blank blank]; exact h.decided
  exhausted := exhausted
  orders := by rw [Scan.order_of_blank blank]; exact orders
  contexts := contexts
  windows := windows

theorem take_spec (valid : n.Valid d) {phase : Phase} (ready : n.state = .ready phase) :
    ∃ row n', n.take = (.ok row, n') ∧ Kept d n n' ∧ n.remaining d = row :: n'.remaining d ∧
      n'.state = .active phase := by
  obtain ⟨own, others⟩ := valid
  have taken : n.take = (.ok n.extended, { n with state := .active phase, extended := ∅ }) := by
    rw [take, ready]
  refine ⟨_, _, taken, ⟨.intro ?_ others, ?_, rfl, Iff.rfl⟩, ?_, rfl⟩
  · refine own.of_blank rfl own.stands own.rest ⟨rfl, rfl, rfl, rfl⟩ ?_ own.orders own.contexts ?_
    · intro never
      have stuck := own.exhausted never
      rw [ready] at stuck
      cases stuck
    · exact fun combines => own.windows (by rw [ready]; exact combines)
  · exact .of_children rfl rfl rfl rfl (alike_all _)
  · rw [remaining_eq, remaining_eq, ready]
    cases phase <;> rfl

/-- A node that is to draw own rows, or is exhausted with no own rows left, has left what comes from
the own rows. -/
theorem remaining_eq_fresh
    (idle : n.state = .active .find ∨ n.state = .exhausted ∧ n.scan.rest = []) :
    n.remaining d = n.fresh d := by
  rw [remaining_eq]
  rcases idle with active | ⟨exhausted, none⟩
  · rw [active]
  · rw [exhausted, fresh, none]
    rfl

/-- What moving a node to a context should come to: all rows for it are left. -/
structure Sought (d : Dataset) (context : Binding) (n : Node) (found : Bool) (n' : Node) : Prop where
  valid : n'.Valid d
  alike : Alike d n n'
  place : n'.context = context ∨ n'.neverMatches = true
  positioned : n'.neverMatches = false → n'.scan.Positioned
  found : found = (!n.neverMatches && !(n.scan.rowsAt d context).isEmpty)
  remaining : n'.remaining d = n.rows d context
  idle : ∀ phase, n'.state ≠ .ready phase

/-- Without own rows there are no rows. -/
theorem Sought.rows_eq_nil (valid : n.Valid d) (h : Sought d context n false n') :
    n.rows d context = [] := by
  by_cases never : n.neverMatches = true
  · exact valid.standing.rows_eq_nil never context
  · have possible : n.neverMatches = false := by simpa using never
    have none : n.scan.rowsAt d context = [] := by simpa [possible] using h.found
    rw [valid.standing.rows_eq possible, none]
    rfl

/-- A node that never matches has the same rows everywhere. -/
theorem Sought.of_place {old : Binding} (valid : n.Valid d)
    (place : old = context ∨ n.neverMatches = true) {found : Bool} (h : Sought d old n found n') :
    Sought d context n found n' := by
  rcases place with rfl | never
  · exact h
  · have none := valid.standing.rows_eq_nil never
    refine ⟨h.valid, h.alike, .inr (h.alike.never.trans never), h.positioned, ?_, ?_, h.idle⟩
    · rw [h.found, never]; rfl
    · rw [h.remaining, none, none]

/-- A node that never matches is done with any context. -/
theorem Sought.of_never (valid : n.Valid d) (never : n.neverMatches = true) (context : Binding) :
    Sought d context n false { n with state := .exhausted } := by
  obtain ⟨own, others⟩ := valid
  have alike : Alike d n { n with state := .exhausted } :=
    .of_children rfl rfl rfl rfl (alike_all _)
  have standing : Standing d { n with state := .exhausted } :=
    own.of_blank rfl own.stands own.rest ⟨rfl, rfl, rfl, rfl⟩ (fun _ => rfl) own.orders own.contexts
      nofun
  refine ⟨.intro standing others, alike, .inr never, fun possible => ?_, by simp [never], ?_, nofun⟩
  · exact absurd (never.symm.trans possible) nofun
  · rw [remaining_of_exhausted rfl, own.rows_eq_nil never]

/-- A node whose scan was moved to the start of some rows. -/
theorem Sought.of_moved (valid : n.Valid d) (possible : n.neverMatches = false) {scan : Scan}
    (moved : Scan.Moved d context n.scan scan) {found : Bool}
    (answer : found = !(n.scan.rowsAt d context).isEmpty) {state : NodeState}
    (idle : state = .active .find ∨ state = .exhausted ∧ n.scan.rowsAt d context = []) :
    Sought d context n found { n with context, scan, state } := by
  obtain ⟨own, others⟩ := valid
  have alike : Alike d n { n with context, scan, state } :=
    .of_children moved.blank rfl rfl rfl (alike_all _)
  have rest : scan.rest <:+ scan.rows := by
    rw [moved.rest, moved.stands.rows_eq moved.positioned, Scan.rowsAt_of_blank moved.blank]
  have standing : Standing d { n with context, scan, state } := by
    refine own.of_blank moved.blank (fun _ => moved.stands) rest ⟨rfl, rfl, rfl, rfl⟩ (fun never => ?_)
      own.orders own.contexts ?_
    · exact absurd (possible.symm.trans never) nofun
    · rcases idle with rfl | ⟨rfl, _⟩ <;> exact nofun
  refine ⟨.intro standing others, alike, .inl rfl, fun _ => moved.positioned, by simp [possible, answer],
    ?_, ?_⟩
  · rw [remaining_eq_fresh (idle.imp id fun h => ⟨h.1, moved.rest.trans h.2⟩),
      own.rows_eq possible, fresh, funext (alike.rowsOf context), moved.rest]
  · rcases idle with rfl | ⟨rfl, _⟩ <;> exact nofun

/-- Whether there are rows decides what a node does after it was moved. -/
theorem idle_stateFor {rows : List Row} :
    stateFor (!rows.isEmpty) = .active .find ∨ stateFor (!rows.isEmpty) = .exhausted ∧ rows = [] := by
  cases rows with
  | nil => exact .inr ⟨rfl, rfl⟩
  | cons first rest => exact .inl rfl

/-- Moving a node with a truthful hint leaves all its rows for the context. -/
theorem seek_spec (valid : n.Valid env.dataset)
    (truthful : n.neverMatches = false → n.scan.Positioned →
      n.scan.Unmoved n.context context firstChanged) :
    ∃ found n', n.seek env context firstChanged = (.ok found, n') ∧
      Sought env.dataset context n found n' := by
  have own := valid.standing
  unfold seek
  split
  · next never => exact ⟨_, _, rfl, .of_never valid never context⟩
  · next possible =>
    have possible : n.neverMatches = false := by simpa using possible
    have opened : n.scan.openTerms = true := by simpa [own.never] using possible
    obtain ⟨scan, sought, moved⟩ :=
      Scan.seek_spec own.sound (own.stands possible) opened (truthful possible)
    rw [sought]
    exact ⟨_, _, rfl, .of_moved valid possible moved rfl idle_stateFor⟩

/-- Before it is moved a node may be put aside. -/
theorem Sought.of_aside {m : Node} (alike : Alike d n m) (scan : m.scan = n.scan) {found : Bool}
    (h : Sought d context m found n') : Sought d context n found n' where
  valid := h.valid
  alike := alike.trans h.alike
  place := h.place
  positioned := h.positioned
  found := by rw [h.found, alike.never, scan]
  remaining := by rw [h.remaining, alike.rows]
  idle := h.idle

/-- Opening a node leaves all its rows for the empty context. -/
theorem open_spec (valid : n.Valid env.dataset) :
    ∃ found n', n.open env = (.ok (), n') ∧ Sought env.dataset ∅ n found n' := by
  have aside : ∀ context, (n.neverMatches = false → context = n.context) →
      let m : Node := { n with context, childContext := none, state := .exhausted }
      m.Valid env.dataset ∧ Alike env.dataset n m := by
    intro context same
    obtain ⟨own, others⟩ := valid
    refine ⟨.intro (own.of_blank rfl (fun possible => ?_) own.rest ⟨rfl, rfl, rfl, rfl⟩
      (fun _ => rfl) own.orders nofun nofun) others, .of_children rfl rfl rfl rfl (alike_all _)⟩
    exact same possible ▸ own.stands possible
  unfold Node.open
  by_cases never : n.neverMatches = true
  · obtain ⟨settled, alike⟩ := aside ∅ fun possible => absurd (never.symm.trans possible) nofun
    exact ⟨_, _, if_pos never, .of_aside alike rfl (.of_never settled never ∅)⟩
  · have possible : n.neverMatches = false := by simpa using never
    obtain ⟨settled, alike⟩ := aside n.context fun _ => rfl
    obtain ⟨scan, opened, moved⟩ := Scan.open_spec valid.standing.sound
    refine ⟨_, _, ?_, .of_aside alike rfl (.of_moved settled possible moved rfl (.inl rfl))⟩
    simp only [if_neg never, opened]

/-- Starting over leaves all rows of the context that the node is at. -/
theorem reset_spec (valid : n.Valid d) (positioned : n.neverMatches = false → n.scan.Positioned) :
    Sought d n.context n n.reset.1 n.reset.2 := by
  have own := valid.standing
  unfold reset
  split
  · next never => exact .of_never valid never n.context
  · next possible =>
    have possible : n.neverMatches = false := by simpa using possible
    obtain ⟨scan, again, blank, rows, rest, stands, places⟩ := n.scan.reset_spec d n.context
    have here := (own.stands possible).rows_eq (positioned possible)
    rw [again]
    exact .of_moved valid possible
      ⟨blank, stands (own.stands possible), places.2 (positioned possible), rest.trans here⟩ (by rw [here])
      (here ▸ idle_stateFor)

end Node

end QuadQuery
