import QuadQuery.Proofs.JoinTree.Windows

/-!
# Advancing a standing node

A turn of the loop of a node leaves the node standing and takes no row away from those that are
left, so that advancing a node comes to the first of them (`Node.advance_spec`).
-/

namespace QuadQuery

namespace Node

variable {d : Dataset} {n n' : Node} {env : Env} {advance : Advance} {context : Binding}

/-! ## What is left in each state -/

/-- While a row is pending it is the first of those left. -/
theorem remaining_ready {phase : Phase} (ready : n.state = .ready phase)
    (last : phase = .find → n.others d = []) :
    n.remaining d = n.extended :: (n.others d ++ n.fresh d) := by
  rw [remaining_eq, ready]
  cases phase with
  | find => rw [last rfl, List.nil_append]
  | extend => rfl

theorem remaining_active {phase : Phase} (active : n.state = .active phase)
    (last : phase = .find → n.others d = []) : n.remaining d = n.others d ++ n.fresh d := by
  rw [remaining_eq, active]
  cases phase with
  | find => rw [last rfl, List.nil_append]
  | extend => rfl

/-- Windows that are all empty allow a single combination. -/
theorem tail_positions_of_empty {ws : List (Window Node)} (stand : Window.AllStand d context ws)
    (empty : phaseFor ws = .find) :
    (Wheel.positions (ws.map (Window.wheel d context))).tail = [] := by
  have none : ∀ w ∈ ws, w.isEmpty = true := by
    unfold phaseFor at empty
    split at empty
    · cases empty
    · next none => simpa using none
  clear empty
  induction ws with
  | nil => rfl
  | cons w rest ih =>
    obtain ⟨⟨_, stands⟩, others⟩ := List.forall_mem_cons.1 stand
    obtain ⟨first, nones⟩ := List.forall_mem_cons.1 none
    exact Wheel.tail_positions_eq_nil (by rw [stands.wheel_of_isEmpty first]) (ih others nones)

/-- Behind the current combination come the others. -/
theorem positions_eq_current {ws : List (Window Node)} (stand : Window.AllStand d context ws) :
    ∃ others, Wheel.positions (ws.map (Window.wheel d context)) = ws.map Window.current? :: others := by
  refine Wheel.positions_eq_cons (List.forall₂_map_left_iff.2 (List.forall₂_map_right_iff.2 ?_))
  exact List.forall₂_same.2 fun w member => (stand w member).2.head?_ahead

/-! ## The odometer -/

theorem orders_of_alike {ws ws' : List (Window Node)} {order : AttributeOrder}
    (alike : ws.Forall₂ (fun w w' => Alike d w.node w'.node) ws')
    (orders : ∀ w ∈ ws, order.vars <+: w.node.scan.order.vars) :
    ∀ w ∈ ws', order.vars <+: w.node.scan.order.vars := by
  induction alike with
  | nil => exact orders
  | cons first _ ih =>
    obtain ⟨here, others⟩ := List.forall_mem_cons.1 orders
    exact List.forall_mem_cons.2 ⟨Scan.order_of_blank first.blank ▸ here, ih others⟩

/-- Windows put to their first rows stand there. -/
theorem started_all {ws ws' : List (Window Node)} (h : ws.Forall₂ (Window.Started d context) ws') :
    Window.AllStand d context ws' ∧ ws.Forall₂ (fun w w' => Alike d w.node w'.node) ws' ∧
      ws'.map (Window.wheel d context) = (ws.map (Window.wheel d context)).map Wheel.restarted := by
  induction h with
  | nil => exact ⟨by simp [Window.AllStand], .nil, rfl⟩
  | cons first _ ih =>
    obtain ⟨stand, alike, wheels⟩ := ih
    exact ⟨List.forall_mem_cons.2 ⟨⟨first.valid, first.stands⟩, stand⟩, .cons first.alike alike,
      by rw [List.map_cons, List.map_cons, List.map_cons, first.wheel_eq, wheels]⟩

/-- From their first rows the windows come to all combinations. -/
theorem positions_of_started {ws ws' : List (Window Node)}
    (h : ws.Forall₂ (Window.Started d context) ws') :
    Wheel.positions (ws'.map (Window.wheel d context)) = Wheel.picks (columns d context ws) := by
  rw [(started_all h).2.2, Wheel.positions_restarted, columns_eq, List.map_map]
  rfl

theorem alike_append_trans {ws lower lower' upper : List (Window Node)}
    (h : ws.Forall₂ (fun w w' => Alike d w.node w'.node) (lower ++ upper))
    (h' : lower.Forall₂ (fun w w' => Alike d w.node w'.node) lower') :
    ws.Forall₂ (fun w w' => Alike d w.node w'.node) (lower' ++ upper) := by
  induction h' generalizing ws with
  | nil => exact h
  | cons first _ ih =>
    obtain ⟨w, rest, next, others, rfl⟩ := List.forall₂_cons_right_iff.1 h
    exact .cons (next.trans first) (ih others)

/-- Turning the odometer comes to the next combination, or finds that there is none. -/
theorem nextCombination_spec (serves : Serves d advance) (room : 0 < n.capacity)
    (stand : Window.AllStand d context n.children) :
    (n.nextCombination advance).1 = .error .outOfSteps ∨ ∃ found children stats,
      n.nextCombination advance = (.ok found, { n with children, stats }) ∧
      Window.AllStand d context children ∧
      n.children.Forall₂ (fun w w' => Alike d w.node w'.node) children ∧
      (Wheel.positions (n.children.map (Window.wheel d context))).tail =
        if found then Wheel.positions (children.map (Window.wheel d context)) else [] := by
  unfold nextCombination
  rcases Window.moveFirst_spec serves room stand with stuck | ⟨found, moved, stands, alike, positions⟩
  · left
    simp only [stuck]
  · simp only [moved]
    cases found with
    | false => exact .inr ⟨false, _, _, rfl, stands, alike, positions⟩
    | true =>
      obtain ⟨lower, upper⟩ := List.forall_mem_append.1 stands
      rcases Window.rewindAll_spec serves room lower with stuck | ⟨lower', rewound, started⟩
      · obtain ⟨_, same⟩ := exists_of_fst_eq stuck
        exact .inl (by simp only [same])
      · obtain ⟨stand', alike', wheels⟩ := started_all started
        rw [rewound]
        refine .inr ⟨true, _, _, rfl, List.forall_mem_append.2 ⟨stand', upper⟩,
          alike_append_trans alike alike', ?_⟩
        rw [positions, List.map_append, wheels, List.map_map]
        rfl

/-! ## Turns of the loop -/

/-- A turn of the loop that takes nothing away. -/
structure Turned (d : Dataset) (n n' : Node) : Prop where
  kept : Kept d n n'
  remaining : n'.remaining d = n.remaining d

/-- Once a combination is judged it is pending or gone, and those behind it are left. -/
theorem remaining_judged (phase : Phase)
    (stand : Window.AllStand d (n.own.extendAbsent n.context) n.children)
    (extended : n.extended = combined n.own n.children)
    (last : phase = .find → phaseFor n.children = .find)
    (judged : n.state = if passes d n.context n.postFilters n.extended then .ready phase
      else .active phase) :
    n.remaining d = merged d n.context n.postFilters n.own (n.turns d) ++ n.fresh d := by
  obtain ⟨others, positions⟩ := positions_eq_current stand
  have current : n.extended = merge n.own (n.children.map Window.current?) := by
    rw [extended, combined_eq]
  have turns : n.turns d = n.children.map Window.current? :: others := positions
  have left : n.others d = merged d n.context n.postFilters n.own others := by
    rw [Node.others, turns, List.tail_cons]
  have single : phase = .find → n.others d = [] := fun find => by
    rw [Node.others, turns, ← positions, tail_positions_of_empty stand (last find)]
    rfl
  rw [turns, merged_cons, ← current, ← left]
  split at judged
  · next holds => rw [remaining_ready judged single, if_pos holds, List.cons_append]
  · next fails => rw [remaining_active judged single, if_neg fails]

theorem possible_of_active (own : n.Standing d) {phase : Phase} (active : n.state = .active phase) :
    n.neverMatches = false := by
  by_contra never
  rw [own.exhausted (by simpa using never)] at active
  cases active

/-- The scan of the node has handed out a row. -/
structure Drew (d : Dataset) (n : Node) (ids : Row) (scan : Scan) : Prop where
  first : n.scan.rest = ids :: scan.rest
  blank : scan.blank = n.scan.blank
  rows : scan.rows = n.scan.rows
  stands : n.scan.At d n.context → scan.At d n.context
  positioned : scan.Positioned ↔ n.scan.Positioned

theorem Drew.isSuffix {ids : Row} {scan : Scan} (own : n.Standing d) (drew : Drew d n ids scan) :
    scan.rest <:+ scan.rows := by
  rw [drew.rows]
  exact (List.suffix_cons ids scan.rest).trans (drew.first ▸ own.rest)

/-- A node that goes on with the same own row, or whose own row did not pass. -/
theorem Drew.turned_of_missed {ids : Row} {scan : Scan} (settled : n.Valid d)
    (active : n.state = .active .find) (drew : Drew d n ids scan)
    (none : n.rowsOf d n.context ids = []) (stats : NodeStats) :
    Turned d n { n with scan, stats } := by
  obtain ⟨own, others⟩ := settled
  have alike : Alike d n { n with scan, stats } := .of_children drew.blank rfl rfl rfl (alike_all _)
  have standing : Standing d { n with scan, stats } :=
    own.of_blank drew.blank (fun possible => drew.stands (own.stands possible)) (drew.isSuffix own)
      ⟨rfl, rfl, rfl, rfl⟩ own.exhausted own.orders own.contexts own.windows
  refine ⟨⟨.intro standing others, alike, rfl, drew.positioned⟩, ?_⟩
  have left : remaining d { n with scan, stats } = fresh d { n with scan, stats } :=
    remaining_eq_fresh (.inl active)
  rw [left, remaining_eq_fresh (.inl active), fresh, fresh, drew.first, List.flatMap_cons, none,
    List.nil_append, funext (alike.rowsOf n.context)]

/-- A node whose own row has passed, with the first combination judged. -/
theorem Drew.turned_of_loaded {ids : Row} {scan : Scan} {children : List (Window Node)}
    {own : Binding} (settled : n.Valid d) (active : n.state = .active .find)
    (drew : Drew d n ids scan)
    (started : n.children.Forall₂ (Window.Started d (own.extendAbsent n.context)) children)
    (all : n.rowsOf d n.context ids = merged d n.context n.postFilters own
      (Wheel.picks (columns d (own.extendAbsent n.context) n.children))) {state : NodeState}
    (judged : state = if passes d n.context n.postFilters (combined own children)
      then .ready (phaseFor children) else .active (phaseFor children)) (stats : NodeStats) :
    Turned d n { n with
      scan, children, own, childContext := some (own.extendAbsent n.context), state, stats
      extended := combined own children } := by
  have standing := settled.standing
  have possible := possible_of_active standing active
  obtain ⟨stand, alikes, _⟩ := started_all started
  generalize made : ({ n with
    scan, children, own, childContext := some (own.extendAbsent n.context), state, stats
    extended := combined own children } : Node) = m
  have alike : Alike d n m := by
    subst made
    exact .of_children drew.blank rfl rfl rfl alikes
  have left : m.remaining d = n.rowsOf d n.context ids ++ m.fresh d := by
    subst made
    rw [remaining_judged _ stand rfl (fun h => h) judged, all, ← positions_of_started started]
    rfl
  have stands : Standing d m := by
    subst made
    refine standing.of_blank drew.blank (fun _ => drew.stands (standing.stands possible))
      (drew.isSuffix standing) ⟨rfl, rfl, rfl, rfl⟩ (fun never => ?_)
      (orders_of_alike alikes standing.orders) (fun context same w member => ?_)
      fun _ => ⟨rfl, fun w member => (stand w member).2⟩
    · exact absurd (possible.symm.trans never) Bool.false_ne_true
    · cases same
      exact (stand w member).2.place
  refine ⟨⟨.intro stands ?_, alike, ?_, ?_⟩, ?_⟩
  · subst made
    exact fun w member => (stand w member).1
  · subst made
    rfl
  · subst made
    exact drew.positioned
  · rw [left, remaining_eq_fresh (.inl active), fresh, fresh, drew.first, List.flatMap_cons]
    subst made
    rw [funext (alike.rowsOf n.context)]

/-- A node whose scan has nothing left. -/
theorem turned_of_end (settled : n.Valid d) (active : n.state = .active .find)
    (rows : n.scan.rest = []) : Turned d n { n with state := .exhausted } := by
  obtain ⟨own, others⟩ := settled
  have standing : Standing d { n with state := .exhausted } :=
    own.of_blank rfl own.stands own.rest ⟨rfl, rfl, rfl, rfl⟩ (fun _ => rfl) own.orders
      own.contexts fun combines => absurd combines NodeState.not_combines_exhausted
  refine ⟨⟨.intro standing others, .of_children rfl rfl rfl rfl (alike_all _), rfl, Iff.rfl⟩, ?_⟩
  rw [remaining_of_exhausted rfl, remaining_eq_fresh (.inl active), fresh, rows]
  rfl

/-- The hint that a node makes from the context of its children is right about all of them. -/
theorem unmoved_children (own : n.Standing d) (others : ∀ w ∈ n.children, w.node.Valid d)
    (context : Binding) : ∀ w ∈ n.children, w.node.neverMatches = false → w.node.scan.Positioned →
      w.node.scan.Unmoved w.node.context context
        (n.scan.order.firstChanged n.childContext context) := by
  intro w member possible _
  cases before : n.childContext with
  | none =>
    cases w.node.scan with
    | fixed s => trivial
    | index s => exact fun _ _ _ _ _ impossible => absurd impossible (Nat.not_lt_zero _)
  | some old =>
    obtain rfl := (own.contexts old before w member).resolve_right (by simp [possible])
    exact Scan.unmoved_firstChanged (others w member).standing.sound (own.orders w member) _ context

theorem find_spec (valid : env.dataset.Valid) (live : env.cancelled = false)
    (serves : Serves env.dataset advance) (settled : n.Valid env.dataset)
    (active : n.state = .active .find) :
    (n.find env advance).1 = .error .outOfSteps ∨
      ∃ n', n.find env advance = (.ok (), n') ∧ Turned env.dataset n n' := by
  have own := settled.standing
  have possible := possible_of_active own active
  unfold find
  rw [live]
  cases rows : n.scan.rest with
  | nil =>
    rw [Scan.next?_nil rows]
    exact .inr ⟨_, rfl, turned_of_end settled active rows⟩
  | cons ids later =>
    obtain ⟨scan, drawn, blank, same, rfl, stands, positioned⟩ :=
      Scan.next?_cons rows env.dataset n.context
    have drew : Drew env.dataset n ids scan := ⟨rows, blank, same, stands, positioned⟩
    have ownRow := own.rowsOf_eq valid possible (rows ▸ List.mem_cons_self) n.context
    rw [← own.attributes] at ownRow
    obtain ⟨stats, checked⟩ := checkPre_eq env.dataset (.ofRow n.attributes ids)
      { n with scan, stats.ownRows := n.stats.ownRows + 1 }
    rw [drawn]
    simp only [checked]
    split
    · next missed =>
      obtain ⟨fails, rfl⟩ := Prod.mk.inj missed
      rw [if_neg (by simpa using fails)] at ownRow
      exact .inr ⟨_, rfl, drew.turned_of_missed settled active ownRow stats⟩
    · next passed =>
      obtain ⟨holds, rfl⟩ := Prod.mk.inj passed
      rw [if_pos holds] at ownRow
      have hints := unmoved_children own settled.children
        ((Binding.ofRow n.attributes ids).extendAbsent n.context)
      rw [← Scan.order_of_blank blank] at hints
      simp only
      rcases Window.loadAll_spec serves own.capacity settled.children hints
        with stuck | ⟨children, loaded, started⟩
      · obtain ⟨_, same⟩ := exists_of_fst_eq stuck
        exact .inl (by simp only [same])
      · rw [loaded]
        simp only
        generalize joined : combine _ = m
        obtain ⟨stats', checked'⟩ := checkPost_eq env.dataset m
        rw [checked']
        subst joined
        split
        · next judged =>
          obtain ⟨holds, rfl⟩ := Prod.mk.inj judged
          exact .inr ⟨_, rfl, drew.turned_of_loaded settled active started ownRow
            (if_pos holds).symm stats'⟩
        · next judged =>
          obtain ⟨fails, rfl⟩ := Prod.mk.inj judged
          exact .inr ⟨_, rfl, drew.turned_of_loaded settled active started ownRow
            (if_neg (ne_true_of_eq_false fails)).symm stats'⟩

/-- A node whose odometer has turned, with the next combination judged. -/
theorem turned_of_next {children : List (Window Node)} (settled : n.Valid d)
    (active : n.state = .active .extend)
    (stand : Window.AllStand d (n.own.extendAbsent n.context) children)
    (alikes : n.children.Forall₂ (fun w w' => Alike d w.node w'.node) children)
    (positions : (n.turns d).tail = Wheel.positions
      (children.map (Window.wheel d (n.own.extendAbsent n.context)))) {state : NodeState}
    (judged : state = if passes d n.context n.postFilters (combined n.own children)
      then .ready .extend else .active .extend) (stats : NodeStats) :
    Turned d n { n with children, state, stats, extended := combined n.own children } := by
  have standing := settled.standing
  have possible := possible_of_active standing active
  have combines : n.state.combines := by rw [active]; exact rfl
  generalize made :
    ({ n with children, state, stats, extended := combined n.own children } : Node) = m
  have alike : Alike d n m := by
    subst made
    exact .of_children rfl rfl rfl rfl alikes
  have left : m.remaining d = n.others d ++ m.fresh d := by
    subst made
    rw [remaining_judged .extend stand rfl (absurd · Phase.extend_ne_find) judged, Node.others,
      positions]
    rfl
  have stands : Standing d m := by
    subst made
    refine standing.of_blank rfl standing.stands standing.rest ⟨rfl, rfl, rfl, rfl⟩
      (fun never => ?_) (orders_of_alike alikes standing.orders) (fun context same w member => ?_)
      fun _ => ⟨(standing.windows combines).1, fun w member => (stand w member).2⟩
    · exact absurd (possible.symm.trans never) Bool.false_ne_true
    · obtain rfl : n.own.extendAbsent n.context = context :=
        Option.some.inj ((standing.windows combines).1.symm.trans same)
      exact (stand w member).2.place
  refine ⟨⟨.intro stands ?_, alike, ?_, ?_⟩, ?_⟩
  · subst made
    exact fun w member => (stand w member).1
  · subst made
    rfl
  · subst made
    exact Iff.rfl
  · rw [left, remaining_active active (absurd · Phase.extend_ne_find), fresh, fresh]
    subst made
    rw [funext (alike.rowsOf n.context)]

/-- A node that has come to its last combination goes back to its own rows. -/
theorem turned_of_last {children : List (Window Node)} (settled : n.Valid d)
    (active : n.state = .active .extend)
    (stand : Window.AllStand d (n.own.extendAbsent n.context) children)
    (alikes : n.children.Forall₂ (fun w w' => Alike d w.node w'.node) children)
    (last : (n.turns d).tail = []) (stats : NodeStats) :
    Turned d n { n with children, stats, state := .active .find } := by
  have standing := settled.standing
  have possible := possible_of_active standing active
  have combines : n.state.combines := by rw [active]; exact rfl
  have alike : Alike d n { n with children, stats, state := .active .find } :=
    .of_children rfl rfl rfl rfl alikes
  have stands : Standing d { n with children, stats, state := .active .find } := by
    refine standing.of_blank rfl standing.stands standing.rest ⟨rfl, rfl, rfl, rfl⟩
      (fun never => ?_) (orders_of_alike alikes standing.orders) (fun context same w member => ?_)
      fun combines => absurd combines NodeState.not_combines_find
    · exact absurd (possible.symm.trans never) Bool.false_ne_true
    · obtain rfl : n.own.extendAbsent n.context = context :=
        Option.some.inj ((standing.windows combines).1.symm.trans same)
      exact (stand w member).2.place
  refine ⟨⟨.intro stands fun w member => (stand w member).1, alike, rfl, Iff.rfl⟩, ?_⟩
  have none : n.others d = [] := by rw [Node.others, last]; rfl
  rw [remaining_active active (absurd · Phase.extend_ne_find), none, List.nil_append,
    remaining_eq_fresh (.inl rfl), fresh, fresh, funext (alike.rowsOf n.context)]

theorem extend_spec (serves : Serves env.dataset advance) (settled : n.Valid env.dataset)
    (active : n.state = .active .extend) :
    (n.extend env advance).1 = .error .outOfSteps ∨
      ∃ n', n.extend env advance = (.ok (), n') ∧ Turned env.dataset n n' := by
  have own := settled.standing
  have stand : Window.AllStand env.dataset (n.own.extendAbsent n.context) n.children :=
    fun w member => ⟨settled.children w member,
      (own.windows (by rw [active]; exact rfl)).2 w member⟩
  unfold extend
  rcases nextCombination_spec serves own.capacity stand with
    stuck | ⟨found, children, stats, turned, stands, alikes, positions⟩
  · obtain ⟨_, same⟩ := exists_of_fst_eq stuck
    exact .inl (by simp only [same])
  · rw [turned]
    cases found with
    | false => exact .inr ⟨_, rfl, turned_of_last settled active stands alikes positions stats⟩
    | true =>
      simp only
      generalize joined : combine _ = m
      obtain ⟨stats', checked⟩ := checkPost_eq env.dataset m
      rw [checked]
      subst joined
      split
      · next judged =>
        obtain ⟨holds, rfl⟩ := Prod.mk.inj judged
        exact .inr ⟨_, rfl, turned_of_next settled active stands alikes positions
          (if_pos holds).symm stats'⟩
      · next judged =>
        obtain ⟨fails, rfl⟩ := Prod.mk.inj judged
        exact .inr ⟨_, rfl, turned_of_next settled active stands alikes positions
          (active.trans (if_neg (ne_true_of_eq_false fails)).symm) stats'⟩

/-! ## The loop -/

/-- A node that has a row pending, or none left, serves itself. -/
theorem Served.of_idle (settled : n.Valid d) {found : Bool} (same : found = !(n.remaining d).isEmpty)
    (ready : found = true → ∃ phase, n.state = .ready phase) : Served d n (.ok found) n :=
  ⟨.refl settled, by rw [same], rfl, fun ok => ready (by simpa using ok)⟩

/-- Whatever the budget, a node that does not run out of it serves the rows that are left. -/
theorem advanceWithin_spec (valid : env.dataset.Valid) (live : env.cancelled = false) (budget : Nat) :
    Serves env.dataset (advanceWithin env budget) := by
  induction budget with
  | zero => exact fun n _ => .inl rfl
  | succ budget ih =>
    intro n settled
    unfold advanceWithin
    split
    · next exhausted =>
      exact .inr (.of_idle settled (by rw [remaining_of_exhausted exhausted]; rfl) nofun)
    · next phase ready =>
      refine .inr (.of_idle settled ?_ fun _ => ⟨phase, ready⟩)
      rw [remaining_eq, ready]
      cases phase <;> rfl
    · next phase active =>
      -- A turn leaves the remaining rows as they are, so the rest of the loop serves them too.
      have goOn : ∀ n', Turned env.dataset n n' →
          (n'.advanceWithin env budget).1 = .error .outOfSteps ∨ Served env.dataset n
            (n'.advanceWithin env budget).1 (n'.advanceWithin env budget).2 := by
        intro n' ⟨kept, remaining⟩
        refine (ih n' kept.valid).imp_right fun served =>
          ⟨kept.trans served.kept, ?_, ?_, served.ready⟩
        · rw [served.found, remaining]
        · rw [served.remaining, remaining]
      cases phase with
      | find =>
        rcases find_spec valid live ih settled active with stuck | ⟨n', ticked, turned⟩
        · obtain ⟨_, same⟩ := exists_of_fst_eq stuck
          exact .inl (by simp only [same])
        · simp only [ticked]
          exact goOn n' turned
      | extend =>
        rcases extend_spec ih settled active with stuck | ⟨n', ticked, turned⟩
        · obtain ⟨_, same⟩ := exists_of_fst_eq stuck
          exact .inl (by simp only [same])
        · simp only [ticked]
          exact goOn n' turned

/-- Advancing a node comes to the first of the rows that are left, if there is one. -/
theorem advance_spec (valid : env.dataset.Valid) (live : env.cancelled = false)
    (settled : n.Valid env.dataset) :
    Served env.dataset n (n.advance env).1 (n.advance env).2 :=
  (advanceWithin_spec valid live _ n settled).resolve_left
    (advance_bounds (settled.bounded valid)).steps

end Node

end QuadQuery
