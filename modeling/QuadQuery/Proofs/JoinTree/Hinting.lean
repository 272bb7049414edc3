import QuadQuery.Proofs.JoinTree.Tracking

/-!
# The hints of parents

Between two moves of its children a parent may have dropped own rows, may itself have been moved or have
started over, and other nodes may have been moved as well. Still the hint that it gives is right about
the context that the child was last moved to (`Node.hints_honest`). The moves leave no other trace: every
node stands where it was moved last (`Node.context_after_moves`). The hints are those that the windows are
loaded with (`Node.find_listed`).
-/

namespace QuadQuery

namespace Node

variable {shared : AttributeOrder} {places : Whereabouts} {n n' : Node} {env : Env}
  {advance : Advance} {moves : Node → List Move}

/-! ## Turns of the loop -/

/-- A node whose children are where they were. -/
theorem Led.of_children {log : List Move} {ws : List (Window Node)} {stats : NodeStats}
    {state : NodeState} {extended : Binding} (h : n.Tracked shared places)
    (carried : Window.AllCarried shared n.scan.order id places 0 log n.children ws) :
    Led shared places log n { n with children := ws, stats, state, extended } := by
  refine ⟨carried.honest, carried.above, rfl, rfl, rfl, ?_⟩
  refine h.of_children rfl rfl h.within (fun context remembered i inside => ?_) carried.tracked
  have inside : i < n.children.length := carried.length ▸ inside
  rw [carried.target i (Nat.zero_le i) (by rwa [Nat.zero_add])]
  exact h.remembers context remembered i inside

theorem extend_led (leads : Leads shared advance moves) (tracked : n.Tracked shared places)
    (extended : n.extend env advance = (.ok (), n')) :
    Led shared places (n.extendMoves advance moves) n n' := by
  unfold Node.extend nextCombination at extended
  unfold extendMoves
  dsimp only at extended ⊢
  rcases moved : (Window.moveFirst advance n.capacity n.children).moved with _ | _ | _ <;>
    simp only [moved] at extended ⊢
  · cases extended
  · have carried := Window.moveFirst_carried leads tracked.children moved
    cases extended
    rw [List.append_nil]
    exact .of_children tracked carried
  · have carried := Window.moveFirst_carried leads tracked.children moved
    rcases rewound : Window.rewindAll advance n.capacity
      (Window.moveFirst advance n.capacity n.children).lower with ⟨_ | _, lower⟩ <;>
      simp only [rewound] at extended
    · cases extended
    · have further := carried.rewindAll leads rewound
      obtain ⟨stats, checked⟩ := checkPost_eq env.dataset (combine { n with
        children := lower ++ (Window.moveFirst advance n.capacity n.children).upper
        stats := if (Window.moveFirst advance n.capacity n.children).refilled
          then { n.stats with refills := n.stats.refills + 1 } else n.stats })
      rw [checked] at extended
      split at extended <;>
      · next judged =>
        obtain ⟨_, rfl⟩ := Prod.mk.inj judged
        cases extended
        exact .of_children tracked further

/-- The hint that a node makes is right about all of its children. -/
theorem Tracked.unchanged (h : n.Tracked shared places) (context : Binding) :
    ∀ i < n.children.length, ∀ old, places [i] = some old →
      shared.Unchanged old context (n.scan.order.firstChanged n.childContext context) := by
  intro i inside old moved p before v here
  cases remembered : n.childContext with
  | none =>
    -- a node that remembers nothing gives no hint
    rw [remembered] at before
    exact absurd before (Nat.not_lt_zero p)
  | some last =>
    obtain rfl : last = old := Option.some.inj ((h.remembers last remembered i inside).symm.trans moved)
    rw [remembered] at before
    have bound : p < n.scan.order.vars.length :=
      before.trans_le (n.scan.order.firstChanged_le_size (some last) context)
    have there := getElem?_of_isPrefix h.longer (List.getElem?_eq_getElem bound)
    cases here.symm.trans there
    exact AttributeOrder.get?_eq_of_lt_firstChanged before (List.getElem?_eq_getElem bound)

theorem findMoves_of_none (drawn : n.scan.next? env.cancelled = none) :
    n.findMoves env advance moves = [] := by
  rw [findMoves, drawn]

theorem findMoves_of_missed {ids : Row} {scan : Scan}
    (drawn : n.scan.next? env.cancelled = some (ids, scan))
    (misses : passes env.dataset ∅ n.preFilters (.ofRow n.attributes ids) = false) :
    n.findMoves env advance moves = [] := by
  obtain ⟨stats, checked⟩ := checkPre_eq env.dataset (.ofRow n.attributes ids)
    { n with scan, stats.ownRows := n.stats.ownRows + 1 }
  unfold passes at misses
  unfold findMoves
  simp only [drawn, checked, misses]

theorem findMoves_of_passed (advance : Advance) (moves : Node → List Move) {ids : Row} {scan : Scan}
    (drawn : n.scan.next? env.cancelled = some (ids, scan))
    (holds : passes env.dataset ∅ n.preFilters (.ofRow n.attributes ids) = true) :
    ∃ stats, n.findMoves env advance moves =
      let context := (Binding.ofRow n.attributes ids).extendAbsent n.context
      Window.loadAllMoves env advance moves { n with scan, stats } context
        (scan.order.firstChanged n.childContext context) 0 n.children := by
  obtain ⟨stats, checked⟩ := checkPre_eq env.dataset (.ofRow n.attributes ids)
    { n with scan, stats.ownRows := n.stats.ownRows + 1 }
  refine ⟨stats, ?_⟩
  unfold passes at holds
  unfold findMoves
  simp only [drawn, checked, holds]

/-- A node that draws an own row moves its children with the contexts and the hints that are listed, and
with no others. -/
theorem find_listed (env : Env) (budget : Nat) (n : Node) :
    Window.LoadedAsListed env (advanceWithin env budget) n.capacity
      ((n.find env (advanceWithin env budget)).1 = .ok ())
      (n.findMoves env (advanceWithin env budget) (movesWithin env budget))
      n.children (n.find env (advanceWithin env budget)).2.children := by
  cases drawn : n.scan.next? env.cancelled with
  | none =>
    rw [findMoves_of_none drawn]
    have found : (n.find env (advanceWithin env budget)).2.children = n.children := by
      rw [Node.find, drawn]
    exact ⟨n, ∅, 0, [], n.children, rfl, found, fun _ => .inl rfl, rfl⟩
  | some row =>
    obtain ⟨ids, scan⟩ := row
    cases holds : passes env.dataset ∅ n.preFilters (.ofRow n.attributes ids) with
    | false =>
      obtain ⟨stats, found⟩ := find_of_missed (advanceWithin env budget) drawn rfl holds
      rw [findMoves_of_missed drawn holds, found]
      exact ⟨n, ∅, 0, [], n.children, rfl, rfl, fun _ => .inl rfl, rfl⟩
    | true =>
      obtain ⟨stats, listed⟩ :=
        findMoves_of_passed (advanceWithin env budget) (movesWithin env budget) drawn holds
      rw [listed]
      let context := (Binding.ofRow n.attributes ids).extendAbsent n.context
      let firstChanged := scan.order.firstChanged n.childContext context
      obtain ⟨loaded, others, split, after, all, direct⟩ := Window.loadAll_listed env
        (advanceWithin env budget) { n with scan, stats } context firstChanged
        (deep_movesWithin env budget) 0 n.children
      rcases loading : Window.loadAll env (advanceWithin env budget) context firstChanged n.capacity
        n.children with ⟨_ | _, children⟩
      · obtain ⟨_, failed⟩ := find_of_failed drawn rfl holds loading
        rw [failed]
        refine ⟨_, context, firstChanged, loaded, others, split, by rw [← after, loading],
          fun fine => ?_, direct⟩
        cases fine
      · obtain ⟨_, passed⟩ := find_of_loaded drawn rfl holds loading
        rw [passed]
        exact ⟨_, context, firstChanged, loaded, others, split, by rw [← after, loading],
          fun _ => .inr (all (by rw [loading])), direct⟩

theorem find_led (leads : Leads shared advance moves) (tracked : n.Tracked shared places)
    (found : n.find env advance = (.ok (), n')) :
    Led shared places (n.findMoves env advance moves) n n' := by
  cases drawn : n.scan.next? env.cancelled with
  | none =>
    rw [findMoves_of_none drawn]
    simp only [Node.find, drawn] at found
    cases found
    exact .of_same tracked rfl rfl rfl rfl rfl rfl
  | some row =>
    obtain ⟨ids, scan⟩ := row
    have blank := Scan.blank_of_next? drawn
    cases holds : passes env.dataset ∅ n.preFilters (.ofRow n.attributes ids) with
    | false =>
      -- the context of a dropped row is not remembered, and no child is moved to it
      obtain ⟨stats, missed⟩ := find_of_missed advance drawn rfl holds
      rw [findMoves_of_missed drawn holds]
      cases missed.symm.trans found
      exact .of_same tracked rfl blank rfl rfl rfl rfl
    | true =>
      obtain ⟨stats, listed⟩ := findMoves_of_passed advance moves drawn holds
      rw [listed]
      have order : scan.order = n.scan.order := Scan.order_of_blank blank
      let context := (Binding.ofRow n.attributes ids).extendAbsent n.context
      have within : context.Within n.scan.order.vars :=
        ((Binding.within_ofRow n.attributes ids).mono tracked.attributes).extendAbsent tracked.within
      rcases loaded : Window.loadAll env advance context (scan.order.firstChanged n.childContext context)
        n.capacity n.children with ⟨_ | _, children⟩
      · obtain ⟨stats, failed⟩ := find_of_failed drawn rfl holds loaded
        cases failed.symm.trans found
      · obtain ⟨stats', passed⟩ := find_of_loaded drawn rfl holds loaded
        cases passed.symm.trans found
        have carried := Window.loadAll_carried { n with scan, stats } (i := 0) leads
          (order ▸ tracked.longer) (order ▸ within) (order ▸ tracked.children)
          (fun j _ inside => order ▸ tracked.unchanged context j (by omega)) loaded
        refine ⟨carried.honest, carried.above, order, rfl, rfl, ?_⟩
        refine tracked.of_children rfl blank tracked.within (fun _ same i inside => ?_)
          (order ▸ carried.tracked)
        cases same
        have inside : i < n.children.length := carried.length ▸ inside
        exact carried.target i (Nat.zero_le i) (by rwa [Nat.zero_add])

theorem advanceWithin_leads (shared : AttributeOrder) (env : Env) (budget : Nat) :
    Leads shared (advanceWithin env budget) (movesWithin env budget) := by
  induction budget with
  | zero =>
    -- without a budget the advance fails
    exact fun _ _ _ _ _ advanced => nomatch advanced
  | succ budget ih =>
    intro places n n' found tracked advanced
    unfold advanceWithin at advanced
    unfold movesWithin
    dsimp only
    rcases state : n.state with phase | phase | _ <;> simp only [state] at advanced ⊢
    · cases phase with
      | find =>
        rcases turn : n.find env (advanceWithin env budget) with ⟨_ | _, m⟩ <;>
          simp only [turn] at advanced ⊢
        · cases advanced
        · have led := find_led ih tracked turn
          exact led.trans (ih _ _ _ _ led.tracked advanced)
      | extend =>
        rcases turn : n.extend env (advanceWithin env budget) with ⟨_ | _, m⟩ <;>
          simp only [turn] at advanced ⊢
        · cases advanced
        · have led := extend_led ih tracked turn
          exact led.trans (ih _ _ _ _ led.tracked advanced)
    · cases advanced
      exact .refl tracked
    · cases advanced
      exact .refl tracked

/-! ## Trees that were just settled -/

/-- All nodes of a tree are at the empty context still, and remember no other. -/
inductive AtRest : Node → Prop
  | intro {n : Node} (context : n.context = ∅) (remembered : n.childContext = none)
      (others : ∀ w ∈ n.children, AtRest w.node) : AtRest n

theorem AtRest.context (h : n.AtRest) : n.context = ∅ := by
  cases h; assumption

theorem MadeOf.atRest {kind : Scan → Prop} (made : n.MadeOf kind) : n.AtRest := by
  induction made with
  | ofScan _ _ => exact .intro rfl rfl (List.forall_mem_nil _)
  | addChild _ _ first second =>
    obtain ⟨context, remembered, others⟩ := first
    exact .intro context remembered
      (List.forall_mem_append.2 ⟨others, List.forall_mem_singleton.2 second⟩)
  | addFilter _ e first =>
    obtain ⟨context, remembered, others⟩ := first
    unfold Node.addFilter
    split <;> exact .intro context remembered others

/-- Every child is settled with an order that goes on from that of its parent, and what it makes of it is
the beginning of the order in the end. -/
theorem forall_mem_initAll_between {d : Dataset} {incoming : AttributeOrder}
    {ws : List (Window Node)} {P : Node → Prop}
    (h : ∀ w ∈ ws, ∀ order : AttributeOrder, incoming.vars <+: order.vars →
      (w.node.init d order).1.vars <+: (initAll d incoming ws).1.vars → P (w.node.init d order).2) :
    ∀ w ∈ (initAll d incoming ws).2, P w.node := by
  induction ws generalizing incoming with
  | nil => exact List.forall_mem_nil _
  | cons w rest ih =>
    rw [initAll_cons] at h ⊢
    refine List.forall_mem_cons.2
      ⟨h w List.mem_cons_self incoming List.prefix_rfl (isPrefix_initAll d _ rest), ih ?_⟩
    exact fun v member order longer =>
      h v (List.mem_cons_of_mem _ member) order ((isPrefix_init d incoming w.node).trans longer)

/-- Where no node was moved, there is nothing to remember. -/
theorem AtRest.tracked_init (h : n.AtRest) (d : Dataset) (incoming : AttributeOrder)
    (longer : (n.init d incoming).1.vars <+: shared.vars) :
    (n.init d incoming).2.Tracked shared .unknown := by
  induction h generalizing incoming with
  | @intro n context remembered others ih =>
    rw [init_eq] at longer ⊢
    have own : (n.scan.init d incoming).1.vars <+: shared.vars :=
      (isPrefix_initAll d _ n.children).trans longer
    have order := Scan.order_init n.scan d incoming
    have children : ∀ w ∈ (initAll d (n.scan.init d incoming).1 n.children).2,
        w.node.Placed (n.scan.init d incoming).1 none ∧ w.node.Tracked shared .unknown := by
      refine forall_mem_initAll_between
        (P := fun m => m.Placed (n.scan.init d incoming).1 none ∧ m.Tracked shared .unknown)
        fun w member handed before after => ⟨⟨?_, nofun, .inl ?_⟩, ?_⟩
      · rw [init_eq, Scan.order_init]
        exact (before.trans (Scan.isPrefix_order_init ..)).subset
      · rw [init_eq]
        exact (others w member).context
      · exact ih w member handed (after.trans longer)
    refine .intro ?_ ?_ ?_ (fun v p member => ?_) (fun c same => ?_) (fun c member => ?_)
      fun c member => ?_
    · rw [order]
      exact n.scan.attributes_subset_order_init d incoming
    · rw [context]
      exact Binding.within_empty _
    · rwa [order]
    · exact AttributeOrder.position?_of_isPrefix own (Scan.position?_of_mem_inherited member)
    · cases remembered.symm.trans same
    · rw [order]
      exact (children _ (List.fst_mem_of_mem_zipIdx member)).1
    · exact (children _ (List.fst_mem_of_mem_zipIdx member)).2

/-! ## Runs -/

/-- A step at the root that does not fail makes honest moves. -/
theorem Tracked.perform (h : n.Tracked shared places) (env : Env) {step : Step}
    (known : ∀ context firstChanged, step = .seek context firstChanged →
      context.Within n.scan.order.vars) (fine : (n.perform env step).1 ≠ .failed) :
    AllHonest shared places (Event.moves (env, n) (.step step)) ∧
      (n.perform env step).2.Tracked shared (places.after (Event.moves (env, n) (.step step))) ∧
      (n.perform env step).2.scan.order = n.scan.order := by
  cases step with
  | «open» =>
    rcases opened : n.open env with ⟨_ | _, m⟩ <;> simp only [Node.perform, opened] at fine ⊢
    · exact absurd rfl fine
    · exact ⟨trivial, h.open opened⟩
  | seek context firstChanged =>
    rcases sought : n.seek env context firstChanged with ⟨_ | found, m⟩ <;>
      simp only [Node.perform, sought] at fine ⊢
    · exact absurd rfl fine
    · obtain ⟨tracked, order, _⟩ := h.seek (known context firstChanged rfl) sought
      exact ⟨trivial, tracked, order⟩
  | reset => exact ⟨trivial, (Led.reset h).tracked, (Led.reset h).order⟩
  | advance =>
    rcases advanced : n.advance env with ⟨_ | found, m⟩ <;>
      simp only [Node.perform, advanced] at fine ⊢
    · exact absurd rfl fine
    · have led := advanceWithin_leads shared env _ places n m found h advanced
      exact ⟨led.honest, led.tracked, led.order⟩
  | take =>
    have led := Led.take h
    rcases taken : n.take with ⟨_ | row, m⟩ <;> simp only [Node.perform, taken] at fine led ⊢
    · exact absurd rfl fine
    · exact ⟨trivial, led.tracked, led.order⟩

/-- A run without failures makes honest moves, and all nodes still remember what they should. -/
theorem Tracked.occur {now : Env × Node} {order : AttributeOrder} (events : List Event)
    (tracked : now.2.Tracked shared places) (same : now.2.scan.order = order)
    (known : ∀ context firstChanged, .step (.seek context firstChanged) ∈ events →
      context.Within order.vars) (fine : .failed ∉ repliesAlong now events) :
    AllHonest shared places (movesAlong now events) ∧
      (events.foldl Node.occur now).2.Tracked shared (places.after (movesAlong now events)) := by
  induction events generalizing now places with
  | nil => exact ⟨trivial, tracked⟩
  | cons event rest ih =>
    have known' : ∀ context firstChanged, .step (.seek context firstChanged) ∈ rest →
        context.Within order.vars :=
      fun context firstChanged member => known context firstChanged (List.mem_cons_of_mem _ member)
    cases event with
    | cancel => exact ih tracked same known' fine
    | step step =>
      obtain ⟨first, others⟩ := not_or.1 (mt List.mem_cons.2 fine)
      obtain ⟨honest, tracked', order'⟩ := tracked.perform now.1
        (fun context firstChanged here => same ▸ known context firstChanged (here ▸ List.mem_cons_self))
        (Ne.symm first)
      obtain ⟨honest', tracked''⟩ := ih tracked' (order'.trans same) known' others
      refine ⟨allHonest_append.2 ⟨honest, honest'⟩, ?_⟩
      rw [movesAlong, Whereabouts.after_append]
      exact tracked''

theorem MadeOf.tracked_along {kind : Scan → Prop} (made : n.MadeOf kind) (d : Dataset)
    (incoming : AttributeOrder) (events : List Event)
    (known : ∀ context firstChanged, .step (.seek context firstChanged) ∈ events →
      context.Within incoming.vars)
    (fine : .failed ∉ repliesAlong ({ dataset := d }, (n.init d incoming).2) events) :
    let log := movesAlong ({ dataset := d }, (n.init d incoming).2) events
    AllHonest (n.init d incoming).1 .unknown log ∧
      (events.foldl Node.occur ({ dataset := d }, (n.init d incoming).2)).2.Tracked
        (n.init d incoming).1 (Whereabouts.unknown.after log) := by
  have settled : incoming.vars ⊆ (n.init d incoming).2.scan.order.vars := by
    rw [init_eq, Scan.order_init]
    exact (Scan.isPrefix_order_init ..).subset
  exact (made.atRest.tracked_init d incoming List.prefix_rfl).occur events rfl
    (fun context firstChanged member => (known context firstChanged member).mono settled) fine

theorem Tracked.down {path : List Nat} {i : Nat} {m : Node} (h : n.Tracked shared places)
    (found : n.down? (i :: path) = some m) :
    m.context = (places (i :: path)).getD ∅ ∨ m.neverMatches = true := by
  induction path generalizing n i places with
  | nil =>
    obtain ⟨w, here, ⟨⟩⟩ := Option.bind_eq_some_iff.1 found
    exact (h.children (w, i) (List.mem_zipIdx_iff_getElem?.2 here)).1.here
  | cons j path ih =>
    obtain ⟨w, here, further⟩ := Option.bind_eq_some_iff.1 found
    exact ih (h.children (w, i) (List.mem_zipIdx_iff_getElem?.2 here)).2 further

/-! ## Main statements -/

/-- After a run without failures every node below the root stands where it was moved last, unless it
never matches and so is never moved at all. -/
theorem context_after_moves {kind : Scan → Prop} (made : n.MadeOf kind) (d : Dataset)
    (incoming : AttributeOrder) (events : List Event)
    (known : ∀ context firstChanged, .step (.seek context firstChanged) ∈ events →
      context.Within incoming.vars) :
    let start : Env × Node := ({ dataset := d }, (n.init d incoming).2)
    .failed ∉ repliesAlong start events →
      ∀ i path m, (events.foldl Node.occur start).2.down? (i :: path) = some m →
        m.context = (Whereabouts.unknown.after (movesAlong start events) (i :: path)).getD ∅ ∨
          m.neverMatches = true := by
  intro start fine i path m found
  exact (made.tracked_along d incoming events known fine).2.down found

/-- In a run without failures, the root of a settled tree may be opened, moved within the order that it
was settled with, reset, advanced and taken from in any order, and cancelled. Whenever a node of the
tree moves one of its children with a hint, the new context agrees with the one that this child was last
moved to on all variables of the shared order before the hint. Whatever the child inherits from a place
behind the order of its parent has no value in either. The child still is where it was last moved to,
unless it never matches and so is never moved at all. -/
theorem hints_honest {kind : Scan → Prop} (made : n.MadeOf kind) (d : Dataset)
    (incoming : AttributeOrder) (events : List Event)
    (known : ∀ context firstChanged, .step (.seek context firstChanged) ∈ events →
      context.Within incoming.vars) :
    let shared := (n.init d incoming).1
    let start : Env × Node := ({ dataset := d }, (n.init d incoming).2)
    .failed ∉ repliesAlong start events →
      ∀ earlier move later, movesAlong start events = earlier ++ move :: later →
        let last := Whereabouts.unknown.after earlier move.path
        (∀ old, last = some old → shared.Unchanged old move.context move.firstChanged) ∧
        (∀ v p, (v, p) ∈ move.child.scan.inherited → move.parent.scan.order.size ≤ p →
          move.context.get? v = none ∧ ∀ old, last = some old → old.get? v = none) ∧
        (move.child.context = last.getD ∅ ∨ move.child.neverMatches = true) := by
  intro shared start fine earlier move later split last
  have honest := (made.tracked_along d incoming events known fine).1
  rw [split, allHonest_append] at honest
  obtain ⟨unchanged, unbound, here⟩ := honest.2.1
  exact ⟨unchanged, unbound, here⟩

/-- One own row is dropped, windows hold one row each, and the child of the first child is moved anew when
that one starts over. In the end the second child is moved from one own row to the next; it inherits a
variable of the first child, for which no context has a value. -/
theorem hints_honest_siblings :
    let d := (Dataset.empty.addAll [⟨.iri "a", .iri "p", .iri "b", none⟩,
      ⟨.iri "a", .iri "p", .iri "e", none⟩, ⟨.iri "a", .iri "p", .iri "f", none⟩,
      ⟨.iri "b", .iri "q", .iri "c", none⟩, ⟨.iri "b", .iri "q", .iri "g", none⟩,
      ⟨.iri "c", .iri "r", .iri "h", none⟩, ⟨.iri "g", .iri "r", .iri "h", none⟩]).2
    let node (s p o : String) : Node := ofScan (.index
      { pattern := ⟨[.triple (.var ⟨s⟩) (.term (.iri p)) (.var ⟨o⟩)]⟩ }) 1
    let top := (node "s" "p" "o").addFilter (.compare .ne (.var ⟨"o"⟩) (.const (.iri "e")))
    let n := (top.addChild ((node "o" "q" "x").addChild (node "x" "r" "z"))).addChild
      (node "x" "r" "y")
    let events : List Event := .step .open ::
      ((List.replicate 6 [.step .advance, .step .take]).flatten ++ [.step .advance])
    let log := movesAlong ({ dataset := d }, (n.init d ∅).2) events
    let old := Binding.ofRow [⟨"s"⟩, ⟨"o"⟩] [1, 3]
    let new := Binding.ofRow [⟨"s"⟩, ⟨"o"⟩] [1, 5]
    log.map (fun m => (m.path, m.firstChanged)) = [([0], 0), ([0, 0], 0), ([0, 0], 2), ([1], 0),
      ([0, 0], 2), ([0, 0], 2), ([0], 1), ([1], 1)] ∧
    ∃ earlier move, log = earlier ++ [move] ∧ move.context = new ∧
      Whereabouts.unknown.after earlier move.path = some old ∧
      (n.init d ∅).1.Unchanged old new 1 ∧ (⟨"x"⟩, 2) ∈ move.child.scan.inherited ∧
      move.parent.scan.order.size = 2 ∧ new.get? ⟨"x"⟩ = none ∧ old.get? ⟨"x"⟩ = none ∧
      move.child.context = old := by
  intro d node top n events log old new
  have leaf (s p o : String) : (node s p o).MadeOf fun _ => True := .ofScan trivial 1
  have made : n.MadeOf fun _ => True :=
    .addChild (.addChild (.addFilter (leaf ..) _) (.addChild (leaf ..) (leaf ..))) (leaf ..)
  have listed : log.map (fun m => (m.path, m.firstChanged)) = [([0], 0), ([0, 0], 0), ([0, 0], 2),
      ([1], 0), ([0, 0], 2), ([0, 0], 2), ([0], 1), ([1], 1)] := by decide +kernel
  have fine : .failed ∉ repliesAlong ({ dataset := d }, (n.init d ∅).2) events := by decide +kernel
  have known : ∀ context firstChanged, .step (.seek context firstChanged) ∈ events →
      context.Within (∅ : AttributeOrder).vars :=
    fun context firstChanged member => by simp [events] at member
  have seen : log[7]?.map (fun m => (m.context, Whereabouts.unknown.after (log.take 7) m.path,
      m.firstChanged, decide ((⟨"x"⟩, 2) ∈ m.child.scan.inherited), m.parent.scan.order.size,
      m.child.neverMatches)) = some (new, some old, 1, true, 2, false) := by decide +kernel
  obtain ⟨move, there, facts⟩ := Option.map_eq_some_iff.1 seen
  simp only [Prod.mk.injEq, decide_eq_true_eq] at facts
  obtain ⟨moved, before, hint, inherits, size, willing⟩ := facts
  have split : log = log.take 7 ++ [move] := by
    have all : log.take (7 + 1) = log := List.take_of_length_le (by decide +kernel)
    rw [List.take_add_one, there] at all
    exact all.symm
  obtain ⟨unchanged, unbound, here⟩ :=
    hints_honest made d ∅ events known fine (log.take 7) move [] split
  rw [before] at unchanged unbound here
  rw [moved] at unchanged unbound
  rw [hint] at unchanged
  obtain ⟨unboundNew, unboundOld⟩ := unbound _ _ inherits (Nat.le_of_eq size)
  exact ⟨listed, log.take 7, move, split, moved, before, unchanged old rfl, inherits, size, unboundNew,
    unboundOld old rfl, here.resolve_right (Bool.eq_false_iff.1 willing)⟩

end Node

end QuadQuery
