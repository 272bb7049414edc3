import QuadQuery.Proofs.JoinTree.Refusing

/-!
# Following the twin

A turn of a node whose scan refuses now and then is the twin's turn, or it fails
(`Node.find_cases`, `Node.extend_cases`). From the turns, the loop, and from the loop a whole
advance (`Node.advanceWithin_follows`).
-/

namespace QuadQuery

/-! ## Turns of the loop -/

namespace Node

variable {d : Dataset} {V : List Variable} {K : Row} {n n' m m' : Node} {env : Env}
  {advance : Advance} {context : Binding}

theorem nextCombination_follows (follows : FollowsTwins d V K advance) (serves : Serves d advance)
    (twin : Twin n m) (room : 0 < m.capacity)
    (swapped : Window.Swapped (Mirrors V K) n.children m.children)
    (stand : Window.AllStand d context m.children) (shows : context.Shows V K) :
    (∃ failure children stats,
      n.nextCombination advance = (.error failure, { n with children, stats }) ∧
      Window.AllBroken d V K m.children children) ∨
    ∃ found ws vs stats stats',
      n.nextCombination advance = (.ok found, { n with children := ws, stats }) ∧
      m.nextCombination advance = (.ok found, { m with children := vs, stats := stats' }) ∧
      Window.Swapped (Mirrors V K) ws vs ∧ vs.length = m.children.length := by
  have spec := Window.moveFirst_spec serves room stand
  unfold nextCombination
  dsimp only
  rw [← twin.capacity]
  rcases Window.moveFirst_follows follows serves room swapped stand with
    ⟨failure, moved, broken⟩ | ⟨found, moved, moved', lower, upper⟩
  · rw [moved]
    exact .inl ⟨failure, _, _, rfl, broken⟩
  · rw [moved'] at spec
    obtain stuck | ⟨_, step⟩ := spec
    · cases stuck
    rw [moved, moved']
    cases found with
    | false =>
      exact .inr ⟨false, _, _, _, _, rfl, rfl, lower.append upper, step.alike.length_eq.symm⟩
    | true =>
      obtain ⟨stand, stand'⟩ := List.forall_mem_append.1 step.stand
      dsimp only
      rcases Window.rewindAll_follows follows serves room lower stand shows with
        ⟨failure, ws, rewound, broken⟩ | ⟨ws, vs, rewound, rewound', swapped'⟩
      · rw [rewound]
        have untouched :=
          Window.AllBroken.of_shadows upper.shadows fun v member => (stand' v member).1
        have onward := Window.onward_all step.stand step.alike shows
        exact .inl ⟨failure, _, _, rfl, .of_onward onward (List.rel_append broken untouched)⟩
      · have started := reached_of_ok (Window.rewindAll_spec serves room stand) rewound'
        rw [rewound, rewound']
        refine .inr ⟨true, _, _, _, _, rfl, rfl, swapped'.append upper, ?_⟩
        rw [List.length_append, ← started.length_eq, ← List.length_append, step.alike.length_eq]

section Find

variable {ids : Row} {scan : Scan} {own : Binding} {children : List (Window Node)}

/-- An own row that the filters drop leaves everything but the scan as it is. -/
theorem find_of_missed (advance : Advance)
    (drawn : n.scan.next? env.cancelled = some (ids, scan)) (row : own = .ofRow n.attributes ids)
    (misses : passes env.dataset ∅ n.preFilters own = false) :
    ∃ stats, n.find env advance = (.ok (), { n with scan, stats }) := by
  obtain ⟨stats, checked⟩ := checkPre_eq env.dataset own
    { n with scan, stats.ownRows := n.stats.ownRows + 1 }
  refine ⟨stats, ?_⟩
  unfold passes at misses
  unfold find
  simp only [drawn, ← row, checked, misses]

/-- A child that fails leaves the record of where the children are as it was. -/
theorem find_of_failed (drawn : n.scan.next? env.cancelled = some (ids, scan))
    (row : own = .ofRow n.attributes ids) (holds : passes env.dataset ∅ n.preFilters own = true)
    {failure : Failure} (loaded : Window.loadAll env advance (own.extendAbsent n.context)
      (scan.order.firstChanged n.childContext (own.extendAbsent n.context)) n.capacity n.children
        = (.error failure, children)) :
    ∃ stats, n.find env advance = (.error failure, { n with scan, children, stats }) := by
  obtain ⟨stats, checked⟩ := checkPre_eq env.dataset own
    { n with scan, stats.ownRows := n.stats.ownRows + 1 }
  refine ⟨stats, ?_⟩
  unfold passes at holds
  unfold find
  simp only [drawn, ← row, checked, holds, loaded]

/-- Once the children are at the own row their first combination is judged. -/
theorem find_of_loaded (drawn : n.scan.next? env.cancelled = some (ids, scan))
    (row : own = .ofRow n.attributes ids) (holds : passes env.dataset ∅ n.preFilters own = true)
    (loaded : Window.loadAll env advance (own.extendAbsent n.context)
      (scan.order.firstChanged n.childContext (own.extendAbsent n.context)) n.capacity n.children
        = (.ok (), children)) :
    ∃ stats, n.find env advance = (.ok (), { n with
      scan, children, own, stats
      state := if passes env.dataset n.context n.postFilters (combined own children)
        then .ready (phaseFor children) else .active (phaseFor children)
      extended := combined own children, childContext := some (own.extendAbsent n.context) }) := by
  obtain ⟨stats, checked⟩ := checkPre_eq env.dataset own
    { n with scan, stats.ownRows := n.stats.ownRows + 1 }
  obtain ⟨stats', checked'⟩ := checkPost_eq env.dataset (combine { n with
    scan, children, own, stats, childContext := some (own.extendAbsent n.context) })
  refine ⟨stats', ?_⟩
  unfold passes at holds
  unfold find
  simp only [drawn, ← row, checked, holds, loaded, checked']
  cases judged : passes env.dataset n.context n.postFilters (combined own children) <;>
  · unfold passes at judged
    simp only [combine, judged]
    rfl

/-- What the next own row comes to for a node and its twin, whose children are about to do the same
at this row. -/
theorem find_cases (follows : FollowsTwins env.dataset V K advance)
    (serves : Serves env.dataset advance) (live : env.cancelled = false) (twin : Twin n m)
    (settled : m.Valid env.dataset) (drawn : n.scan.next? false = some (ids, scan))
    (drawn' : m.scan.next? false = some (ids, scan.lenient))
    (order : scan.lenient.order = m.scan.order) (row : own = .ofRow n.attributes ids)
    (shows : m.children ≠ [] → (own.extendAbsent n.context).Shows V K)
    (hinted : Hinted V K m n.childContext)
    (shadows : n.children.Forall₂ (fun w v => Shadows V K True w.node v.node) m.children) :
    (∃ stats stats', n.find env advance = (.ok (), { n with scan, stats }) ∧
      m.find env advance = (.ok (), { m with scan := scan.lenient, stats := stats' })) ∨
    (∃ failure children stats,
      n.find env advance = (.error failure, { n with scan, children, stats }) ∧
      Window.AllBroken env.dataset V K m.children children) ∨
    ∃ ws vs stats stats' state,
      (state = .ready (phaseFor ws) ∨ state = .active (phaseFor ws)) ∧
      n.find env advance = (.ok (), { n with
        scan, children := ws, own, stats, state, extended := combined own ws
        childContext := some (own.extendAbsent n.context) }) ∧
      m.find env advance = (.ok (), { m with
        scan := scan.lenient, children := vs, own, stats := stats', state
        extended := combined own ws, childContext := some (own.extendAbsent n.context) }) ∧
      Window.Swapped (Mirrors V K) ws vs ∧ vs.length = m.children.length := by
  rw [← live] at drawn drawn'
  have row' : own = .ofRow m.attributes ids := by rw [twin.attributes, row]
  cases passes : passes env.dataset ∅ n.preFilters own with
  | false =>
    obtain ⟨stats, found⟩ := find_of_missed advance drawn row passes
    obtain ⟨stats', found'⟩ := find_of_missed advance drawn' row'
      (by rw [twin.preFilters, passes])
    exact .inl ⟨stats, stats', found, found'⟩
  | true =>
    right
    have passes' : Node.passes env.dataset ∅ m.preFilters own = true := by
      rw [twin.preFilters, passes]
    have orders : scan.order = m.scan.order := by rw [← Scan.order_lenient, order]
    have hints : ∀ v ∈ m.children, v.node.neverMatches = false → v.node.scan.Positioned →
        v.node.scan.Unmoved v.node.context (own.extendAbsent n.context)
          (scan.order.firstChanged n.childContext (own.extendAbsent n.context)) := by
      intro v member
      rw [orders]
      exact hinted _ (shows (List.ne_nil_of_mem member)) v member
    have hints' := unmoved_children settled.standing settled.children (own.extendAbsent n.context)
    rw [← order] at hints'
    have room := settled.standing.capacity
    rcases Window.loadAll_follows follows serves room shadows settled.children shows hints hints'
      with ⟨failure, ws, loaded, broken⟩ | ⟨ws, vs, loaded, loaded', swapped⟩
    · rw [twin.capacity] at loaded
      obtain ⟨stats, found⟩ := find_of_failed drawn row passes loaded
      exact .inl ⟨failure, ws, stats, found, broken⟩
    · have started :=
        reached_of_ok (Window.loadAll_spec serves room settled.children hints') loaded'
      rw [twin.capacity] at loaded
      rw [← twin.context] at loaded'
      obtain ⟨stats, found⟩ := find_of_loaded drawn row passes loaded
      obtain ⟨stats', found'⟩ := find_of_loaded drawn' row' passes' loaded'
      refine .inr ⟨ws, vs, stats, stats', _, ?_, found, ?_, swapped, started.length_eq.symm⟩
      · split
        · exact .inl rfl
        · exact .inr rfl
      · have same : combined own vs = combined own ws := by
          rw [combined_eq, combined_eq, swapped.current]
        rw [found', twin.context, twin.postFilters, same, swapped.phaseFor_eq]

end Find

/-- Once the odometer has turned the next combination is judged. -/
theorem extend_of_next (env : Env) {children : List (Window Node)} {stats : NodeStats}
    (active : n.state = .active .extend)
    (turned : n.nextCombination advance = (.ok true, { n with children, stats })) :
    ∃ stats, n.extend env advance = (.ok (), { n with
      children, stats, extended := combined n.own children
      state := if passes env.dataset n.context n.postFilters (combined n.own children)
        then .ready .extend else .active .extend }) := by
  obtain ⟨stats', checked⟩ := checkPost_eq env.dataset (combine { n with children, stats })
  refine ⟨stats', ?_⟩
  unfold extend
  simp only [turned, checked]
  cases judged : passes env.dataset n.context n.postFilters (combined n.own children) <;>
  · unfold passes at judged
    simp only [combine, judged, active]
    rfl

/-- What the next turn of the odometer comes to for a node and its twin whose windows show the
same. -/
theorem extend_cases (follows : FollowsTwins env.dataset V K advance)
    (serves : Serves env.dataset advance) (twin : Twin n m) (own : m.own = n.own)
    (active : n.state = .active .extend) (active' : m.state = .active .extend)
    (room : 0 < m.capacity) (swapped : Window.Swapped (Mirrors V K) n.children m.children)
    (stand : Window.AllStand env.dataset context m.children) (shows : context.Shows V K) :
    (∃ failure children stats,
      n.extend env advance = (.error failure, { n with children, stats }) ∧
      Window.AllBroken env.dataset V K m.children children) ∨
    (∃ ws vs stats stats',
      n.extend env advance = (.ok (), { n with children := ws, stats, state := .active .find }) ∧
      m.extend env advance
        = (.ok (), { m with children := vs, stats := stats', state := .active .find }) ∧
      Window.Swapped (Mirrors V K) ws vs ∧ vs.length = m.children.length) ∨
    ∃ ws vs stats stats' state,
      (state = .ready .extend ∨ state = .active .extend) ∧
      n.extend env advance
        = (.ok (), { n with children := ws, stats, state, extended := combined n.own ws }) ∧
      m.extend env advance = (.ok (), { m with
        children := vs, stats := stats', state, extended := combined n.own ws }) ∧
      Window.Swapped (Mirrors V K) ws vs ∧ vs.length = m.children.length := by
  rcases nextCombination_follows follows serves twin room swapped stand shows with
    ⟨failure, ws, stats, turned, broken⟩ |
    ⟨found, ws, vs, stats, stats', turned, turned', swapped', length⟩
  · refine .inl ⟨failure, ws, stats, ?_, broken⟩
    rw [extend, turned]
  · cases found with
    | false =>
      refine .inr (.inl ⟨ws, vs, stats, stats', ?_, ?_, swapped', length⟩)
      · rw [extend, turned]
      · rw [extend, turned']
    | true =>
      obtain ⟨stats₁, extended⟩ := extend_of_next env active turned
      obtain ⟨stats₂, extended'⟩ := extend_of_next env active' turned'
      refine .inr (.inr ⟨ws, vs, stats₁, stats₂, _, ?_, extended, ?_, swapped', length⟩)
      · split
        · exact .inl rfl
        · exact .inr rfl
      · have same : combined m.own vs = combined n.own ws := by
          rw [own, combined_eq, combined_eq, swapped'.current]
        rw [extended', twin.context, twin.postFilters, same]

/-! ## The loop -/

/-- Rows of the dataset agree with the context on the variables that are known from further up. -/
theorem Below.shows_own (valid : d.Valid) (below : Below V m) (own : m.Standing d)
    (possible : m.neverMatches = false) {ids : Row} (member : ids ∈ m.scan.rest)
    (shows : m.context.Shows V K) (children : m.children ≠ []) :
    ((Binding.ofRow m.attributes ids).extendAbsent m.context).Shows V K := by
  cases scan : m.scan with
  | fixed s =>
    refine absurd (below.inner.resolve_left ?_) children
    rw [scan]
    exact Bool.false_ne_true
  | index s =>
    have there := (own.isSuffix_rowsAt possible).subset member
    have sound := own.sound
    rw [own.attributes]
    rw [scan] at there sound ⊢
    obtain ⟨length, _, agrees⟩ := (IndexScan.mem_rowsFor valid sound).1 there
    unfold Binding.Shows at shows ⊢
    rw [← shows]
    refine List.map_congr_left fun v known => ?_
    obtain ⟨id, value⟩ : ∃ id, m.context.get? v = some id := by
      have member : m.context.get? v ∈ K.map some := shows ▸ List.mem_map_of_mem known
      obtain ⟨id, _, same⟩ := List.mem_map.1 member
      exact ⟨id, same.symm⟩
    rw [Binding.get?_extendAbsent, value]
    cases here : (Binding.ofRow (Scan.index s).attributes ids).get? v with
    | none => rfl
    | some other =>
      have listed : v ∈ s.attributes :=
        (Binding.isSome_get?_ofRow length).1 (Option.isSome_of_eq_some here)
      have same := agrees v (below.inherits s scan v known listed) id value
      exact (here.symm.trans same : some other = some id)

/-- The twin hands out the same own row. -/
theorem Twin.next?_cons (twin : Twin n m) {ids : Row} {later : List Row}
    (rows : m.scan.rest = ids :: later) (d : Dataset) :
    ∃ scan : Scan, n.scan.next? false = some (ids, scan) ∧
      m.scan.next? false = some (ids, scan.lenient) ∧ Drew d m ids scan.lenient := by
  obtain ⟨scan', drawn, blank, same, rfl, stands, positioned⟩ := Scan.next?_cons rows d m.context
  have both : (n.scan.next? false).map (fun drawn => (drawn.1, drawn.2.lenient))
      = some (ids, scan') := by
    rw [← Scan.next?_lenient, ← twin.scan, drawn]
  obtain ⟨⟨ids', scan⟩, drawn', pair⟩ := Option.map_eq_some_iff.1 both
  cases pair
  exact ⟨scan, drawn', drawn, rows, blank, same, stands, positioned⟩

theorem Twin.next?_nil (twin : Twin n m) (rows : m.scan.rest = []) :
    n.scan.next? false = none ∧ m.scan.next? false = none := by
  have none : m.scan.next? false = none := Scan.next?_nil rows
  refine ⟨?_, none⟩
  rw [twin.scan, Scan.next?_lenient, Option.map_eq_none_iff] at none
  exact none

/-- A node that goes on with its next own row, wherever its children have been moved to. -/
theorem Valid.retry (settled : m.Valid d) (possible : m.neverMatches = false) {scan : Scan}
    (blank : scan.blank = m.scan.blank) (stands : scan.At d m.context)
    (rest : scan.rest <:+ scan.rows) {vs : List (Window Node)}
    (onward : m.children.Forall₂ (fun v v' => Onward d V K v.node v'.node) vs) :
    let m' : Node :=
      { m with scan, children := vs, childContext := none, state := .active .find }
    m'.Valid d ∧ Alike d m m' := by
  have alikes : m.children.Forall₂ (fun v v' => Alike d v.node v'.node) vs :=
    onward.imp fun _ _ moved => moved.alike
  have own := settled.standing
  refine ⟨.intro ?_ (forall_mem_of_forall₂ onward fun _ _ _ moved => moved.valid), ?_⟩
  · exact own.of_blank blank (fun _ => stands) rest ⟨rfl, rfl, rfl, rfl⟩
      (fun never => absurd (possible.symm.trans never) Bool.false_ne_true)
      (orders_of_alike alikes own.orders)
      (fun _ nowhere => absurd nowhere (Option.some_ne_none _).symm)
      fun combines => absurd combines NodeState.not_combines_find
  · exact .of_children blank rfl rfl rfl alikes

/-- What is left of a node when a child has failed. -/
theorem Shadows.broken_children {right : Prop} (h : Shadows V K right n m) (settled : m.Valid d)
    (possible : m.neverMatches = false) {scan : Scan} (blank : scan.lenient.blank = m.scan.blank)
    (stands : scan.lenient.At d m.context) (rest : scan.lenient.rest <:+ scan.lenient.rows)
    {ws : List (Window Node)} (broken : Window.AllBroken d V K m.children ws) (stats : NodeStats) :
    Broken d V K m { n with scan, children := ws, stats } := by
  obtain ⟨vs, onward, shadows⟩ := broken.exists_twins
  obtain ⟨settled', alike⟩ := settled.retry possible blank stands rest onward
  refine ⟨_, ⟨settled', alike, fun _ => .inl rfl⟩, ?_⟩
  exact .of_children (h.twin.move scan) (h.beneath.of_blank blank onward.length_eq.symm)
    (Dated.onward h.dated onward) False.elim shadows

/-- Without children there is nothing to combine. -/
theorem ne_nil_of_combines {ws vs : List (Window Node)} {R : Node → Node → Prop}
    {state : NodeState} (swapped : Window.Swapped R ws vs)
    (judged : state = .ready (phaseFor ws) ∨ state = .active (phaseFor ws))
    (combines : state.combines) : vs ≠ [] := by
  rintro rfl
  cases swapped
  rcases judged with rfl | rfl
  · exact NodeState.not_combines_find combines
  · exact NodeState.not_combines_find combines

/-- Nodes that have their children at the same own row do the same with them. -/
theorem Mirrors.of_swapped (twin : Twin n m) (below : Below V m) (settled : m.Valid d)
    (state : m.state = n.state)
    (pending : ∀ phase, n.state = .ready phase → m.extended = n.extended) (own : m.own = n.own)
    (remembered : m.childContext = n.childContext)
    (place : m.childContext = some (m.own.extendAbsent m.context))
    (here : m.neverMatches = false → m.context.Shows V K)
    (shows : m.children ≠ [] → (m.own.extendAbsent m.context).Shows V K)
    (combines : n.state.combines → (m.own.extendAbsent m.context).Shows V K)
    (swapped : Window.Swapped (Mirrors V K) n.children m.children) : Mirrors V K n m := by
  have shadows : Shadows V K True n m := by
    refine .of_children twin below (fun old same v member => ?_) (fun _ => ?_) swapped.shadows
    · exact dated_remembered settled place (shows (List.ne_nil_of_mem member)) old
        (remembered.trans same) v member
    · rw [← remembered]
      exact hinted_remembered settled
  exact .intro shadows state pending here (fun now => ⟨own, remembered, combines now⟩)
    fun _ => swapped

theorem find_follows (valid : env.dataset.Valid) (live : env.cancelled = false)
    (follows : FollowsTwins env.dataset V K advance) (serves : Serves env.dataset advance)
    (settled : m.Valid env.dataset) (mirrors : Mirrors V K n m) (active : n.state = .active .find) :
    Follows env.dataset V K m (n.find env advance) (m.find env advance) := by
  have shadows := mirrors.shadows
  have twin := shadows.twin
  have active' : m.state = .active .find := mirrors.state.trans active
  have own := settled.standing
  have possible := possible_of_active own active'
  have shows := mirrors.shows
  cases rows : m.scan.rest with
  | nil =>
    obtain ⟨none, none'⟩ := twin.next?_nil rows
    unfold find
    rw [live, none, none']
    refine .inr ⟨(), _, _, rfl, rfl, Mirrors.of_idle ?_ rfl (.inr rfl) shows⟩
    exact shadows.of_same twin.stay rfl rfl rfl rfl
  | cons ids later =>
    obtain ⟨scan, drawn, drawn', drew⟩ := twin.next?_cons rows env.dataset
    have shows' := shadows.beneath.shows_own valid own possible (rows ▸ List.mem_cons_self)
      (shows possible)
    rw [twin.attributes, twin.context] at shows'
    have order : scan.lenient.order = m.scan.order := Scan.order_of_blank drew.blank
    rcases find_cases follows serves live twin settled drawn drawn' order rfl shows' shadows.hinted
      shadows.children with ⟨stats, stats', found, found'⟩ | ⟨failure, ws, stats, found, broken⟩ |
        ⟨ws, vs, stats, stats', state, judged, found, found', swapped, length⟩
    · rw [found, found']
      refine .inr ⟨(), _, _, rfl, rfl, Mirrors.of_idle ?_ mirrors.state (.inl active) shows⟩
      exact shadows.of_same (twin.move scan) drew.blank rfl rfl rfl
    · rw [found]
      exact .inl ⟨failure, _, rfl, shadows.broken_children settled possible drew.blank
        (drew.stands (own.stands possible)) (drew.isSuffix own) broken stats⟩
    · have shows'' (some : vs ≠ []) :
          ((Binding.ofRow n.attributes ids).extendAbsent m.context).Shows V K := by
        rw [twin.context]
        rw [← List.length_pos_iff, length] at some
        exact shows' (List.ne_nil_of_length_pos some)
      have turned := reached_of_ok (find_spec valid live serves settled active') found'
      rw [found, found']
      refine .inr ⟨(), _, _, rfl, rfl, Mirrors.of_swapped (twin.move scan) ?_
        turned.kept.valid rfl (fun _ _ => rfl) rfl rfl ?_ shows ?_ ?_ swapped⟩
      · exact shadows.beneath.of_blank drew.blank length
      · exact congrArg (fun context => some (Binding.extendAbsent _ context)) twin.context.symm
      · exact shows''
      · exact fun combines => shows'' (ne_nil_of_combines swapped judged combines)

theorem extend_follows (follows : FollowsTwins env.dataset V K advance)
    (serves : Serves env.dataset advance) (settled : m.Valid env.dataset)
    (mirrors : Mirrors V K n m) (active : n.state = .active .extend) :
    Follows env.dataset V K m (n.extend env advance) (m.extend env advance) := by
  have shadows := mirrors.shadows
  have twin := shadows.twin
  have active' : m.state = .active .extend := mirrors.state.trans active
  have own := settled.standing
  have possible := possible_of_active own active'
  have combines : n.state.combines := by rw [active]; exact rfl
  obtain ⟨row, swapped⟩ := mirrors.combined combines
  obtain ⟨place, stands⟩ := own.windows (by rw [active']; exact rfl)
  have stand : Window.AllStand env.dataset (m.own.extendAbsent m.context) m.children :=
    fun v member => ⟨settled.children v member, stands v member⟩
  have spec := extend_spec serves settled active'
  rcases extend_cases follows serves twin row.own active active' own.capacity swapped stand
    row.shows with ⟨failure, ws, stats, extended, broken⟩ |
      ⟨ws, vs, stats, stats', extended, extended', swapped', length⟩ |
      ⟨ws, vs, stats, stats', state, judged, extended, extended', swapped', length⟩
  · rw [extended]
    refine .inl ⟨failure, _, rfl, ?_⟩
    have scan : n.scan.lenient = m.scan := twin.scan.symm
    exact shadows.broken_children settled possible (congrArg Scan.blank scan)
      (scan ▸ own.stands possible) (scan ▸ own.rest) broken stats
  · have settled' := (reached_of_ok spec extended').kept.valid
    rw [extended, extended']
    refine .inr ⟨(), _, _, rfl, rfl, Mirrors.of_swapped twin.stay
      (shadows.beneath.of_blank rfl length) settled' rfl (fun phase ready => ?_) row.own
      row.remembered place mirrors.shows (fun _ => row.shows) (fun _ => row.shows) swapped'⟩
    cases ready
  · have settled' := (reached_of_ok spec extended').kept.valid
    rw [extended, extended']
    exact .inr ⟨(), _, _, rfl, rfl, Mirrors.of_swapped twin.stay
      (shadows.beneath.of_blank rfl length) settled' rfl (fun _ _ => rfl) row.own row.remembered
      place mirrors.shows (fun _ => row.shows) (fun _ => row.shows) swapped'⟩

/-- Whatever the budget, advancing a node fails or comes to the same as for its twin. -/
theorem advanceWithin_follows (valid : env.dataset.Valid) (live : env.cancelled = false)
    (budget : Nat) : FollowsTwins env.dataset V K (advanceWithin env budget) := by
  induction budget with
  | zero => exact fun n m settled mirrors => .inl ⟨_, n, rfl, mirrors.shadows.broken settled⟩
  | succ budget ih =>
    intro n m settled mirrors
    have serves := advanceWithin_spec valid live budget
    have same := mirrors.state
    -- What a turn has left goes on in step with the twin.
    have goOn : ∀ n' m', Turned env.dataset m m' → Mirrors V K n' m' →
        Follows env.dataset V K m (n'.advanceWithin env budget) (m'.advanceWithin env budget) := by
      intro n' m' turned mirrors'
      rcases ih n' m' turned.kept.valid mirrors' with ⟨failure, n'', advanced, broken⟩ | same
      · exact .inl ⟨failure, n'', advanced, broken.of_onward turned.kept.onward⟩
      · exact .inr same
    unfold advanceWithin
    rw [same]
    cases state : n.state with
    | exhausted => exact .inr ⟨false, n, m, rfl, rfl, mirrors⟩
    | ready phase => exact .inr ⟨true, n, m, rfl, rfl, mirrors⟩
    | active phase =>
      cases phase with
      | find =>
        have spec := find_spec valid live serves settled (same.trans state)
        rcases find_follows valid live ih serves settled mirrors state with
          ⟨failure, n', found, broken⟩ | ⟨_, n', m', found, found', mirrors'⟩
        · simp only [found]
          exact .inl ⟨failure, n', rfl, broken⟩
        · simp only [found, found']
          exact goOn n' m' (reached_of_ok spec found') mirrors'
      | extend =>
        have spec := extend_spec serves settled (same.trans state)
        rcases extend_follows ih serves settled mirrors state with
          ⟨failure, n', extended, broken⟩ | ⟨_, n', m', extended, extended', mirrors'⟩
        · simp only [extended]
          exact .inl ⟨failure, n', rfl, broken⟩
        · simp only [extended, extended']
          exact goOn n' m' (reached_of_ok spec extended') mirrors'

end Node

end QuadQuery
