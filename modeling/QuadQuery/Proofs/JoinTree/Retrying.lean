import QuadQuery.Proofs.JoinTree.Cancellation
import QuadQuery.Proofs.JoinTree.Following

/-!
# Advancing again after a failure

A child whose scan refuses to be moved makes the root fail. If the root was about to draw an own
row, it can be advanced again: the own row is lost, and what is handed out afterwards are rows of
the tree (`Node.retried_sublist`). Rows may be wrong once the root is started over instead, for it
still remembers an earlier row than the one that its children are at
(`Node.reset_after_failure_not_mem`).
-/

namespace QuadQuery

namespace Node

variable {d : Dataset} {V : List Variable} {K : Row} {n n' m m' : Node} {env : Env}
  {advance : Advance} {steps : List Step}

/-! ## The root and its twin -/

/-- The root scans the dataset without any context, and its attributes are `V`. -/
structure Apex (V : List Variable) (m : Node) : Prop where
  dataset : m.scan.needsPlace = true
  here : m.context = ∅
  vars : m.scan.attributes = V
  longer : V <+: m.scan.order.vars

/-- The children can be moved to the row `K` with hints that are right. -/
structure Awaits (V : List Variable) (K : Row) (n m : Node) : Prop where
  dated : Dated V K m n.childContext
  hinted : Hinted V K m n.childContext
  shadows : n.children.Forall₂ (fun w v => Shadows V K True w.node v.node) m.children

/-- The root and its twin are about to do the same, now and with all own rows that are left. -/
structure Paired (d : Dataset) (V : List Variable) (n m : Node) : Prop where
  twin : Twin n m
  settled : m.Valid d
  apex : Apex V m
  state : m.state = n.state
  pending : ∀ phase, n.state = .ready phase → m.extended = n.extended
  awaits : ∀ ids ∈ m.scan.rest, Awaits V ids n m
  shadows : ∃ K, n.children.Forall₂ (fun w v => Shadows V K False w.node v.node) m.children
  row : n.state.combines → ∃ K, (∀ ids ∈ m.scan.rest, K < ids) ∧ SameRow V K n m ∧
    Window.Swapped (Mirrors V K) n.children m.children

theorem Apex.of_blank (h : Apex V m) (blank : m'.scan.blank = m.scan.blank)
    (context : m'.context = m.context) : Apex V m' where
  dataset := by rw [Scan.needsPlace_of_blank blank, h.dataset]
  here := by rw [context, h.here]
  vars := by rw [Scan.attributes_of_blank blank, h.vars]
  longer := by rw [Scan.order_of_blank blank]; exact h.longer

/-- The rows of the root come in ascending order. -/
theorem Apex.ascending (h : Apex V m) (own : m.Standing d) (possible : m.neverMatches = false) :
    m.scan.rest.Pairwise (· < ·) := by
  have suffix := own.isSuffix_rowsAt possible
  have dataset := h.dataset
  cases scan : m.scan with
  | fixed s =>
    rw [scan] at dataset
    cases dataset
  | index s =>
    rw [scan] at suffix
    exact (IndexScan.ascending_rowsFor s d _).sublist suffix.sublist

/-- The contexts that the root hands to its children show its rows. -/
theorem Apex.shows (h : Apex V m) (valid : d.Valid) (own : m.Standing d)
    (possible : m.neverMatches = false) {ids : Row} (member : ids ∈ m.scan.rest) :
    ((Binding.ofRow m.attributes ids).extendAbsent m.context).Shows V ids := by
  have there := (own.isSuffix_rowsAt possible).subset member
  have dataset := h.dataset
  have sound := own.sound
  have length := sound.length_eq valid there
  have distinct : V.Nodup := by
    rw [← h.vars]
    cases scan : m.scan with
    | fixed s =>
      rw [scan] at dataset
      cases dataset
    | index s =>
      rw [scan] at sound
      exact sound.distinct
  rw [h.vars] at length
  have values := mapM_eq_some_iff.1 (IndexScan.mapM_get?_ofRow distinct length)
  rw [own.attributes, h.vars, h.here]
  unfold Binding.Shows
  rw [← List.forall₂_eq_eq_eq, List.forall₂_map_left_iff, List.forall₂_map_right_iff]
  refine values.imp fun v id known => ?_
  rw [Binding.get?_extendAbsent, known]
  rfl

/-- Nothing but the order, the children and what is remembered for them matters. -/
theorem Awaits.of_same (h : Awaits V K n m) (order : m'.scan.order = m.scan.order)
    (remembered : n'.childContext = n.childContext) (ws : n'.children = n.children)
    (vs : m'.children = m.children) : Awaits V K n' m' := by
  refine ⟨fun old same w member => ?_, fun new shows w member => ?_, ws ▸ vs ▸ h.shadows⟩
  · exact h.dated old (remembered ▸ same) w (vs ▸ member)
  · rw [remembered, order]
    exact h.hinted new shows w (vs ▸ member)

/-- After a row of the root the children can be moved to any later one. -/
theorem Awaits.of_before {right : Prop} {later : Row} (longer : V <+: m.scan.order.vars)
    (settled : m.Valid d) (dated : Dated V K m n.childContext)
    (shadows : n.children.Forall₂ (fun w v => Shadows V K right w.node v.node) m.children)
    (after : K < later) : Awaits V later n m := by
  refine ⟨dated.mono after.le, dated.hinted after longer settled, ?_⟩
  obtain ⟨length, each⟩ := List.forall₂_iff_zip.1 shadows
  refine List.forall₂_iff_zip.2 ⟨length, fun member => ?_⟩
  exact (each member).renew (settled.children _ (List.of_mem_zip member).2) after

/-! ## Steps of the root -/

/-- A step leaves the root paired with a twin that has no other rows left than before. -/
def Resumes (d : Dataset) (V : List Variable) (m n' : Node) : Prop :=
  ∃ m', Paired d V n' m' ∧ Alike d m m' ∧ (m'.remaining d).Sublist (m.remaining d)

theorem Paired.resumes (h : Paired d V n m) : Resumes d V m n :=
  ⟨m, h, .refl m, .refl _⟩

/-- A step is such a step, or a child has failed at it in the midst of the combinations of an own
row. -/
def ResumesUnlessStuck (d : Dataset) (V : List Variable) (m : Node) {α : Type}
    (step : Except Failure α × Node) : Prop :=
  Resumes d V m step.2 ∨
    ∃ failure n', step = (.error failure, n') ∧ n'.state = .active .extend

/-- Drawing the next own row, whether a child fails at it or not. -/
theorem Paired.find (valid : env.dataset.Valid) (live : env.cancelled = false)
    (follows : ∀ K, FollowsTwins env.dataset V K advance) (serves : Serves env.dataset advance)
    (h : Paired env.dataset V n m) (active : n.state = .active .find) :
    Resumes env.dataset V m (n.find env advance).2 := by
  have twin := h.twin
  have active' : m.state = .active .find := h.state.trans active
  have own := h.settled.standing
  have possible := possible_of_active own active'
  cases rows : m.scan.rest with
  | nil =>
    obtain ⟨none, none'⟩ := twin.next?_nil rows
    have found : n.find env advance = (.ok (), { n with state := .exhausted }) := by
      rw [Node.find, live, none]
    have turned := turned_of_end h.settled active' rows
    rw [found]
    refine ⟨_, ⟨?_, turned.kept.valid, h.apex.of_blank rfl rfl, rfl, fun phase ready => ?_,
      fun ids member => ?_, h.shadows, fun combines => ?_⟩, turned.kept.alike, ?_⟩
    · exact twin.stay
    · cases ready
    · exact absurd (rows ▸ member) List.not_mem_nil
    · exact absurd combines NodeState.not_combines_exhausted
    · rw [turned.remaining]
  | cons ids later =>
    obtain ⟨scan, drawn, drawn', drew⟩ := twin.next?_cons rows env.dataset
    have member : ids ∈ m.scan.rest := rows ▸ List.mem_cons_self
    have awaits := h.awaits ids member
    have shows := h.apex.shows valid own possible member
    rw [twin.attributes] at shows
    have shows' := shows
    rw [twin.context] at shows
    have order : scan.lenient.order = m.scan.order := Scan.order_of_blank drew.blank
    have ascending := h.apex.ascending own possible
    rw [rows] at ascending
    obtain ⟨after, _⟩ := List.pairwise_cons.1 ascending
    have rest : scan.lenient.rest = later := by
      have first := drew.first
      rw [rows] at first
      exact (List.cons.inj first).2.symm
    rcases find_cases (follows ids) serves live twin h.settled drawn drawn' order rfl
      (fun _ => shows) awaits.hinted awaits.shadows with
        ⟨stats, stats', found, found'⟩ | ⟨failure, ws, stats, found, broken⟩ |
        ⟨ws, vs, stats, stats', state, judged, found, found', swapped, length⟩
    · have turned := reached_of_ok (find_spec valid live serves h.settled active') found'
      rw [found]
      refine ⟨_, ⟨?_, turned.kept.valid, h.apex.of_blank drew.blank rfl, h.state, h.pending,
        fun ids' member => ?_, h.shadows, fun combines => ?_⟩, turned.kept.alike, ?_⟩
      · exact twin.move scan
      · have there : ids' ∈ m.scan.rest := rows ▸ List.mem_cons_of_mem ids (rest ▸ member)
        exact (h.awaits ids' there).of_same order rfl rfl rfl
      · exact absurd (active ▸ combines) NodeState.not_combines_find
      · rw [turned.remaining]
    · obtain ⟨vs, onward, shadows⟩ := broken.exists_twins
      obtain ⟨settled', alike⟩ := h.settled.retry possible drew.blank
        (drew.stands (own.stands possible)) (drew.isSuffix own) onward
      have apex : Apex V { m with
          scan := scan.lenient, children := vs, childContext := none, state := .active .find } :=
        h.apex.of_blank drew.blank rfl
      rw [found]
      refine ⟨_, ⟨?_, settled', apex, active.symm, fun phase ready => ?_, fun ids' member => ?_,
        ⟨ids, shadows⟩, fun combines => ?_⟩, alike, ?_⟩
      · exact twin.move scan
      · cases active.symm.trans ready
      · exact .of_before apex.longer settled' (Dated.onward awaits.dated onward) shadows
          (after ids' (rest ▸ member))
      · exact absurd (active ▸ combines) NodeState.not_combines_find
      · have left : remaining env.dataset { m with
            scan := scan.lenient, children := vs, childContext := none, state := .active .find }
            = later.flatMap (m.rowsOf env.dataset m.context) := by
          rw [remaining_eq_fresh (.inl rfl), fresh, funext (alike.rowsOf m.context), rest]
        rw [left, remaining_eq_fresh (.inl active'), fresh, rows, List.flatMap_cons]
        exact List.sublist_append_right _ _
    · have turned := reached_of_ok (find_spec valid live serves h.settled active') found'
      have settled' := turned.kept.valid
      have apex := h.apex.of_blank drew.blank turned.kept.context
      rw [found]
      refine ⟨_, ⟨?_, settled', apex, rfl, fun _ _ => rfl, fun ids' member => ?_,
        ⟨ids, swapped.shadows.imp fun _ _ => .weaken⟩,
        fun _ => ⟨ids, fun ids' member => ?_, ⟨rfl, rfl, ?_⟩, swapped⟩⟩, turned.kept.alike, ?_⟩
      · exact twin.move scan
      · exact .of_before apex.longer settled' (dated_remembered settled' rfl shows) swapped.shadows
          (after ids' (rest ▸ member))
      · exact after ids' (rest ▸ member)
      · exact shows'
      · rw [turned.remaining]

/-- Turning the odometer, unless a child fails at it. -/
theorem Paired.extend (follows : ∀ K, FollowsTwins env.dataset V K advance)
    (serves : Serves env.dataset advance) (h : Paired env.dataset V n m)
    (active : n.state = .active .extend) :
    ResumesUnlessStuck env.dataset V m (n.extend env advance) := by
  have twin := h.twin
  have active' : m.state = .active .extend := h.state.trans active
  have own := h.settled.standing
  have combines : n.state.combines := by rw [active]; exact rfl
  obtain ⟨K, after, row, swapped⟩ := h.row combines
  obtain ⟨place, stands⟩ := own.windows (by rw [active']; exact rfl)
  have stand : Window.AllStand env.dataset (m.own.extendAbsent m.context) m.children :=
    fun v member => ⟨h.settled.children v member, stands v member⟩
  have spec := extend_spec serves h.settled active'
  rcases extend_cases (follows K) serves twin row.own active active' own.capacity swapped stand
    row.shows with ⟨failure, ws, stats, extended, _⟩ |
      ⟨ws, vs, stats, stats', extended, extended', swapped', length⟩ |
      ⟨ws, vs, stats, stats', state, judged, extended, extended', swapped', length⟩
  · exact .inr ⟨failure, _, extended, active⟩
  · have turned := reached_of_ok spec extended'
    have settled' := turned.kept.valid
    rw [extended]
    refine .inl ⟨_, ⟨?_, settled', h.apex.of_blank rfl rfl, rfl, fun phase ready => ?_,
      fun ids member => ?_, ⟨K, swapped'.shadows.imp fun _ _ => .weaken⟩, fun combines => ?_⟩,
      turned.kept.alike, ?_⟩
    · exact twin.stay
    · cases ready
    · have dated := dated_remembered settled' place row.shows
      exact .of_before h.apex.longer settled' (row.remembered ▸ dated) swapped'.shadows
        (after ids member)
    · exact absurd combines NodeState.not_combines_find
    · rw [turned.remaining]
  · have turned := reached_of_ok spec extended'
    have settled' := turned.kept.valid
    rw [extended]
    refine .inl ⟨_, ⟨?_, settled', h.apex.of_blank rfl rfl, rfl, fun _ _ => rfl,
      fun ids member => ?_, ⟨K, swapped'.shadows.imp fun _ _ => .weaken⟩, fun _ => ?_⟩,
      turned.kept.alike, ?_⟩
    · exact twin.stay
    · have dated := dated_remembered settled' place row.shows
      exact .of_before h.apex.longer settled' (row.remembered ▸ dated) swapped'.shadows
        (after ids member)
    · exact ⟨K, after, ⟨row.own, row.remembered, row.shows⟩, swapped'⟩
    · rw [turned.remaining]

theorem Paired.take (h : Paired d V n m) {phase : Phase} (ready : n.state = .ready phase) :
    ∃ row n' m', n.take = (.ok row, n') ∧ Paired d V n' m' ∧ Alike d m m' ∧
      m.remaining d = row :: m'.remaining d := by
  have twin := h.twin
  have ready' : m.state = .ready phase := h.state.trans ready
  obtain ⟨row, m', taken, kept, left, _⟩ := take_spec h.settled ready'
  have taken' : n.take = (.ok n.extended, { n with state := .active phase, extended := ∅ }) := by
    rw [Node.take, ready]
  rw [Node.take, ready'] at taken
  cases taken
  refine ⟨n.extended, _, _, taken', ⟨?_, kept.valid, h.apex.of_blank rfl rfl, rfl,
    fun other pending => ?_, fun ids member => ?_, h.shadows, fun combines => ?_⟩, kept.alike, ?_⟩
  · exact twin.stay
  · cases pending
  · exact (h.awaits ids member).of_same rfl rfl rfl rfl
  · obtain ⟨K, after, row, swapped⟩ := h.row (by rw [ready]; exact combines)
    exact ⟨K, after, ⟨row.own, row.remembered, row.shows⟩, swapped⟩
  · rw [← h.pending phase ready]
    exact left

theorem ResumesUnlessStuck.of_resumes {α : Type} {step : Except Failure α × Node}
    (h : Resumes d V m n') (next : ∀ m', Paired d V n' m' → ResumesUnlessStuck d V m' step) :
    ResumesUnlessStuck d V m step := by
  obtain ⟨m', paired, alike, left⟩ := h
  rcases next m' paired with ⟨m'', paired', alike', left'⟩ | stuck
  · exact .inl ⟨m'', paired', alike.trans alike', left'.trans left⟩
  · exact .inr stuck

/-- Advancing the root, unless a child fails in the midst of the combinations of an own row. -/
theorem Paired.advanceWithin (valid : env.dataset.Valid) (live : env.cancelled = false)
    (budget : Nat) (h : Paired env.dataset V n m) :
    ResumesUnlessStuck env.dataset V m (n.advanceWithin env budget) := by
  induction budget generalizing n m with
  | zero => exact .inl h.resumes
  | succ budget ih =>
    have serves := advanceWithin_spec valid live budget
    have follows (K : Row) : FollowsTwins env.dataset V K (Node.advanceWithin env budget) :=
      advanceWithin_follows valid live budget
    unfold Node.advanceWithin
    cases state : n.state with
    | exhausted => exact .inl h.resumes
    | ready phase => exact .inl h.resumes
    | active phase =>
      cases phase with
      | find =>
        have found := h.find valid live follows serves state
        rcases ticked : n.find env (Node.advanceWithin env budget) with ⟨result, n'⟩
        rw [ticked] at found
        cases result with
        | error failure => exact .inl found
        | ok _ => exact .of_resumes found fun m' paired => ih paired
      | extend =>
        have extended := h.extend follows serves state
        rcases ticked : n.extend env (Node.advanceWithin env budget) with ⟨result, n'⟩
        rw [ticked] at extended
        rcases extended with resumes | ⟨failure, n'', same, stuck⟩
        · cases result with
          | error failure => exact .inl resumes
          | ok _ => exact .of_resumes resumes fun m' paired => ih paired
        · cases same
          exact .inr ⟨failure, n', rfl, stuck⟩

/-! ## Runs -/

/-- Whenever advancing fails in the steps, the node is about to draw its next own row. -/
def FailsDrawing (env : Env) : Node → List Step → Prop
  | _, [] => True
  | n, step :: rest =>
    (step = .advance → (n.perform env step).1 = .failed →
      (n.perform env step).2.state = .active .find) ∧
    FailsDrawing env (n.perform env step).2 rest

/-- What is handed out and what the twin has left afterwards are rows that it had left before. -/
theorem Paired.draw (valid : env.dataset.Valid) (live : env.cancelled = false)
    (h : Paired env.dataset V n m) {step : Step} (draws : step.Draws)
    (between : step = .advance → (n.perform env step).1 = .failed →
      (n.perform env step).2.state = .active .find) :
    ∃ m', Paired env.dataset V (n.perform env step).2 m' ∧ Alike env.dataset m m' ∧
      ((n.perform env step).1.row?.toList ++ m'.remaining env.dataset).Sublist
        (m.remaining env.dataset) := by
  cases step with
  | advance =>
    have advanced : ResumesUnlessStuck env.dataset V m (n.advance env) :=
      h.advanceWithin valid live _
    rcases came : n.advance env with ⟨result, n'⟩
    rw [came] at advanced
    have reply : (n.perform env .advance).1.row? = none ∧ (n.perform env .advance).2 = n' := by
      rw [perform, came]
      cases result <;> exact ⟨rfl, rfl⟩
    rw [reply.1, reply.2]
    rcases advanced with resumes | ⟨failure, n'', same, stuck⟩
    · exact resumes
    · -- A root that is stuck is not about to draw an own row.
      cases same
      have failed : (n.perform env .advance).1 = .failed := by
        rw [perform, came]
      have state := between rfl failed
      rw [reply.2, stuck] at state
      cases state
  | take =>
    by_cases ready : ∃ phase, n.state = .ready phase
    · obtain ⟨phase, pending⟩ := ready
      obtain ⟨row, n', m', taken, paired, alike, left⟩ := h.take pending
      rw [perform_take taken, left]
      exact ⟨m', paired, alike, .refl _⟩
    · rw [perform_take_of_none (not_exists.1 ready)]
      exact h.resumes
  | «open» => cases draws
  | seek => cases draws
  | reset => cases draws

/-- As long as the root fails only when it is about to draw an own row, it hands out some of the
rows that its twin has left, in their order. -/
theorem Paired.taken_sublist (valid : env.dataset.Valid) (live : env.cancelled = false)
    (h : Paired env.dataset V n m) (draws : ∀ step ∈ steps, step.Draws)
    (drawing : FailsDrawing env n steps) :
    (n.taken env steps).Sublist (m.remaining env.dataset) := by
  induction steps generalizing n m with
  | nil => exact List.nil_sublist _
  | cons step rest ih =>
    obtain ⟨first, others⟩ := List.forall_mem_cons.1 draws
    obtain ⟨between, later⟩ := drawing
    obtain ⟨m', paired, _, left⟩ := h.draw valid live first between
    rw [taken_cons]
    exact ((ih paired others later).append_left _).trans left

/-! ## Opening the root -/

/-- Only nodes that scan the dataset have children. -/
def InnerOfDataset (n : Node) : Prop :=
  n.Throughout fun dataset count => dataset = true ∨ count = 0

theorem twin_lenient (n : Node) : Twin n n.lenient := by
  cases n
  exact ⟨rfl, rfl, rfl, rfl, rfl, rfl, rfl⟩

/-- Opening nodes that scan the dataset has nothing to do with refusals. -/
theorem Twin.open (twin : Twin n m) (dataset : m.scan.needsPlace = true)
    (opened : m.open env = (.ok (), m')) :
    ∃ n', n.open env = (.ok (), n') ∧ Twin n' m' ∧ n'.children = n.children ∧
      m'.children = m.children ∧ n'.childContext = none ∧ m'.context = ∅ ∧ m'.state = n'.state ∧
      n'.state.Idle := by
  have scan := twin.scan
  cases own : n.scan with
  | fixed s =>
    rw [scan, own] at dataset
    cases dataset
  | index s =>
    rw [own] at scan
    unfold Node.open at opened ⊢
    by_cases never : n.neverMatches = true
    · rw [if_pos (twin.never.trans never)] at opened
      rw [if_pos never]
      cases opened
      exact ⟨_, rfl, ⟨twin.scan, twin.capacity, twin.attributes, twin.preFilters, twin.postFilters,
        twin.never, rfl⟩, rfl, rfl, rfl, rfl, rfl, .inr rfl⟩
    · rw [if_neg (by rw [twin.never]; exact never)] at opened
      rw [if_neg never]
      simp only [own, scan, Scan.lenient, Scan.open] at opened ⊢
      cases place : s.open env.dataset with
      | error fault =>
        rw [place] at opened
        cases opened
      | ok s' =>
        rw [place] at opened
        cases opened
        exact ⟨_, rfl, ⟨rfl, twin.capacity, twin.attributes, twin.preFilters, twin.postFilters,
          twin.never, rfl⟩, rfl, rfl, rfl, rfl, rfl, .inl rfl⟩

/-- A root that is opened is about to do what its twin does, whatever has failed before, if the
children can be moved to all rows with hints that are right. -/
theorem Apex.open (apex : Apex V m) (env : Env) (twin : Twin n m) (settled : m.Valid env.dataset)
    (shadows : ∀ K, n.children.Forall₂ (fun w v => Shadows V K True w.node v.node) m.children) :
    ∃ m', Paired env.dataset V (n.perform env .open).2 m' ∧ Alike env.dataset m m' ∧
      m'.remaining env.dataset = m.rows env.dataset ∅ := by
  obtain ⟨_, m', opened', sought⟩ := open_spec settled
  obtain ⟨n', opened, twin', ws, vs, none, here, state, idle⟩ := twin.open apex.dataset opened'
  have performed : n.perform env .open = (.done, n') := by
    rw [perform, opened]
  rw [performed]
  rw [← ws, ← vs] at shadows
  refine ⟨m', ⟨twin', sought.valid, apex.of_blank sought.alike.blank (here.trans apex.here.symm),
    state, fun phase ready => ?_, fun ids _ => ?_, ?_, fun combines => ?_⟩, sought.alike,
    sought.remaining⟩
  · rcases idle with active | exhausted
    · cases active.symm.trans ready
    · cases exhausted.symm.trans ready
  · exact ⟨none ▸ dated_none V ids m', none ▸ hinted_none V ids m', shadows ids⟩
  · exact ⟨[], (shadows []).imp fun _ _ => .weaken⟩
  · exact absurd combines idle.not_combines

theorem Unused.of_lenient (h : n.lenient.Unused) : ∀ w ∈ n.children, w.node.lenient.Unused := by
  obtain ⟨_, _, _, _, _, _, others⟩ := h
  intro w member
  refine others { w with node := w.node.lenient } ?_
  rw [lenient_eq, lenientAll_eq]
  exact List.mem_map_of_mem member

theorem shadows_initAll {ws : List (Window Node)} {incoming : AttributeOrder}
    (each : ∀ w ∈ ws, ∀ order : AttributeOrder, incoming.vars <+: order.vars →
      Shadows V K True (w.node.init d order).2 (w.node.init d order).2.lenient) :
    (initAll d incoming ws).2.Forall₂ (fun w v => Shadows V K True w.node v.node)
      (lenientAll (initAll d incoming ws).2) := by
  rw [lenientAll_eq, List.forall₂_map_right_iff, List.forall₂_same]
  exact forall_mem_initAll (P := fun m => Shadows V K True m m.lenient) each

/-- Below the root a tree that was just settled shadows the one without refusals. -/
theorem InnerOfDataset.shadows_init (h : n.InnerOfDataset) (unused : n.lenient.Unused)
    {incoming : AttributeOrder} (longer : V <+: incoming.vars) (d : Dataset) (K : Row) :
    Shadows V K True (n.init d incoming).2 (n.init d incoming).2.lenient := by
  induction h generalizing incoming with
  | @intro n inner others ih =>
    have further := longer.trans (Scan.isPrefix_order_init n.scan d incoming)
    have below : Below V (n.init d incoming).2.lenient := by
      rw [init_eq, lenient_eq]
      refine ⟨?_, fun s scan v known listed => ?_, ?_⟩
      · rw [Scan.order_lenient, Scan.order_init]
        exact further
      · cases own : n.scan with
        | fixed s => rw [own] at scan; cases scan
        | index s =>
          rw [own] at scan
          cases scan
          exact IndexScan.mem_inheritedAttributes_init.2
            ⟨(IndexScan.perm_attributes_init s d incoming).mem_iff.1 listed, longer.subset known⟩
      · cases scan : n.scan with
        | index s => exact .inl rfl
        | fixed s =>
          rw [scan] at inner
          have nil : n.children = [] :=
            List.eq_nil_of_length_eq_zero (inner.resolve_left Bool.false_ne_true)
          right
          simp only [nil]
          rfl
    have none : (n.init d incoming).2.childContext = none := by
      obtain ⟨_, _, _, _, _, childContext, _⟩ := unused
      rw [lenient_eq] at childContext
      rw [init_eq]
      exact childContext
    refine .of_children (twin_lenient _) below (none ▸ dated_none V K _)
      (fun _ => none ▸ hinted_none V K _) ?_
    rw [init_eq, lenient_eq]
    exact shadows_initAll fun w member order later =>
      ih w member (unused.of_lenient w member) (further.trans later)

/-- A tree that was just opened is paired with the one without refusals, which has all rows left. -/
theorem InnerOfDataset.paired_open (inner : n.InnerOfDataset) (built : n.lenient.Built)
    (dataset : n.scan.needsPlace = true) (env : Env) :
    ∃ V m, Paired env.dataset V ((n.init env.dataset ∅).2.perform env .open).2 m ∧
      m.remaining env.dataset = (n.init env.dataset ∅).2.rows env.dataset ∅ ∧
      m.rows env.dataset ∅ = (n.init env.dataset ∅).2.rows env.dataset ∅ := by
  have settled : (n.init env.dataset ∅).2.lenient.Valid env.dataset := by
    have valid := valid_init built env.dataset ∅
    rw [init_lenient] at valid
    exact valid
  obtain ⟨place, order⟩ : (n.scan.init env.dataset ∅).2.needsPlace = true ∧
      (n.scan.init env.dataset ∅).1.vars = (n.scan.init env.dataset ∅).2.attributes := by
    cases own : n.scan with
    | index s => exact ⟨rfl, IndexScan.order_init_empty s env.dataset⟩
    | fixed s => rw [own] at dataset; cases dataset
  have scan : (n.init env.dataset ∅).2.lenient.scan = (n.scan.init env.dataset ∅).2 := by
    rw [lenient_eq, init_eq]
    exact Scan.lenient_of_needsPlace place
  have apex : Apex (n.scan.init env.dataset ∅).2.attributes (n.init env.dataset ∅).2.lenient := by
    refine ⟨?_, ?_, congrArg Scan.attributes scan, ?_⟩
    · rw [scan]
      exact place
    · obtain ⟨_, _, _, _, context, _, _⟩ := built.unused
      rw [lenient_eq] at context ⊢
      rw [init_eq]
      exact context
    · rw [scan, Scan.order_init, order]
  obtain ⟨m, paired, alike, left⟩ := apex.open env (twin_lenient _) settled fun K => by
    rw [lenient_eq, init_eq]
    refine shadows_initAll fun w member incoming later => ?_
    have below : w.node.InnerOfDataset := inner.children w member
    exact below.shadows_init (built.unused.of_lenient w member) (order ▸ later) _ K
  rw [rows_lenient] at left
  exact ⟨_, m, paired, left, (alike.rows ∅).trans (rows_lenient ..)⟩

/-! ## Main statements -/

/-- A root that scans the dataset may be advanced again after it has failed, as long as it was about
to draw an own row then: what is handed out are rows of the tree, each of them once and in their
order. -/
theorem retried_sublist (reachable : d.Reachable) (built : n.lenient.Built)
    (dataset : n.scan.needsPlace = true) (inner : n.InnerOfDataset)
    (draws : ∀ step ∈ steps, step.Draws) :
    let env : Env := { dataset := d }
    let root := ((n.init d ∅).2.perform env .open).2
    FailsDrawing env root steps → (root.taken env steps).Sublist ((n.init d ∅).2.rows d ∅) := by
  intro env root drawing
  have valid : env.dataset.Valid := reachable.valid
  obtain ⟨V, m, paired, left, _⟩ := inner.paired_open built dataset env
  rw [← left]
  exact paired.taken_sublist valid rfl draws drawing

/-- The second of three own rows is lost, because the child has a row for it and the scan below the
child refuses to be moved there. -/
theorem retried_sublist_second_lost :
    let d := (Dataset.empty.addAll [⟨.iri "a", .iri "p", .iri "b", none⟩,
      ⟨.iri "c", .iri "p", .iri "d", none⟩, ⟨.iri "d", .iri "q", .iri "e", none⟩,
      ⟨.iri "f", .iri "p", .iri "g", none⟩]).2
    let node (s p o : String) : Node := ofScan (.index
      { pattern := ⟨[.triple (.var ⟨s⟩) (.term (.iri p)) (.var ⟨o⟩)]⟩ }) 1
    let refusing : Node := ofScan (.fixed
      { vars := [⟨"z"⟩], rows := [[1]], seekRefusal := some "refused" }) 1
    let n := (node "s" "p" "o").addChild ((node "o" "q" "x").addChild refusing)
    let env : Env := { dataset := d }
    let root := ((n.init d ∅).2.perform env .open).2
    let steps : List Step := [.advance, .take, .advance, .advance, .take]
    root.replies env steps = [.found true, .row (.ofRow [⟨"s"⟩, ⟨"o"⟩] [1, 3]), .failed,
        .found true, .row (.ofRow [⟨"s"⟩, ⟨"o"⟩] [8, 9])] ∧
      (root.taken env steps).Sublist ((n.init d ∅).2.rows d ∅) := by
  intro d node refusing n env root steps
  have given : Scan.Unused (.fixed { vars := [⟨"z"⟩], rows := [[1]] }) :=
    ⟨rfl, rfl, rfl, by decide⟩
  have built : n.lenient.Built := .addChild (.ofScan (Scan.unused_index _) 1)
    (.addChild (.ofScan (Scan.unused_index _) 1) (.ofScan given 1))
  have inner : n.InnerOfDataset := by
    refine .intro (.inl rfl) (List.forall_mem_singleton.2 (.intro (.inl rfl) ?_))
    exact List.forall_mem_singleton.2 (.intro (.inr rfl) nofun)
  have draws : ∀ step ∈ steps, step.Draws := by simp [steps, Step.Draws]
  have drawing : FailsDrawing env root steps := by
    simp only [steps, FailsDrawing]
    refine ⟨fun _ => ?_, fun _ => ?_, fun _ => ?_, fun _ => ?_, fun _ => ?_, trivial⟩ <;>
      decide +kernel
  exact ⟨by decide +kernel, retried_sublist (.addAll .empty _) built rfl inner draws drawing⟩

/-- The child is moved to the second own row, but what is below it refuses to be. Started over, the
root takes the child to be at the first own row still, for which it has no rows, and hands the first
own row out with a row for the second one. -/
theorem reset_after_failure_not_mem :
    let d := (Dataset.empty.addAll [⟨.iri "a", .iri "p", .iri "b", none⟩,
      ⟨.iri "c", .iri "p", .iri "d", none⟩, ⟨.iri "d", .iri "q", .iri "e", none⟩,
      ⟨.iri "c", .iri "r", .iri "f", none⟩]).2
    let node (s p o : String) : Node := ofScan (.index
      { pattern := ⟨[.triple (.var ⟨s⟩) (.term (.iri p)) (.var ⟨o⟩)]⟩ }) 1
    let refusing : Node := ofScan (.fixed
      { vars := [⟨"z"⟩], rows := [[1]], seekRefusal := some "refused" }) 1
    let n := (node "s" "p" "o").addChild
      ((node "o" "q" "x").addChild ((node "s" "r" "y").addChild refusing))
    let env : Env := { dataset := d }
    let root := ((n.init d ∅).2.perform env .open).2
    let own := Binding.ofRow [⟨"s"⟩, ⟨"o"⟩] [1, 3]
    let mixed := Binding.ofRow [⟨"s"⟩, ⟨"o"⟩, ⟨"x"⟩] [1, 3, 7]
    n.lenient.Built ∧ n.InnerOfDataset ∧
      root.replies env [.advance, .take, .advance, .reset, .advance, .take]
        = [.found true, .row own, .failed, .found true, .found true, .row mixed] ∧
      mixed ∉ (n.init d ∅).2.rows d ∅ ∧
      ∀ w ∈ (n.init d ∅).2.children, w.node.rows d own = [] := by
  intro d node refusing n env root own mixed
  have given : Scan.Unused (.fixed { vars := [⟨"z"⟩], rows := [[1]] }) :=
    ⟨rfl, rfl, rfl, by decide⟩
  have built : n.lenient.Built := .addChild (.ofScan (Scan.unused_index _) 1)
    (.addChild (.ofScan (Scan.unused_index _) 1)
      (.addChild (.ofScan (Scan.unused_index _) 1) (.ofScan given 1)))
  have inner : n.InnerOfDataset := by
    refine .intro (.inl rfl) (List.forall_mem_singleton.2 (.intro (.inl rfl) ?_))
    refine List.forall_mem_singleton.2 (.intro (.inl rfl) ?_)
    exact List.forall_mem_singleton.2 (.intro (.inr rfl) nofun)
  exact ⟨built, inner, by decide +kernel, by decide +kernel, by decide +kernel⟩

end Node

end QuadQuery
