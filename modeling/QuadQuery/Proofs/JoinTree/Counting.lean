import QuadQuery.Proofs.JoinTree.Sifting

/-!
# What a node counts

What a node has counted and what its scan and its windows have left make up the same sums
throughout a run (`Node.Tallied`). Once the node is exhausted nothing is left, so that the counts
are known beforehand: every own row once, and of every own row that passes every combination once
(`Node.stats_of_exhausted`).
-/

namespace QuadQuery

namespace Wheel

/-- There are as many ways to pick as the lengths of the lists allow. -/
theorem length_picks {α : Type} (columns : List (List α)) :
    (picks columns).length = (columns.map List.length).prod := by
  induction columns with
  | nil => rfl
  | cons values rest ih =>
    simp [picks, List.length_flatMap, ih, Nat.mul_comm]

end Wheel

namespace Node

variable {d : Dataset} {n n' : Node} {env : Env} {advance : Advance}

/-! ## Counts of a turn -/

/-- How often filters are evaluated at one row: not at all if there are none. -/
def evaluations (filters : List Expr) : Nat :=
  if filters.isEmpty then 0 else 1

/-- Checking filters counts their evaluation. -/
theorem checkPre_counts (d : Dataset) (own : Binding) (n : Node) :
    n.checkPre d own = (n.preFilters.all fun e => e.isSatisfied (view d own ∅),
      { n with stats.preEvaluations := n.stats.preEvaluations + evaluations n.preFilters }) := by
  unfold checkPre evaluations
  split
  · next none => exact Prod.ext (by simp [List.isEmpty_iff.1 none]) (by cases n; rfl)
  · rfl

theorem checkPost_counts (d : Dataset) (n : Node) :
    n.checkPost d = (n.postFilters.all fun e => e.isSatisfied (view d n.extended n.context),
      { n with stats.postEvaluations := n.stats.postEvaluations + evaluations n.postFilters }) := by
  unfold checkPost evaluations
  split
  · next none => exact Prod.ext (by simp [List.isEmpty_iff.1 none]) (by cases n; rfl)
  · rfl

/-- In between the node has drawn some own rows and put some combinations together, and has
evaluated all filters at each of them. -/
structure Counted (drawn made : Nat) (n n' : Node) : Prop where
  ownRows : n'.stats.ownRows = n.stats.ownRows + drawn
  preEvaluations :
    n'.stats.preEvaluations = n.stats.preEvaluations + drawn * evaluations n.preFilters
  combinations : n'.stats.combinations = n.stats.combinations + made
  postEvaluations :
    n'.stats.postEvaluations = n.stats.postEvaluations + made * evaluations n.postFilters
  preFilters : n'.preFilters = n.preFilters
  postFilters : n'.postFilters = n.postFilters

theorem Counted.of_same (stats : n'.stats = n.stats) (preFilters : n'.preFilters = n.preFilters)
    (postFilters : n'.postFilters = n.postFilters) : Counted 0 0 n n' := by
  refine ⟨?_, ?_, ?_, ?_, preFilters, postFilters⟩ <;> simp [stats]

theorem Counted.trans {n'' : Node} {drawn made drawn' made' : Nat} (h : Counted drawn made n n')
    (h' : Counted drawn' made' n' n'') : Counted (drawn + drawn') (made + made') n n'' where
  ownRows := by rw [h'.ownRows, h.ownRows, Nat.add_assoc]
  preEvaluations := by
    rw [h'.preEvaluations, h.preEvaluations, h.preFilters, Nat.add_mul, Nat.add_assoc]
  combinations := by rw [h'.combinations, h.combinations, Nat.add_assoc]
  postEvaluations := by
    rw [h'.postEvaluations, h.postEvaluations, h.postFilters, Nat.add_mul, Nat.add_assoc]
  preFilters := h'.preFilters.trans h.preFilters
  postFilters := h'.postFilters.trans h.postFilters

section Find

variable {ids : Row} {scan : Scan} {children : List (Window Node)}

/-- An own row that fails is counted, and so is the evaluation of the filters that it decides. -/
theorem counted_of_missed (advance : Advance)
    (drawn : n.scan.next? env.cancelled = some (ids, scan))
    (misses : n.admits env.dataset ids = false) : Counted 1 0 n (n.find env advance).2 := by
  unfold admits passes at misses
  simp only [find, drawn, checkPre_counts, misses]
  constructor <;> simp

/-- If the own row passes, its first combination is counted too. -/
theorem counted_of_loaded (drawn : n.scan.next? env.cancelled = some (ids, scan))
    (holds : n.admits env.dataset ids = true)
    (loaded : Window.loadAll env advance ((Binding.ofRow n.attributes ids).extendAbsent n.context)
      (scan.order.firstChanged n.childContext
        ((Binding.ofRow n.attributes ids).extendAbsent n.context)) n.capacity n.children
      = (.ok (), children)) : Counted 1 1 n (n.find env advance).2 := by
  unfold admits passes at holds
  simp only [find, drawn, checkPre_counts, holds, loaded, checkPost_counts]
  split <;>
  · next judged =>
    obtain ⟨_, rfl⟩ := Prod.mk.inj judged
    constructor <;> simp [combine]

end Find

/-- Turning the odometer counts nothing but windows that were filled anew. -/
theorem counted_nextCombination (advance : Advance) (n : Node) :
    Counted 0 0 n (n.nextCombination advance).2 := by
  unfold nextCombination
  dsimp only
  cases (Window.moveFirst advance n.capacity n.children).refilled <;>
  · rcases (Window.moveFirst advance n.capacity n.children).moved with failure | _ | _
    · exact ⟨rfl, by simp, rfl, by simp, rfl, rfl⟩
    · exact ⟨rfl, by simp, rfl, by simp, rfl, rfl⟩
    · dsimp only
      split <;> exact ⟨rfl, by simp, rfl, by simp, rfl, rfl⟩

/-- The next combination is counted, and so is the evaluation of the filters that need it. -/
theorem counted_of_next (env : Env) {children : List (Window Node)} {stats : NodeStats}
    (turned : n.nextCombination advance = (.ok true, { n with children, stats })) :
    Counted 0 1 n (n.extend env advance).2 := by
  have before := counted_nextCombination advance n
  rw [turned] at before
  obtain ⟨own, pre, made, post, _, _⟩ := before
  simp only at own pre made post
  simp only [extend, turned, checkPost_counts]
  split <;>
  · next judged =>
    obtain ⟨_, rfl⟩ := Prod.mk.inj judged
    exact ⟨own, pre, by simp [combine, made], by simp [combine, post], rfl, rfl⟩

/-! ## What is left to count -/

/-- How many own rows a node has still to draw. -/
def ownLeft (n : Node) : Nat :=
  if n.state = .exhausted then 0 else n.scan.rest.length

/-- How many combinations an own row has: one row of every child that has any, if it passes. -/
def combinationsOf (d : Dataset) (n : Node) (ids : Row) : Nat :=
  if n.admits d ids then
    ((columns d ((Binding.ofRow n.attributes ids).extendAbsent n.context) n.children).map
      List.length).prod
  else 0

/-- The combinations of the own rows that are still to be drawn. -/
def freshCombinations (d : Dataset) (n : Node) : Nat :=
  (n.scan.rest.map (n.combinationsOf d)).sum

/-- How many combinations a node has still to put together. -/
def combinationsLeft (d : Dataset) (n : Node) : Nat :=
  match n.state with
  | .exhausted => 0
  | .active .find | .ready .find => n.freshCombinations d
  | .active .extend | .ready .extend => (n.turns d).tail.length + n.freshCombinations d

/-- What was counted in between is what is no longer left. -/
def Tallied (d : Dataset) (n n' : Node) : Prop :=
  ∃ drawn made, Counted drawn made n n' ∧ n.ownLeft = drawn + n'.ownLeft ∧
    n.combinationsLeft d = made + n'.combinationsLeft d

theorem Tallied.refl (n : Node) : Tallied d n n :=
  ⟨0, 0, .of_same rfl rfl rfl, (Nat.zero_add _).symm, (Nat.zero_add _).symm⟩

theorem Tallied.trans {n'' : Node} (h : Tallied d n n') (h' : Tallied d n' n'') :
    Tallied d n n'' := by
  obtain ⟨drawn, made, counted, own, left⟩ := h
  obtain ⟨drawn', made', counted', own', left'⟩ := h'
  exact ⟨_, _, counted.trans counted', by rw [own, own', Nat.add_assoc],
    by rw [left, left', Nat.add_assoc]⟩

/-- Moving the children does not change what their rows are. -/
theorem freshCombinations_of_children (attributes : n'.attributes = n.attributes)
    (context : n'.context = n.context) (filters : n'.preFilters = n.preFilters)
    (children : n.children.Forall₂ (fun w w' => Alike d w.node w'.node) n'.children) :
    n'.freshCombinations d = (n'.scan.rest.map (n.combinationsOf d)).sum := by
  have same : n'.combinationsOf d = n.combinationsOf d := by
    funext ids
    unfold combinationsOf admits
    rw [attributes, context, filters, columns_of_alike children]
  rw [freshCombinations, same]

/-- Behind the current combination of an own row come those of its other turns. -/
theorem combinationsLeft_of_phase {phase : Phase}
    (state : n.state = .ready phase ∨ n.state = .active phase)
    (last : phase = .find → (n.turns d).tail = []) :
    n.combinationsLeft d = (n.turns d).tail.length + n.freshCombinations d := by
  unfold combinationsLeft
  rcases state with state | state <;> rw [state] <;> cases phase with
  | find => simp [last rfl]
  | extend => rfl

theorem ownLeft_of_phase {phase : Phase}
    (state : n.state = .ready phase ∨ n.state = .active phase) :
    n.ownLeft = n.scan.rest.length := by
  unfold ownLeft
  rw [if_neg]
  rintro exhausted
  rcases state with state | state <;> exact absurd (exhausted.symm.trans state) nofun

/-! ## Turns of the loop -/

/-- The combination that was put together is one of those of the windows. -/
theorem one_add_combinationsLeft {phase : Phase}
    (state : n.state = .ready phase ∨ n.state = .active phase)
    (last : phase = .find → phaseFor n.children = .find)
    (stand : Window.AllStand d (n.own.extendAbsent n.context) n.children) :
    1 + n.combinationsLeft d = (n.turns d).length + n.freshCombinations d := by
  obtain ⟨others, positions⟩ := positions_eq_current stand
  have turns : n.turns d = n.children.map Window.current? :: others := positions
  rw [combinationsLeft_of_phase state fun find => tail_positions_of_empty stand (last find), turns,
    List.length_cons, List.tail_cons]
  omega

/-- A combination that was judged is either handed out or passed over. -/
theorem ready_or_active {phase : Phase} {judged : Bool}
    (state : n.state = if judged then .ready phase else .active phase) :
    n.state = .ready phase ∨ n.state = .active phase := by
  cases judged with
  | true => exact .inl state
  | false => exact .inr state

section Find

variable {ids : Row} {scan : Scan}

/-- What is left behind the next own row, together with the row itself, is what is left before. -/
theorem left_of_cons (active : n.state = .active .find) (rest : n.scan.rest = ids :: scan.rest) :
    n.ownLeft = 1 + scan.rest.length ∧ n.combinationsLeft d
      = n.combinationsOf d ids + (scan.rest.map (n.combinationsOf d)).sum := by
  constructor
  · rw [ownLeft_of_phase (.inr active), rest, List.length_cons, Nat.add_comm]
  · rw [combinationsLeft, active]
    change n.freshCombinations d = _
    rw [freshCombinations, rest, List.map_cons, List.sum_cons]

/-- An own row that fails has no combinations. -/
theorem tallied_of_missed (advance : Advance) (active : n.state = .active .find)
    (rest : n.scan.rest = ids :: scan.rest)
    (drawn : n.scan.next? env.cancelled = some (ids, scan))
    (misses : n.admits env.dataset ids = false) :
    Tallied env.dataset n (n.find env advance).2 := by
  obtain ⟨ownLeft, left⟩ := left_of_cons (d := env.dataset) active rest
  obtain ⟨stats, missed⟩ := find_of_missed advance drawn rfl misses
  have later : ({ n with scan, stats } : Node).ownLeft = scan.rest.length :=
    ownLeft_of_phase (.inr active)
  refine ⟨1, 0, counted_of_missed advance drawn misses, ownLeft.trans ?_, left.trans ?_⟩
  · rw [missed, later]
  · rw [combinationsOf, misses, if_neg Bool.false_ne_true, missed, combinationsLeft, active]
    rfl

/-- One that passes has as many combinations as the children have turns at it. -/
theorem tallied_of_loaded (serves : Serves env.dataset advance) (settled : n.Valid env.dataset)
    (active : n.state = .active .find) (rest : n.scan.rest = ids :: scan.rest)
    (drawn : n.scan.next? env.cancelled = some (ids, scan)) (order : scan.order = n.scan.order)
    (holds : n.admits env.dataset ids = true) (found : n.find env advance = (.ok (), n')) :
    Tallied env.dataset n n' := by
  have own := settled.standing
  have hints := unmoved_children own settled.children
    ((Binding.ofRow n.attributes ids).extendAbsent n.context)
  rw [← order] at hints
  rcases loaded : Window.loadAll env advance ((Binding.ofRow n.attributes ids).extendAbsent n.context)
      (scan.order.firstChanged n.childContext
        ((Binding.ofRow n.attributes ids).extendAbsent n.context)) n.capacity n.children
    with ⟨failure | _, children⟩
  · obtain ⟨stats, failed⟩ := find_of_failed drawn rfl holds loaded
    cases failed.symm.trans found
  · have started := reached_of_ok
      (Window.loadAll_spec serves own.capacity settled.children hints) loaded
    obtain ⟨stand, alikes, _⟩ := started_all started
    have counted := counted_of_loaded drawn holds loaded
    obtain ⟨stats, passed⟩ := find_of_loaded drawn rfl holds loaded
    have same := (Prod.mk.inj (passed.symm.trans found)).2
    rw [found] at counted
    have phase : n'.state = .ready (phaseFor children) ∨ n'.state = .active (phaseFor children) :=
      ready_or_active (congrArg Node.state same.symm)
    have turns : (n'.turns env.dataset).length = n.combinationsOf env.dataset ids := by
      rw [combinationsOf, if_pos holds, ← Wheel.length_picks, ← positions_of_started started]
      subst same
      rfl
    have fresh : n'.freshCombinations env.dataset
        = (scan.rest.map (n.combinationsOf env.dataset)).sum := by
      subst same
      exact freshCombinations_of_children rfl rfl rfl alikes
    obtain ⟨ownLeft, left⟩ := left_of_cons (d := env.dataset) active rest
    refine ⟨1, 1, counted, ownLeft.trans ?_, left.trans ?_⟩
    · rw [ownLeft_of_phase phase]
      subst same
      rfl
    · rw [one_add_combinationsLeft phase, turns, fresh] <;> subst same
      · exact id
      · exact stand

/-- Drawing an own row counts it, and its first combination if it passes. -/
theorem find_tallied (live : env.cancelled = false) (serves : Serves env.dataset advance)
    (settled : n.Valid env.dataset) (active : n.state = .active .find)
    (found : n.find env advance = (.ok (), n')) : Tallied env.dataset n n' := by
  cases rest : n.scan.rest with
  | nil =>
    have ownLeft : n.ownLeft = 0 := by rw [ownLeft_of_phase (.inr active), rest, List.length_nil]
    have left : n.combinationsLeft env.dataset = 0 := by
      rw [combinationsLeft, active]
      change n.freshCombinations env.dataset = 0
      rw [freshCombinations, rest, List.map_nil, List.sum_nil]
    simp only [Node.find, live, Scan.next?_nil rest] at found
    cases found
    exact ⟨0, 0, .of_same rfl rfl rfl, ownLeft.trans rfl, left.trans rfl⟩
  | cons ids later =>
    obtain ⟨scan, drawn, blank, _, rfl, _, _⟩ := Scan.next?_cons rest env.dataset n.context
    rw [← live] at drawn
    cases holds : n.admits env.dataset ids with
    | false =>
      have missed := tallied_of_missed advance active rest drawn holds
      rwa [found] at missed
    | true =>
      exact tallied_of_loaded serves settled active rest drawn (Scan.order_of_blank blank) holds found

end Find

/-- So does turning the odometer, if there is another combination. -/
theorem extend_tallied (serves : Serves env.dataset advance) (settled : n.Valid env.dataset)
    (active : n.state = .active .extend) (extended : n.extend env advance = (.ok (), n')) :
    Tallied env.dataset n n' := by
  have own := settled.standing
  have stand : Window.AllStand env.dataset (n.own.extendAbsent n.context) n.children :=
    fun w member => ⟨settled.children w member,
      (own.windows (by rw [active]; exact rfl)).2 w member⟩
  have ownLeft : n.ownLeft = n.scan.rest.length := ownLeft_of_phase (.inr active)
  have left : n.combinationsLeft env.dataset
      = (n.turns env.dataset).tail.length + n.freshCombinations env.dataset := by
    rw [combinationsLeft, active]
  rcases nextCombination_spec serves own.capacity stand with
    stuck | ⟨found, children, stats, turned, stands, alikes, positions⟩
  · obtain ⟨m, same⟩ := exists_of_fst_eq stuck
    rw [Node.extend, same] at extended
    cases extended
  have turns : (n.turns env.dataset).tail = if found then Wheel.positions (children.map
      (Window.wheel env.dataset (n.own.extendAbsent n.context))) else [] := positions
  have fresh (state : NodeState) (stats : NodeStats) (row : Binding) : freshCombinations env.dataset
      { n with children, state, stats, extended := row } = n.freshCombinations env.dataset :=
    freshCombinations_of_children rfl rfl rfl alikes
  cases found with
  | false =>
    obtain ⟨drawn, pre, made, post, _, _⟩ := counted_nextCombination advance n
    rw [Node.extend, turned] at extended
    rw [turned] at drawn pre made post
    cases extended
    refine ⟨0, 0, ⟨drawn, pre, made, post, rfl, rfl⟩, ownLeft.trans ?_, left.trans ?_⟩
    · exact (Nat.zero_add _).symm
    · rw [turns, if_neg Bool.false_ne_true]
      exact congrArg (0 + ·) (fresh (.active .find) stats n.extended).symm
  | true =>
    have counted := counted_of_next env turned
    obtain ⟨stats, next⟩ := extend_of_next env active turned
    have same := (Prod.mk.inj (next.symm.trans extended)).2
    rw [extended] at counted
    have phase : n'.state = .ready .extend ∨ n'.state = .active .extend :=
      ready_or_active (congrArg Node.state same.symm)
    refine ⟨0, 1, counted, ownLeft.trans ?_, left.trans ?_⟩
    · rw [ownLeft_of_phase phase, Nat.zero_add]
      subst same
      rfl
    · rw [one_add_combinationsLeft phase (absurd · Phase.extend_ne_find), turns, if_pos rfl] <;>
        subst same
      · exact congrArg _ (fresh _ stats _).symm
      · exact stands

/-! ## Runs -/

theorem advanceWithin_tallied (valid : env.dataset.Valid) (live : env.cancelled = false)
    {budget : Nat} (settled : n.Valid env.dataset)
    (enough : (n.advanceWithin env budget).1 ≠ .error .outOfSteps) :
    Tallied env.dataset n (n.advanceWithin env budget).2 := by
  induction budget generalizing n with
  | zero => exact absurd rfl enough
  | succ budget ih =>
    have serves := advanceWithin_spec valid live budget
    unfold advanceWithin at enough ⊢
    cases state : n.state with
    | exhausted => exact .refl n
    | ready phase => exact .refl n
    | active phase =>
      simp only [state] at enough
      cases phase with
      | find =>
        rcases find_spec valid live serves settled state with stuck | ⟨n', found, turned⟩
        · obtain ⟨_, same⟩ := exists_of_fst_eq stuck
          simp [same] at enough
        · simp only [found] at enough ⊢
          exact (find_tallied live serves settled state found).trans
            (ih turned.kept.valid enough)
      | extend =>
        rcases extend_spec serves settled state with stuck | ⟨n', extended, turned⟩
        · obtain ⟨_, same⟩ := exists_of_fst_eq stuck
          simp [same] at enough
        · simp only [extended] at enough ⊢
          exact (extend_tallied serves settled state extended).trans (ih turned.kept.valid enough)

/-- Handing out a row counts nothing. -/
theorem take_tallied (n : Node) : Tallied d n n.take.2 := by
  unfold take
  cases state : n.state with
  | exhausted => exact .refl n
  | active phase => exact .refl n
  | ready phase =>
    refine ⟨0, 0, .of_same rfl rfl rfl, ?_, ?_⟩
    · rw [ownLeft_of_phase (.inl state), Nat.zero_add]
      exact (ownLeft_of_phase (n := { n with state := .active phase, extended := ∅ }) (.inr rfl)).symm
    · rw [combinationsLeft, state, Nat.zero_add]
      cases phase <;> rfl

theorem after_tallied (valid : env.dataset.Valid) (live : env.cancelled = false)
    {steps : List Step} (settled : n.Valid env.dataset) (draws : ∀ step ∈ steps, step.Draws) :
    Tallied env.dataset n (n.after env steps) := by
  induction steps generalizing n with
  | nil => exact .refl n
  | cons step rest ih =>
    obtain ⟨first, others⟩ := List.forall_mem_cons.1 draws
    have settled' : (n.after env [step]).Valid env.dataset :=
      (taken_append_remaining valid live settled (List.forall_mem_singleton.2 first)).1
    refine Tallied.trans ?_ (ih settled' others)
    cases step with
    | advance =>
      have steps := (advance_bounds (settled.bounded valid)).steps
      have advanced : Tallied env.dataset n (n.advance env).2 :=
        advanceWithin_tallied valid live settled steps
      simp only [perform]
      split <;> (next same => rw [same] at advanced; exact advanced)
    | take =>
      have taken : Tallied env.dataset n n.take.2 := take_tallied n
      simp only [perform]
      split <;> (next same => rw [same] at taken; exact taken)
    | «open» => cases first
    | seek => cases first
    | reset => cases first

/-! ## From the first row to the last -/

/-- A tree that was just put together has counted nothing. -/
theorem Built.stats (built : n.Built) : n.stats = {} := by
  induction built with
  | ofScan _ _ => rfl
  | addChild _ _ first _ => exact first
  | addFilter _ e first =>
    unfold Node.addFilter
    split <;> exact first

/-- Opening a settled tree moves its scan to the start, unless it never matches. -/
theorem perform_open (env : Env) (settled : n.Valid env.dataset) :
    n.neverMatches = true ∧ n.perform env .open
      = (.done, { n with context := ∅, childContext := none, state := .exhausted }) ∨
    n.neverMatches = false ∧ ∃ scan, Scan.Moved env.dataset ∅ n.scan scan ∧ n.perform env .open
      = (.done, { n with context := ∅, childContext := none, scan, state := .active .find }) := by
  cases never : n.neverMatches with
  | true => exact .inl ⟨rfl, by simp only [perform, Node.open, never, if_true]⟩
  | false =>
    obtain ⟨scan, opened, moved⟩ := Scan.open_spec settled.standing.sound
    refine .inr ⟨rfl, scan, moved, ?_⟩
    simp only [perform, Node.open, never, Bool.false_eq_true, if_false, opened]

/-- An opened tree has all of its own rows and their combinations before it. -/
theorem left_of_open (settled : n.Valid env.dataset) :
    (n.perform env .open).2.ownLeft = (n.scan.ownRows env.dataset ∅).length ∧
    (n.perform env .open).2.combinationsLeft env.dataset
      = ((n.scan.ownRows env.dataset ∅).map fun own =>
          if passes env.dataset ∅ n.preFilters own then
            ((columns env.dataset (own.extendAbsent ∅) n.children).map List.length).prod
          else 0).sum := by
  have own := settled.standing
  rcases perform_open env settled with ⟨never, opened⟩ | ⟨possible, scan, moved, opened⟩
  · have closed : n.scan.openTerms = false := by simpa [own.never] using never
    rw [opened, Scan.ownRows, closed]
    exact ⟨rfl, rfl⟩
  · have terms : n.scan.openTerms = true := by simpa [own.never] using possible
    rw [opened, Scan.ownRows, if_pos terms, ← moved.rest, List.length_map, List.map_map,
      ← own.attributes]
    exact ⟨rfl, rfl⟩

/-- An opened tree has counted nothing and has the filters that it was given. -/
theorem Built.fields_open (env : Env) (built : n.Built) (incoming : AttributeOrder) :
    let root := ((n.init env.dataset incoming).2.perform env .open).2
    root.stats = {} ∧ root.preFilters = n.preFilters ∧ root.postFilters = n.postFilters := by
  intro root
  rcases perform_open env (valid_init built env.dataset incoming) with
    ⟨_, opened⟩ | ⟨_, scan, _, opened⟩ <;>
  · rw [show root = _ from congrArg Prod.snd opened, init_eq]
    exact ⟨built.stats, rfl, rfl⟩

theorem length_column (rows : List Binding) : (column rows).length = max 1 rows.length := by
  cases rows with
  | nil => rfl
  | cons row rest => simp [column]

/-- Settling the order of variables does not change how many combinations an own row has. -/
theorem Built.prod_columns_init (valid : d.Valid) (built : n.Built) (incoming : AttributeOrder)
    {own : Binding} (member : own ∈ n.scan.assignments d ∅) :
    ((columns d (own.extendAbsent ∅) (n.init d incoming).2.children).map List.length).prod
      = (n.children.map fun w => max 1 (w.node.answers d own).length).prod := by
  obtain ⟨scan, _, _, _, _, _, others⟩ := built.unused
  have within := Scan.within_order_init valid scan (Binding.within_empty incoming.vars) member
  have perms := perm_columns_initAll within fun w there order bound =>
    (others w there).perm_rows_init valid bound
  have lengths : ((columns d (own.extendAbsent ∅) (n.init d incoming).2.children).map List.length)
      = (answerColumns d own n.children).map List.length := by
    rw [init_eq]
    exact List.forall₂_eq_eq_eq ▸ List.forall₂_map_left_iff.2
      (List.forall₂_map_right_iff.2 (perms.imp fun _ _ => List.Perm.length_eq))
  rw [lengths, answerColumns_eq, List.map_map]
  exact congrArg List.prod (List.map_congr_left fun w _ => length_column _)

theorem sum_map_ite {α : Type} (p : α → Bool) (f : α → Nat) (xs : List α) :
    (xs.map fun x => if p x then f x else 0).sum = ((xs.filter p).map f).sum := by
  induction xs with
  | nil => rfl
  | cons x rest ih => cases holds : p x <;> simp [holds, ih]

/-- What an opened tree has before it, told from its patterns. -/
theorem Built.left_of_open (env : Env) (valid : env.dataset.Valid) (built : n.Built)
    (incoming : AttributeOrder) :
    let root := ((n.init env.dataset incoming).2.perform env .open).2
    let own := n.scan.assignments env.dataset ∅
    root.ownLeft = own.length ∧
      root.combinationsLeft env.dataset = ((own.filter (passes env.dataset ∅ n.preFilters)).map
        fun row => (n.children.map fun w =>
          max 1 (w.node.answers env.dataset row).length).prod).sum := by
  obtain ⟨ownLeft, left⟩ := Node.left_of_open (valid_init built env.dataset incoming)
  have rows : ((n.init env.dataset incoming).2.scan.ownRows env.dataset ∅).Perm
      (n.scan.assignments env.dataset ∅) := by
    rw [init_eq]
    exact Scan.perm_ownRows_init valid n.scan (Binding.within_empty _)
  have filters : (n.init env.dataset incoming).2.preFilters = n.preFilters := by rw [init_eq]
  refine ⟨ownLeft.trans rows.length_eq, ?_⟩
  rw [left, (rows.map _).sum_eq, ← sum_map_ite, filters]
  refine congrArg List.sum (List.map_congr_left fun row member => ?_)
  rw [built.prod_columns_init valid incoming member]

/-- The last reply is that of the node which the steps before lead to. -/
theorem replies_append_singleton (env : Env) (n : Node) (steps : List Step) (step : Step) :
    n.replies env (steps ++ [step])
      = n.replies env steps ++ [((n.after env steps).perform env step).1] := by
  induction steps generalizing n with
  | nil => rfl
  | cons first rest ih => exact congrArg (_ :: ·) (ih _)

/-- A node that has no next row is exhausted. -/
theorem exhausted_of_advanceWithin {budget : Nat}
    (advanced : n.advanceWithin env budget = (.ok false, n')) : n'.state = .exhausted := by
  induction budget generalizing n with
  | zero => cases advanced
  | succ budget ih =>
    unfold advanceWithin at advanced
    split at advanced
    · next exhausted =>
      cases advanced
      exact exhausted
    · cases advanced
    · next phase _ =>
      cases phase <;> dsimp only at advanced <;> split at advanced
      · cases advanced
      · exact ih advanced
      · cases advanced
      · exact ih advanced

/-- Once it was asked for all of its rows and for one more, the node is exhausted. -/
theorem HandsOut.exhausted {rows : List Binding} (handsOut : n.HandsOut env rows) :
    (n.after env (rows.flatMap (fun _ => [.advance, .take]) ++ [.advance])).state
      = .exhausted := by
  unfold HandsOut at handsOut
  rw [replies_append_singleton] at handsOut
  obtain ⟨_, last⟩ := List.append_inj' handsOut rfl
  rw [after, List.foldl_append, List.foldl_cons, List.foldl_nil]
  change ((n.after env _).perform env .advance).2.state = .exhausted
  rw [List.cons.injEq] at last
  simp only [perform] at last ⊢
  split at last
  · next found n' advanced =>
    cases last.1
    exact exhausted_of_advanceWithin advanced
  · cases last.1

theorem mul_evaluations (count : Nat) (filters : List Expr) :
    count * evaluations filters = if filters.isEmpty then 0 else count := by
  unfold evaluations
  split <;> simp

/-- However a tree is drawn from until it is exhausted, it has counted every own row once, and of
every own row that passes every combination of one row of each child that has any. Filters were
evaluated once at each of these, if there are any. At every time the children stand as if the own
rows that fail had not been there. -/
theorem stats_of_exhausted (reachable : d.Reachable) (built : n.Built)
    (incoming : AttributeOrder) :
    let live : Env := { dataset := d }
    let root := ((n.init d incoming).2.perform live .open).2
    let own := n.scan.assignments d ∅
    let combinations := ((own.filter (passes d ∅ n.preFilters)).map fun row =>
      (n.children.map fun w => max 1 (w.node.answers d row).length).prod).sum
    (∃ rows, root.HandsOut live rows ∧
      (root.after live (rows.flatMap (fun _ => [.advance, .take]) ++ [.advance])).state
        = .exhausted) ∧
    ∀ steps, (∀ step ∈ steps, step.Draws) →
      (root.after live steps).children = ((root.sifted d).after live steps).children ∧
      ((root.after live steps).state = .exhausted →
        let stats := (root.after live steps).stats
        stats.ownRows = own.length ∧
        stats.preEvaluations = (if n.preFilters.isEmpty then 0 else own.length) ∧
        stats.combinations = combinations ∧
        stats.postEvaluations = (if n.postFilters.isEmpty then 0 else combinations)) := by
  intro live root own combinations
  have valid : live.dataset.Valid := reachable.valid
  have settled : root.Valid live.dataset := opened_spec built live incoming
  refine ⟨⟨_, handsOut_remaining valid rfl settled,
    (handsOut_remaining valid rfl settled).exhausted⟩, fun steps draws =>
      ⟨children_after_sifted (settled.bounded valid) draws, fun exhausted => ?_⟩⟩
  obtain ⟨drawn, made, counted, ownLeft, left⟩ := after_tallied valid rfl settled draws
  obtain ⟨allOwn, all⟩ := built.left_of_open live valid incoming
  have start : root.stats = {} ∧ root.preFilters = n.preFilters ∧
      root.postFilters = n.postFilters := built.fields_open live incoming
  have noRows : (root.after live steps).ownLeft = 0 := if_pos exhausted
  have none : (root.after live steps).combinationsLeft live.dataset = 0 := by
    rw [combinationsLeft, exhausted]
  rw [noRows, Nat.add_zero] at ownLeft
  rw [none, Nat.add_zero] at left
  obtain rfl : drawn = own.length := ownLeft.symm.trans allOwn
  obtain rfl : made = combinations := left.symm.trans all
  refine ⟨?_, ?_, ?_, ?_⟩
  · rw [counted.ownRows, start.1, Nat.zero_add]
  · rw [counted.preEvaluations, start.1, start.2.1, mul_evaluations, Nat.zero_add]
  · rw [counted.combinations, start.1, Nat.zero_add]
  · rw [counted.postEvaluations, start.1, start.2.2, mul_evaluations, Nat.zero_add]

/-- Of three own rows one fails, one has two times two combinations, and one has a single one. -/
theorem stats_of_exhausted_filtered :
    let st (s p : String) (value : Int) : Statement := ⟨.iri s, .iri p, .integer value, none⟩
    let d := (Dataset.empty.addAll [st "s1" "p" 1, st "s2" "p" 2, st "s3" "p" 3, st "s1" "a" 10,
      st "s1" "a" 11, st "s1" "b" 20, st "s1" "b" 21]).2
    let node (p o : String) : Node := ofScan (.index
      { pattern := ⟨[.triple (.var ⟨"s"⟩) (.term (.iri p)) (.var ⟨o⟩)]⟩ }) 1
    let own : Expr := .compare .lt (.var ⟨"o"⟩) (.const (.integer 3))
    let n := ((((node "p" "o").addChild (node "a" "x")).addChild (node "b" "y")).addFilter
      own).addFilter (.bound ⟨"x"⟩)
    let live : Env := { dataset := d }
    let root := ((n.init d ∅).2.perform live .open).2
    d.Reachable ∧ n.Built ∧ ∀ steps, (∀ step ∈ steps, step.Draws) →
      (root.after live steps).state = .exhausted →
        let stats := (root.after live steps).stats
        stats.ownRows = 3 ∧ stats.preEvaluations = 3 ∧ stats.combinations = 5 ∧
          stats.postEvaluations = 5 := by
  intro st d node own n live root
  have reachable : d.Reachable := .addAll .empty _
  have unused (p o : String) : (node p o).Built := .ofScan (Scan.unused_index _) 1
  have built : n.Built := .addFilter (.addFilter (.addChild (.addChild (unused "p" "o")
    (unused "a" "x")) (unused "b" "y")) own) _
  refine ⟨reachable, built, fun steps draws exhausted => ?_⟩
  obtain ⟨ownRows, pre, made, post⟩ :=
    ((stats_of_exhausted reachable built ∅).2 steps draws).2 exhausted
  exact ⟨ownRows.trans (by decide +kernel), pre.trans (by decide +kernel),
    made.trans (by decide +kernel), post.trans (by decide +kernel)⟩

end Node

end QuadQuery
