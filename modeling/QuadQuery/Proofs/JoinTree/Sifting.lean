import QuadQuery.Proofs.JoinTree.Ending
import QuadQuery.Proofs.JoinTree.Following

/-!
# Own rows that are filtered out

An own row that fails a filter which it decides leaves no trace in the children: they come to stand
as if the scan had never had the row (`Node.after_sifts`).
-/

namespace QuadQuery

namespace Scan

/-- The scan without those of its remaining rows that fail a test. -/
def sift (test : Row → Bool) : Scan → Scan
  | .index s => .index { s with rest := s.rest.filter test }
  | .fixed s => .fixed { s with rest := s.rest.filter test }

variable {d : Dataset} {test : Row → Bool} {s s' : Scan} {cancelled : Bool} {ids : Row}

theorem order_sift (test : Row → Bool) (s : Scan) : (s.sift test).order = s.order := by
  cases s <;> rfl

theorem Bounded.sift (bounded : s.Bounded d) : (s.sift test).Bounded d := by
  cases s with
  | index s => exact bounded
  | fixed s => trivial

theorem next?_sift_of_none (drawn : s.next? cancelled = none) :
    (s.sift test).next? cancelled = none := by
  cases s with
  | index s =>
    cases cancelled with
    | true => rfl
    | false =>
      cases rows : s.rest with
      | nil => simp [Scan.next?, Scan.sift, IndexScan.next?, rows]
      | cons ids later => simp [Scan.next?, IndexScan.next?, rows] at drawn
  | fixed s =>
    cases rows : s.rest with
    | nil => simp [Scan.next?, Scan.sift, FixedScan.next?, rows]
    | cons ids later => simp [Scan.next?, FixedScan.next?, rows] at drawn

/-- The next row that passes is the next one after sifting, and one that fails is gone. -/
theorem next?_sift_of_some (test : Row → Bool) (drawn : s.next? cancelled = some (ids, s')) :
    if test ids then (s.sift test).next? cancelled = some (ids, s'.sift test)
    else s'.sift test = s.sift test := by
  cases s with
  | index s =>
    cases cancelled with
    | true => cases drawn
    | false =>
      cases rows : s.rest with
      | nil => simp [Scan.next?, IndexScan.next?, rows] at drawn
      | cons first later =>
        simp only [Scan.next?, IndexScan.next?, rows] at drawn
        cases drawn
        split <;> next holds => simp [Scan.next?, Scan.sift, IndexScan.next?, rows, holds]
  | fixed s =>
    cases rows : s.rest with
    | nil => simp [Scan.next?, FixedScan.next?, rows] at drawn
    | cons first later =>
      simp only [Scan.next?, FixedScan.next?, rows] at drawn
      cases drawn
      split <;> next holds => simp [Scan.next?, Scan.sift, FixedScan.next?, rows, holds]

end Scan

namespace Node

variable {d : Dataset} {n n' m : Node} {env : Env} {advance : Advance}

/-- The filters that the own row decides hold of it. -/
def admits (d : Dataset) (n : Node) (ids : Row) : Bool :=
  passes d ∅ n.preFilters (.ofRow n.attributes ids)

/-- The node without those of its remaining own rows that fail a filter which they decide. -/
def sifted (d : Dataset) (n : Node) : Node :=
  { n with scan := n.scan.sift (n.admits d) }

/-- The second node is the first one sifted, but for what it has counted. -/
def Sifts (d : Dataset) (n m : Node) : Prop :=
  ∃ stats, m = { n.sifted d with stats }

theorem Sifts.bounded (sifts : Sifts d n m) (bounded : n.Bounded d) : m.Bounded d := by
  obtain ⟨stats, rfl⟩ := sifts
  exact ⟨bounded.scan.sift, bounded.children⟩

/-! ## Turns of the loop -/

/-- A turn that draws an own row which fails is no turn of the sifted node; any other turn is one of
both. -/
theorem find_sifts (sifts : Sifts env.dataset n m) (advance : Advance) :
    (∃ n', n.find env advance = (.ok (), n') ∧ Sifts env.dataset n' m) ∨
      ∃ result n' m', n.find env advance = (result, n') ∧ m.find env advance = (result, m') ∧
        Sifts env.dataset n' m' := by
  obtain ⟨stats₀, rfl⟩ := sifts
  cases drawn : n.scan.next? env.cancelled with
  | none =>
    refine .inr ⟨.ok (), { n with state := .exhausted }, _, ?_, ?_, stats₀, rfl⟩
    · simp only [find, drawn]
    · simp only [find, sifted, Scan.next?_sift_of_none drawn]
      rfl
  | some next =>
    obtain ⟨ids, scan⟩ := next
    have sift := Scan.next?_sift_of_some (n.admits env.dataset) drawn
    cases holds : n.admits env.dataset ids with
    | false =>
      rw [holds, if_neg Bool.false_ne_true] at sift
      obtain ⟨stats, found⟩ := find_of_missed advance drawn rfl holds
      exact .inl ⟨_, found, stats₀, congrArg (fun scan => { n with scan, stats := stats₀ }) sift.symm⟩
    | true =>
      rw [holds, if_pos rfl] at sift
      right
      have drawn' : ({ n.sifted env.dataset with stats := stats₀ } : Node).scan.next? env.cancelled
          = some (ids, scan.sift (n.admits env.dataset)) := sift
      generalize row : Binding.ofRow n.attributes ids = own
      rcases loaded : Window.loadAll env advance (own.extendAbsent n.context)
        (scan.order.firstChanged n.childContext (own.extendAbsent n.context)) n.capacity n.children
        with ⟨failure | _, children⟩
      · obtain ⟨stats, found⟩ := find_of_failed drawn row.symm (row ▸ holds) loaded
        rw [← Scan.order_sift (n.admits env.dataset)] at loaded
        obtain ⟨stats', found'⟩ := find_of_failed drawn' row.symm (row ▸ holds) loaded
        exact ⟨_, _, _, found, found', stats', rfl⟩
      · obtain ⟨stats, found⟩ := find_of_loaded drawn row.symm (row ▸ holds) loaded
        rw [← Scan.order_sift (n.admits env.dataset)] at loaded
        obtain ⟨stats', found'⟩ := find_of_loaded drawn' row.symm (row ▸ holds) loaded
        exact ⟨_, _, _, found, found', stats', rfl⟩

/-- Turning the odometer neither looks at the scan nor at the counts. -/
theorem nextCombination_of_any (advance : Advance) (n : Node) : ∃ result children,
    ∀ (scan : Scan) (stats : NodeStats), ∃ stats',
      ({ n with scan, stats } : Node).nextCombination advance
        = (result, { n with scan, children, stats := stats' }) := by
  simp only [nextCombination]
  rcases (Window.moveFirst advance n.capacity n.children).moved with failure | _ | _
  · exact ⟨_, _, fun _ _ => ⟨_, rfl⟩⟩
  · exact ⟨_, _, fun _ _ => ⟨_, rfl⟩⟩
  · rcases Window.rewindAll advance n.capacity
      (Window.moveFirst advance n.capacity n.children).lower with ⟨failure | _, lower⟩
    · exact ⟨_, _, fun _ _ => ⟨_, rfl⟩⟩
    · exact ⟨_, _, fun _ _ => ⟨_, rfl⟩⟩

theorem extend_sifts (sifts : Sifts env.dataset n m) (active : n.state = .active .extend)
    (advance : Advance) :
    ∃ result n' m', n.extend env advance = (result, n') ∧ m.extend env advance = (result, m') ∧
      Sifts env.dataset n' m' := by
  obtain ⟨stats₀, rfl⟩ := sifts
  obtain ⟨found, children, turned⟩ := nextCombination_of_any advance n
  obtain ⟨stats₁, one⟩ : ∃ stats, n.nextCombination advance = (found, { n with children, stats }) :=
    turned n.scan n.stats
  obtain ⟨stats₂, two⟩ : ∃ stats,
      ({ n.sifted env.dataset with stats := stats₀ } : Node).nextCombination advance
        = (found, { n.sifted env.dataset with children, stats }) :=
    turned (n.sifted env.dataset).scan stats₀
  rcases found with failure | _ | _
  · exact ⟨_, _, _, by rw [extend, one], by rw [extend, two]; rfl, stats₂, rfl⟩
  · exact ⟨_, _, _, by rw [extend, one], by rw [extend, two]; rfl, stats₂, rfl⟩
  · obtain ⟨stats₁, extended⟩ := extend_of_next env active one
    obtain ⟨stats₂, extended'⟩ :=
      extend_of_next (n := { n.sifted env.dataset with stats := stats₀ }) env active two
    exact ⟨_, _, _, extended, extended', stats₂, rfl⟩

/-! ## The loop -/

/-- With no smaller a budget the sifted node comes to the same. -/
theorem advanceWithin_sifts {budget budget' : Nat} (sifts : Sifts env.dataset n m)
    (more : budget ≤ budget') (enough : (n.advanceWithin env budget).1 ≠ .error .outOfSteps) :
    ∃ result n' m', n.advanceWithin env budget = (result, n') ∧
      m.advanceWithin env budget' = (result, m') ∧ Sifts env.dataset n' m' := by
  induction budget generalizing budget' n m with
  | zero => exact absurd rfl enough
  | succ budget ih =>
    obtain _ | budget' := budget'
    · cases more
    have fewer := Nat.le_of_succ_le_succ more
    have state : m.state = n.state := by
      obtain ⟨stats, rfl⟩ := sifts
      rfl
    have larger := advanceWithin_extends env fewer
    unfold advanceWithin at enough ⊢
    rw [state]
    cases now : n.state with
    | exhausted => exact ⟨_, _, _, rfl, rfl, sifts⟩
    | ready phase => exact ⟨_, _, _, rfl, rfl, sifts⟩
    | active phase =>
      simp only [now] at enough
      cases phase with
      | find =>
        rcases find_sifts sifts (advanceWithin env budget) with
          ⟨n', found, sifts'⟩ | ⟨result, n', m', found, found', sifts'⟩
        · simp only [found] at enough ⊢
          obtain ⟨result, last, last', same, same', sifts''⟩ :=
            ih sifts' (Nat.le_of_succ_le more) enough
          refine ⟨result, last, last', same, ?_, sifts''⟩
          rw [advanceWithin, state, now] at same'
          exact same'
        · have running : result ≠ .error .outOfSteps := by
            rintro rfl
            simp [found] at enough
          have same : m.find env (advanceWithin env budget') = (result, m') :=
            (find_extends larger env m (by rwa [found'])).trans found'
          cases result with
          | error failure =>
            simp only [found, same]
            exact ⟨_, _, _, rfl, rfl, sifts'⟩
          | ok _ =>
            simp only [found] at enough
            simp only [found, same]
            exact ih sifts' fewer enough
      | extend =>
        obtain ⟨result, n', m', extended, extended', sifts'⟩ :=
          extend_sifts sifts now (advanceWithin env budget)
        have running : result ≠ .error .outOfSteps := by
          rintro rfl
          simp [extended] at enough
        have same : m.extend env (advanceWithin env budget') = (result, m') :=
          (extend_extends larger env m (by rwa [extended'])).trans extended'
        cases result with
        | error failure =>
          simp only [extended, same]
          exact ⟨_, _, _, rfl, rfl, sifts'⟩
        | ok _ =>
          simp only [extended] at enough
          simp only [extended, same]
          exact ih sifts' fewer enough

/-! ## Runs -/

theorem advance_sifts (bounded : n.Bounded env.dataset) (sifts : Sifts env.dataset n m) :
    ∃ result n' m', n.advance env = (result, n') ∧ m.advance env = (result, m') ∧
      Sifts env.dataset n' m' := by
  have steps := (advance_bounds bounded).steps
  have steps' := (advance_bounds (sifts.bounded bounded)).steps
  -- A budget that both do with.
  have larger := Nat.le_max_left (n.budget env.dataset) (m.budget env.dataset)
  have larger' := Nat.le_max_right (n.budget env.dataset) (m.budget env.dataset)
  obtain ⟨result, n', m', advanced, advanced', sifts'⟩ := advanceWithin_sifts sifts larger steps
  rw [advanceWithin_extends env larger' m steps'] at advanced'
  exact ⟨result, n', m', advanced, advanced', sifts'⟩

theorem take_sifts (sifts : Sifts d n m) :
    ∃ result n' m', n.take = (result, n') ∧ m.take = (result, m') ∧ Sifts d n' m' := by
  obtain ⟨stats, rfl⟩ := sifts
  cases n with
  | mk _ _ _ _ _ _ state => cases state <;> exact ⟨_, _, _, rfl, rfl, stats, rfl⟩

/-- However much is drawn, the own rows that fail have changed nothing but the counts. -/
theorem after_sifts {steps : List Step} (bounded : n.Bounded env.dataset)
    (sifts : Sifts env.dataset n m) (draws : ∀ step ∈ steps, step.Draws) :
    Sifts env.dataset (n.after env steps) (m.after env steps) := by
  induction steps generalizing n m with
  | nil => exact sifts
  | cons step rest ih =>
    obtain ⟨first, others⟩ := List.forall_mem_cons.1 draws
    refine ih (bounded.perform step) ?_ others
    cases step with
    | advance =>
      obtain ⟨result, n', m', advanced, advanced', sifts'⟩ := advance_sifts bounded sifts
      simp only [perform, advanced, advanced']
      cases result <;> exact sifts'
    | take =>
      obtain ⟨result, n', m', taken, taken', sifts'⟩ := take_sifts sifts
      simp only [perform, taken, taken']
      cases result <;> exact sifts'
    | «open» => cases first
    | seek => cases first
    | reset => cases first

/-- The children of a node come to stand where those of the sifted node do. -/
theorem children_after_sifted {steps : List Step} (bounded : n.Bounded env.dataset)
    (draws : ∀ step ∈ steps, step.Draws) :
    (n.after env steps).children = ((n.sifted env.dataset).after env steps).children := by
  obtain ⟨stats, same⟩ : Sifts env.dataset (n.after env steps)
      ((n.sifted env.dataset).after env steps) := after_sifts bounded ⟨n.stats, rfl⟩ draws
  rw [same]
  rfl

end Node

end QuadQuery
