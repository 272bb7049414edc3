import QuadQuery.Proofs.Algebra.Planning
import QuadQuery.Proofs.JoinTree.Serving
import QuadQuery.Proofs.Solutions
import QuadQuery.Session

/-!
# Running a planned query

A query that has a plan runs to its end over every dataset that was made of statements, and the
rows that it returns are those of the planned join tree, in the order in which they are found
(`Session.runNow_rows`).
-/

namespace QuadQuery

namespace Node

variable {d : Dataset} {n : Node} {context own row : Binding}

/-- A combination is made of numbers that have terms if the rows of the children are. -/
theorem known_merge (valid : d.Valid) {s : IndexScan} (scan : n.scan = .index s)
    (first : own ∈ n.scan.assignments d context)
    (others : ∀ w ∈ n.children, ∀ row ∈ w.node.answers d (own.extendAbsent context), row.Known d)
    {picks : List (Option Binding)}
    (combination : picks ∈ Wheel.picks (answerColumns d (own.extendAbsent context) n.children)) :
    (merge own picks).Known d := by
  rw [scan] at first
  obtain ⟨within, holds, _⟩ := (BasicPattern.mem_assignments valid).1 first
  refine merge_induction (fun v id known => ?_) (fun row picked => ?_) fun a b => .extendAbsent
  · exact holds.lt_size valid (within v (Option.isSome_of_eq_some known)) known
  · obtain ⟨w, there, found⟩ := exists_child_of_mem_picks combination picked
    exact others w there row found

/-- The rows of a planned tree are made of numbers that have terms. -/
theorem Indexed.known (valid : d.Valid) (indexed : n.Indexed) (member : row ∈ n.answers d context) :
    row.Known d := by
  induction indexed generalizing context row with
  | @intro n s scan _ ih =>
    obtain ⟨own, first, picks, combination, rfl, _⟩ := mem_answers.1 member
    exact known_merge valid scan first (fun w there row found => ih w there found) combination

end Node

/-! ## Drawing rows to the end -/

namespace Query

variable {env : Env} {q : Query}

/-- A query that is neither cancelled nor finished returns the next of the rows that its root has
left, and is finished if there is none. Returning a row lowers the work ahead. -/
theorem nextBinding_spec (valid : env.dataset.Valid) (live : env.cancelled = false)
    (settled : q.root.Valid env.dataset) (unfinished : q.finished = false) : ∃ root,
    match q.root.remaining env.dataset with
    | [] => q.nextBinding env = (.ok none, { q with root, finished := true })
    | row :: later => q.nextBinding env = (.ok (some row), { q with root, rows := q.rows + 1 }) ∧
        root.Valid env.dataset ∧ root.remaining env.dataset = later ∧
        (root.work env.dataset).ahead < (q.root.work env.dataset).ahead := by
  obtain ⟨kept, found, remaining, ready⟩ := Node.advance_spec valid live settled
  obtain ⟨_, _, less, _⟩ := Node.advance_bounds (settled.bounded valid)
  rcases advanced : q.root.advance env with ⟨result, root⟩
  rw [advanced] at kept found remaining ready less
  subst found
  obtain ⟨_, ahead⟩ := less _ rfl
  simp only at kept remaining ready ahead
  unfold nextBinding
  rw [if_neg (ne_true_of_eq_false unfinished), if_neg (ne_true_of_eq_false live), advanced]
  cases rows : q.root.remaining env.dataset with
  | nil => exact ⟨root, rfl⟩
  | cons row later =>
    rw [rows] at remaining ready
    obtain ⟨phase, pending⟩ := ready rfl
    obtain ⟨row', root', take, kept', split, _⟩ := Node.take_spec kept.valid pending
    obtain ⟨_, _, take', _, one⟩ := Node.take_bounds (kept.valid.bounded valid) pending
    obtain ⟨_, rfl⟩ := Prod.mk.inj (take.symm.trans take')
    obtain ⟨rfl, rfl⟩ := List.cons.inj (remaining.symm.trans split)
    refine ⟨root', ?_, kept'.valid, rfl, by omega⟩
    simp only [List.isEmpty_cons, Bool.not_false, take, Except.map]

/-- A query that may ask often enough returns every row that its root has left. -/
theorem nextMany_spec (valid : env.dataset.Valid) (live : env.cancelled = false) (count : Nat)
    {q : Query} (settled : q.root.Valid env.dataset) (unfinished : q.finished = false)
    (enough : (q.root.work env.dataset).ahead < count)
    (known : ∀ row ∈ q.root.remaining env.dataset, row.Known env.dataset) :
    ∃ solutions q', q.nextMany env count = (solutions, .ok (), q') ∧ solutions.map .ok =
      (q.root.remaining env.dataset).map (Solution.ofBinding env.dataset.terms) := by
  -- Each row that is drawn lowers the work ahead, which bounds the number of rows that are left.
  induction count generalizing q with
  | zero => exact absurd enough (Nat.not_lt_zero _)
  | succ count ih =>
    obtain ⟨root, returned⟩ := nextBinding_spec valid live settled unfinished
    cases rows : q.root.remaining env.dataset with
    | nil =>
      rw [rows] at returned
      exact ⟨[], { q with root, finished := true }, by simp only [nextMany, next, returned], rfl⟩
    | cons row later =>
      rw [rows] at returned known
      obtain ⟨returned, settled', remaining, less⟩ := returned
      obtain ⟨first, others⟩ := List.forall_mem_cons.1 known
      obtain ⟨solution, same⟩ := first.exists_solution
      have fewer : (root.work env.dataset).ahead < count := by omega
      obtain ⟨solutions, q', drawn, all⟩ :=
        ih (q := { q with root, rows := q.rows + 1 }) settled' unfinished fewer (remaining ▸ others)
      refine ⟨solution :: solutions, q', ?_, ?_⟩
      · simp only [nextMany, next, returned, same, drawn]
      · rw [List.map_cons, List.map_cons, all, same, remaining]

/-- Draining an opened query returns all rows of its tree. -/
theorem drain_spec (valid : env.dataset.Valid) (live : env.cancelled = false)
    (settled : q.root.Valid env.dataset) (unfinished : q.finished = false)
    (known : ∀ row ∈ q.root.remaining env.dataset, row.Known env.dataset) :
    ∃ solutions q', q.drain env = (solutions, .ok (), q') ∧ solutions.map .ok =
      (q.root.remaining env.dataset).map (Solution.ofBinding env.dataset.terms) :=
  nextMany_spec valid live _ settled unfinished (Nat.lt_succ_self _) known

variable {d : Dataset} {settings : Settings} {op : Algebra} {n : Node}

theorem exists_started (plans : Algebra.Plans settings op n) : ∃ root,
    Query.start d settings op = .ok { root } ∧ root.Valid d ∧
      root.remaining d = (n.init d ∅).2.rows d ∅ := by
  let env : Env := { dataset := d }
  have settled : (n.init d ∅).2.Valid env.dataset := Node.valid_init plans.built.1 d ∅
  obtain ⟨_, root, opened, sought⟩ := Node.open_spec settled
  refine ⟨root, ?_, sought.valid, sought.remaining⟩
  unfold start
  rw [Algebra.plan_eq_ok plans]
  simp only [bind, Except.bind, opened, env]
  rfl

/-- A query that has a plan is opened with all rows of its tree left. -/
theorem start_spec (plans : Algebra.Plans settings op n) : ∃ q, Query.start d settings op = .ok q ∧
    q.root.Valid d ∧ q.finished = false ∧ q.root.remaining d = (n.init d ∅).2.rows d ∅ := by
  obtain ⟨root, started, settled, remaining⟩ := exists_started (d := d) plans
  exact ⟨{ root }, started, settled, rfl, remaining⟩

end Query

/-- A planned query returns the rows of its tree in the order in which they are found. -/
theorem Session.runNow_rows {s : Session} (reachable : s.dataset.Reachable) {op : Algebra} {n : Node}
    (plans : Algebra.Plans s.settings op n) : ∃ solutions, s.runNow op = .ok solutions ∧
      solutions.map .ok = ((n.init s.dataset ∅).2.rows s.dataset ∅).map
        (Solution.ofBinding s.dataset.terms) := by
  have valid := reachable.valid
  obtain ⟨built, indexed⟩ := plans.built
  obtain ⟨q, started, settled, unfinished, remaining⟩ := Query.start_spec (d := s.dataset) plans
  have perm := Node.perm_rows_init valid built
  obtain ⟨solutions, q', drained, all⟩ := @Query.drain_spec { dataset := s.dataset } q valid rfl
    settled unfinished fun row member => indexed.known valid (perm.mem_iff.1 (remaining ▸ member))
  refine ⟨solutions, ?_, by rw [all, remaining]⟩
  unfold runNow
  rw [started]
  simp only [bind, Except.bind, drained]
  rfl

/-- A planned query returns the answers of its tree, in some order. -/
theorem Session.runNow_spec {s : Session} (reachable : s.dataset.Reachable) {op : Algebra} {n : Node}
    (plans : Algebra.Plans s.settings op n) : ∃ solutions, s.runNow op = .ok solutions ∧
      (solutions.map .ok).Perm
        ((n.answers s.dataset ∅).map (Solution.ofBinding s.dataset.terms)) := by
  obtain ⟨solutions, returned, all⟩ := s.runNow_rows reachable plans
  exact ⟨solutions, returned, all ▸ (Node.perm_rows_init reachable.valid plans.built.1).map _⟩

end QuadQuery
