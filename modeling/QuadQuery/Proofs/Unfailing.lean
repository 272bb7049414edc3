import QuadQuery.Proofs.DatasetContents
import QuadQuery.Proofs.Execution

/-!
# Queries do not fail

A query fails to start if an operator without a plan stands in it, and the failure names the first
one. Any other query answers every call, whatever calls were made before and whether or not it has
been cancelled (`Query.start_replies`).
-/

namespace QuadQuery

namespace Algebra

/-- No join tree is planned for the operator. -/
def hasNoPlan : Algebra → Bool
  | .join .. | .union .. | .sequence _ | .project .. | .distinct _ => true
  | .bgp _ | .quadPattern .. | .leftJoin .. | .conditional .. | .filter .. => false

/-- The first operator without a plan, in the order in which they are written. -/
def firstWithoutPlan? (a : Algebra) : Option Algebra :=
  ((a.preorder 0).map Prod.snd).find? hasNoPlan

/-- What planning a query comes to if `op?` is the first operator without a plan. -/
def PlannedUpTo (settings : Settings) (a : Algebra) : Option Algebra → Prop
  | some op => a.plan settings = .error (.unsupported op.name)
  | none => ∃ n, Plans settings a n

/-- Planning two operands goes through the first before the second. -/
theorem PlannedUpTo.both {settings : Settings} {left right a : Algebra} {op? op?' : Option Algebra}
    (first : PlannedUpTo settings left op?) (second : PlannedUpTo settings right op?')
    (stopsLeft : ∀ failure, left.plan settings = .error failure → a.plan settings = .error failure)
    (stopsRight : ∀ n, left.plan settings = .ok n → ∀ failure,
      right.plan settings = .error failure → a.plan settings = .error failure)
    (together : ∀ n m, Plans settings left n → Plans settings right m → ∃ n', Plans settings a n') :
    PlannedUpTo settings a (op?.or op?') := by
  cases op? with
  | some op => exact stopsLeft _ first
  | none =>
    obtain ⟨n, plansLeft⟩ := first
    cases op?' with
    | some op => exact stopsRight n (plan_eq_ok plansLeft) _ second
    | none =>
      obtain ⟨m, plansRight⟩ := second
      exact together n m plansLeft plansRight

/-- Planning stops at the first operator, in the order in which they are written, that has no
plan. -/
theorem plannedUpTo_preorder (settings : Settings) : (a : Algebra) → (depth : Nat) →
    PlannedUpTo settings a (((a.preorder depth).map Prod.snd).find? hasNoPlan)
  | .bgp pattern, _ => ⟨_, .bgp pattern⟩
  | .quadPattern graph pattern, _ => ⟨_, .quadPattern graph pattern⟩
  | .leftJoin left right exprs, depth => by
    have first := plannedUpTo_preorder settings left (depth + 1)
    have second := plannedUpTo_preorder settings right (depth + 1)
    simp only [preorder, List.cons_append, List.map_cons, List.map_append, List.find?_cons,
      hasNoPlan, List.find?_append]
    refine first.both second (fun failure stops => ?_) (fun n done failure stops => ?_)
      fun n m first second => ⟨_, .leftJoin first second exprs⟩
    · rw [plan, stops]; rfl
    · rw [plan, done, stops]; rfl
  | .conditional left right, depth => by
    have first := plannedUpTo_preorder settings left (depth + 1)
    have second := plannedUpTo_preorder settings right (depth + 1)
    simp only [preorder, List.cons_append, List.map_cons, List.map_append, List.find?_cons,
      hasNoPlan, List.find?_append]
    refine first.both second (fun failure stops => ?_) (fun n done failure stops => ?_)
      fun n m first second => ⟨_, .conditional first second⟩
    · rw [plan, stops]; rfl
    · rw [plan, done, stops]; rfl
  | .filter exprs sub, depth => by
    have first := plannedUpTo_preorder settings sub (depth + 1)
    simp only [preorder, List.map_cons, List.find?_cons, hasNoPlan]
    generalize List.find? hasNoPlan _ = op? at first ⊢
    cases op? with
    | some op =>
      have stops : sub.plan settings = .error (.unsupported op.name) := first
      show (Algebra.filter exprs sub).plan settings = _
      rw [plan, stops]; rfl
    | none =>
      obtain ⟨n, plans⟩ := first
      exact ⟨_, .filter exprs plans⟩
  | .join .., _ | .union .., _ | .sequence _, _ | .project .., _ | .distinct _, _ => rfl

end Algebra

namespace Query

/-! ## Calls -/

/-- A call to a running query. -/
inductive Call where
  | next
  | nextBinding
  | cancel

/-- What a call returns. -/
inductive Reply where
  | solution (solution? : Option Solution)
  | binding (row? : Option Binding)
  | cancelled

/-- Answers a call. A query that was cancelled stays so. -/
def answer (env : Env) (q : Query) : Call → Except Failure Reply × Env × Query
  | .next =>
    let (result, q) := q.next env
    (result.map .solution, env, q)
  | .nextBinding =>
    let (result, q) := q.nextBinding env
    (result.map .binding, env, q)
  | .cancel => (.ok .cancelled, { env with cancelled := true }, q)

/-- The answers to calls that are made in turn. -/
def replies (env : Env) (q : Query) : List Call → List (Except Failure Reply)
  | [] => []
  | call :: rest =>
    let (reply, env, q) := q.answer env call
    reply :: replies env q rest

/-- A query that was cancelled or finished, or whose tree stands as it should and has only rows
whose numbers have terms left. -/
def Runs (env : Env) (q : Query) : Prop :=
  env.cancelled = true ∨ q.finished = true ∨
    q.root.Valid env.dataset ∧ ∀ row ∈ q.root.remaining env.dataset, row.Known env.dataset

/-- The rows that a query has left to return, none if it was cancelled or is finished. -/
def left (env : Env) (q : Query) : List Binding :=
  if env.cancelled || q.finished then [] else q.root.remaining env.dataset

variable {env : Env} {q q' : Query} {row? : Option Binding}

theorem left_of_cancelled (cancelled : env.cancelled = true) : q.left env = [] := by
  rw [left, cancelled, Bool.true_or, if_pos rfl]

theorem Runs.known (runs : q.Runs env) : ∀ row ∈ q.left env, row.Known env.dataset := by
  unfold left
  split
  · exact List.forall_mem_nil _
  · next live =>
    rw [Bool.or_eq_true, not_or] at live
    exact ((runs.resolve_left live.1).resolve_left live.2).2

/-- A running query returns the first of the rows that it has left, and runs on with the others. -/
theorem Runs.nextBinding (valid : env.dataset.Valid) (runs : q.Runs env) : ∃ q',
    q.nextBinding env = (.ok (q.left env).head?, q') ∧ q'.Runs env ∧
      q'.left env = (q.left env).tail ∧ q'.rows = q.rows + (q.left env).head?.toList.length := by
  by_cases finished : q.finished = true
  · have none : q.left env = [] := by rw [left, finished, Bool.or_true, if_pos rfl]
    rw [none]
    exact ⟨q, by rw [Query.nextBinding, if_pos finished]; rfl, runs, none, rfl⟩
  by_cases cancelled : env.cancelled = true
  · rw [left_of_cancelled cancelled]
    refine ⟨{ q with finished := true }, ?_, .inl cancelled, left_of_cancelled cancelled, rfl⟩
    rw [Query.nextBinding, if_neg finished, if_pos cancelled]
    rfl
  have live : env.cancelled = false := eq_false_of_ne_true cancelled
  have unfinished : q.finished = false := eq_false_of_ne_true finished
  have rest : ∀ root rows, left env { root, rows } = root.remaining env.dataset := by
    intro root rows
    rw [left, live, Bool.false_or, if_neg (by simp)]
  obtain ⟨settled, known⟩ := (runs.resolve_left cancelled).resolve_left finished
  obtain ⟨root, returned⟩ := nextBinding_spec valid live settled unfinished
  have same : q.left env = q.root.remaining env.dataset := by
    rw [left, live, unfinished, Bool.false_or, if_neg Bool.false_ne_true]
  rw [same]
  cases rows : q.root.remaining env.dataset with
  | nil =>
    rw [rows] at returned
    exact ⟨_, returned, .inr (.inl rfl), by rw [left, Bool.or_true, if_pos rfl]; rfl, rfl⟩
  | cons row later =>
    rw [rows] at returned known
    obtain ⟨returned, settled', remaining, _⟩ := returned
    have others := (List.forall_mem_cons.1 known).2
    rw [unfinished] at returned
    exact ⟨_, returned, .inr (.inr ⟨settled', remaining ▸ others⟩), (rest _ _).trans remaining, rfl⟩

/-- With its terms, a running query returns the row that it would return with numbers. -/
theorem Runs.next (runs : q.Runs env)
    (returned : q.nextBinding env = (.ok (q.left env).head?, q')) : ∃ solution?,
    q.next env = (.ok solution?, q') ∧
      (q.left env).head?.map (Solution.ofBinding env.dataset.terms) = solution?.map .ok := by
  unfold Query.next
  rw [returned]
  cases rows : q.left env with
  | nil => exact ⟨none, rfl, rfl⟩
  | cons row later =>
    obtain ⟨solution, named⟩ := (runs.known row (rows ▸ List.mem_cons_self)).exists_solution
    exact ⟨some solution, by simp only [List.head?_cons, named],
      by simp only [List.head?_cons, Option.map_some, named]⟩

/-- A running query answers any call without a failure and runs on. -/
theorem Runs.answer (valid : env.dataset.Valid) (runs : q.Runs env) (call : Call) :
    ∃ reply env' q', q.answer env call = (.ok reply, env', q') ∧ env'.dataset = env.dataset ∧
      q'.Runs env' := by
  obtain ⟨q', returned, runs', _⟩ := runs.nextBinding valid
  cases call with
  | next =>
    obtain ⟨solution?, same, _⟩ := runs.next returned
    exact ⟨.solution solution?, env, q', by rw [Query.answer, same]; rfl, rfl, runs'⟩
  | nextBinding => exact ⟨.binding _, env, q', by rw [Query.answer, returned]; rfl, rfl, runs'⟩
  | cancel => exact ⟨.cancelled, _, q, rfl, rfl, .inl rfl⟩

theorem replies_runs (valid : env.dataset.Valid) (runs : q.Runs env) (calls : List Call)
    (failure : Failure) : .error failure ∉ q.replies env calls := by
  induction calls generalizing env q with
  | nil => exact List.not_mem_nil
  | cons call rest ih =>
    obtain ⟨reply, env', q', same, dataset, runs'⟩ := runs.answer valid call
    rw [replies, same]
    exact List.not_mem_cons_of_ne_of_not_mem nofun (ih (dataset ▸ valid) runs')

/-- A query over a dataset that was made by any calls fails to start exactly if it has an operator
without a plan, and the failure names the first one. Any other query answers all calls, in any
order, without a failure. -/
theorem start_replies (past : List Dataset.Call) (settings : Settings) (a : Algebra) :
    match a.firstWithoutPlan? with
    | some op => Query.start (Dataset.after past) settings a = .error (.unsupported op.name)
    | none => ∃ q, Query.start (Dataset.after past) settings a = .ok q ∧
        ∀ calls failure, .error failure ∉ q.replies { dataset := Dataset.after past } calls := by
  have valid := (Dataset.reachable_after past).valid
  have planned := Algebra.plannedUpTo_preorder settings a 0
  unfold Algebra.firstWithoutPlan?
  generalize List.find? _ _ = op? at planned ⊢
  cases op? with
  | some op =>
    have stops : a.plan settings = .error (.unsupported op.name) := planned
    show Query.start (Dataset.after past) settings a = _
    rw [start, stops]
    rfl
  | none =>
    obtain ⟨n, plans⟩ := planned
    obtain ⟨built, indexed⟩ := plans.built
    obtain ⟨q, started, settled, _, remaining⟩ := start_spec (d := Dataset.after past) plans
    have perm := Node.perm_rows_init valid built
    have runs : q.Runs { dataset := Dataset.after past } := by
      refine .inr (.inr ⟨settled, fun row member => ?_⟩)
      exact indexed.known valid (perm.mem_iff.1 (remaining ▸ member))
    exact ⟨q, started, replies_runs valid runs⟩

end Query

end QuadQuery
