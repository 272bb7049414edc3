import QuadQuery.Proofs.Unfailing

/-!
# Rows by any calls

The rows of a running query can be asked for with their terms or with numbers in their place, in any
order, and the query can be cancelled in between. Both kinds of calls go on in the one list of rows
that a run to the end returns, and nothing follows a cancellation or the end of the list
(`Query.start_orderly`).
-/

namespace QuadQuery

namespace Query

namespace Reply

/-- The row that a reply returns, with its terms. -/
def solution? (table : TermTable) : Reply → Option Solution
  | .solution solution? => solution?
  | .binding row? => row?.bind fun row => (Solution.ofBinding table row).toOption
  | .cancelled => none

def returnsRow : Reply → Bool
  | .solution solution? => solution?.isSome
  | .binding row? => row?.isSome
  | .cancelled => false

/-- A row was asked for, and there was none. -/
def isEnd : Reply → Bool
  | .solution solution? => solution?.isNone
  | .binding row? => row?.isNone
  | .cancelled => false

end Reply

/-- A query and its surroundings after calls that were made in turn. -/
def after (env : Env) (q : Query) (calls : List Call) : Env × Query :=
  calls.foldl (fun state call => (state.2.answer state.1 call).2) (env, q)

/-- How the calls that were made to a query went, if `solutions` are the rows of a run to the end. -/
structure Orderly (table : TermTable) (solutions : List Solution) (calls : List Call)
    (replies : List Reply) (env : Env) (q : Query) : Prop where
  /-- The rows that were returned are the first ones of the run, as many as are counted. -/
  returned : replies.filterMap (Reply.solution? table) = solutions.take q.rows
  within : q.rows ≤ solutions.length
  counted : replies.countP Reply.returnsRow = q.rows
  /-- Unless the query was cancelled, the end comes when all rows have been returned. -/
  complete : .cancel ∉ calls → (∃ reply ∈ replies, reply.isEnd = true) → q.rows = solutions.length
  /-- No call returns a row once the query was cancelled or the end has come. -/
  silent : (.cancel ∈ calls ∨ ∃ reply ∈ replies, reply.isEnd = true) → ∀ call reply,
    (q.answer env call).1 = .ok reply → reply.returnsRow = false
  /-- Either kind of call would return the same row and leave the same query. -/
  alike : ∃ row? solution? q', q.nextBinding env = (.ok row?, q') ∧
    q.next env = (.ok solution?, q') ∧ row?.map (Solution.ofBinding table) = solution?.map .ok

/-- A query to which calls were made has returned the rows `given` and will return the rows `later`
unless it was cancelled. -/
structure Progress (d : Dataset) (given later : List Solution) (calls : List Call)
    (replies : List Reply) (env : Env) (q : Query) : Prop where
  dataset : env.dataset = d
  runs : q.Runs env
  returned : replies.filterMap (Reply.solution? d.terms) = given
  counted : replies.countP Reply.returnsRow = given.length
  rows : q.rows = given.length
  cancelled : .cancel ∈ calls → env.cancelled = true
  ended : (∃ reply ∈ replies, reply.isEnd = true) → q.left env = []
  rest : .cancel ∉ calls → (q.left env).map (Solution.ofBinding d.terms) = later.map .ok

variable {d : Dataset} {given later solutions : List Solution} {calls : List Call} {replies : List Reply}
  {env : Env} {q q' : Query}

namespace Progress

theorem left_eq_nil (h : Progress d given later calls replies env q)
    (closed : .cancel ∈ calls ∨ ∃ reply ∈ replies, reply.isEnd = true) : q.left env = [] :=
  closed.elim (fun cancelled => left_of_cancelled (h.cancelled cancelled)) h.ended

/-- A call that asks for a row returns the first row that is left, or the end. -/
theorem pull (h : Progress d given later calls replies env q) (call : Call) (reply : Reply)
    (asks : call ≠ .cancel)
    (runs : q'.Runs env) (left : q'.left env = (q.left env).tail)
    (rows : q'.rows = q.rows + (q.left env).head?.toList.length)
    (row : (reply.solution? d.terms).map .ok = (q.left env).head?.map (Solution.ofBinding d.terms))
    (returns : reply.returnsRow = (q.left env).head?.isSome)
    (isEnd : reply.isEnd = (q.left env).head?.isNone) : ∃ given' later',
    given' ++ later' = given ++ later ∧
      Progress d given' later' (calls ++ [call]) (replies ++ [reply]) env q' := by
  have same : .cancel ∈ calls ++ [call] ↔ .cancel ∈ calls := by simp [asks.symm]
  cases first : q.left env with
  | nil =>
    rw [first] at left rows row returns isEnd
    have none : reply.solution? d.terms = none := Option.map_eq_none_iff.1 row
    refine ⟨given, later, rfl, h.dataset, runs, ?_, ?_, rows.trans h.rows, ?_, ?_, ?_⟩
    · simp [h.returned, none]
    · simp [h.counted, returns]
    · exact fun cancelled => h.cancelled (same.1 cancelled)
    · exact fun _ => left
    · intro going
      rw [left, ← h.rest (mt same.2 going), first]
      rfl
  | cons binding others =>
    rw [first] at left rows row returns isEnd
    have going : .cancel ∉ calls := fun cancelled =>
      List.cons_ne_nil _ _ (first.symm.trans (h.left_eq_nil (.inl cancelled)))
    have rest := h.rest going
    obtain ⟨solution, named, means⟩ := Option.map_eq_some_iff.1 row
    cases later with
    | nil =>
      rw [first] at rest
      cases rest
    | cons solution' later =>
      rw [first, List.map_cons, List.map_cons, List.cons.injEq, ← means, Except.ok.injEq] at rest
      obtain ⟨rfl, rest⟩ := rest
      refine ⟨given ++ [solution], later, by simp, h.dataset, runs, ?_, ?_, ?_, ?_, ?_, ?_⟩
      · simp [h.returned, named]
      · simp [h.counted, returns]
      · simpa [h.rows] using rows
      · exact fun cancelled => h.cancelled (same.1 cancelled)
      · -- No call before came to the end, since there was a row left.
        simp only [List.mem_append, List.mem_singleton, or_and_right, exists_or, exists_eq_left,
          isEnd]
        rintro (ended | ended)
        · exact absurd (first.symm.trans (h.ended ended)) (List.cons_ne_nil _ _)
        · cases ended
      · exact fun _ => left ▸ rest

/-- Any call is answered, and the rows go on where they were. -/
theorem answer (valid : d.Valid) (h : Progress d given later calls replies env q) (call : Call) :
    ∃ reply env' q' given' later', q.answer env call = (.ok reply, env', q') ∧
      given' ++ later' = given ++ later ∧
      Progress d given' later' (calls ++ [call]) (replies ++ [reply]) env' q' := by
  obtain ⟨dataset, runs, _⟩ := id h
  subst dataset
  obtain ⟨q', returned, runs', left, rows⟩ := runs.nextBinding valid
  obtain ⟨solution?, same, row⟩ := runs.next returned
  cases call with
  | next =>
    obtain ⟨given', later', whole, progress⟩ := h.pull .next (.solution solution?)
      Call.noConfusion runs' left rows row.symm
      (by simpa [Reply.returnsRow] using congrArg Option.isSome row.symm)
      (by simpa [Reply.isEnd] using congrArg Option.isNone row.symm)
    exact ⟨_, env, q', given', later', by rw [Query.answer, same]; rfl, whole, progress⟩
  | nextBinding =>
    have terms : (Reply.binding (q.left env).head?).solution? env.dataset.terms = solution? := by
      generalize (q.left env).head? = row? at row
      cases row? with
      | none => exact (Option.map_eq_none_iff.1 row.symm).symm
      | some row' =>
        obtain ⟨solution, rfl, means⟩ := Option.map_eq_some_iff.1 row.symm
        simp [Reply.solution?, ← means, Except.toOption]
    obtain ⟨given', later', whole, progress⟩ := h.pull .nextBinding
      (.binding (q.left env).head?) Call.noConfusion runs' left rows (terms ▸ row.symm) rfl rfl
    exact ⟨_, env, q', given', later', by rw [Query.answer, returned]; rfl, whole, progress⟩
  | cancel =>
    refine ⟨.cancelled, { env with cancelled := true }, q, given, later, rfl, rfl, rfl, .inl rfl, ?_, ?_,
      h.rows, fun _ => rfl, fun _ => left_of_cancelled rfl, fun going => absurd ?_ going⟩
    · simp [h.returned, Reply.solution?]
    · simp [h.counted, Reply.returnsRow]
    · simp

/-- The rows that were returned are the first ones of all, and how it stands with the next call. -/
theorem orderly (valid : d.Valid) (h : Progress d given later calls replies env q) :
    Orderly d.terms (given ++ later) calls replies env q := by
  obtain ⟨dataset, runs, _⟩ := id h
  subst dataset
  obtain ⟨q', returned, _, _, _⟩ := runs.nextBinding valid
  obtain ⟨solution?, same, row⟩ := runs.next returned
  refine ⟨?_, ?_, h.counted.trans h.rows.symm, fun going ended => ?_, fun closed call reply reads => ?_,
    _, solution?, q', returned, same, row⟩
  · rw [h.returned, h.rows, List.take_left]
  · rw [h.rows, List.length_append]
    exact Nat.le_add_right _ _
  · have rest := h.rest going
    rw [h.ended ended] at rest
    rw [h.rows, List.map_eq_nil_iff.1 rest.symm, List.append_nil]
  · rw [h.left_eq_nil closed] at returned row
    obtain rfl : solution? = none := Option.map_eq_none_iff.1 row.symm
    cases call with
    | next =>
      rw [Query.answer, same] at reads
      cases reads
      rfl
    | nextBinding =>
      rw [Query.answer, returned] at reads
      cases reads
      rfl
    | cancel =>
      cases reads
      rfl

end Progress

theorem after_append (env : Env) (q : Query) (calls : List Call) (call : Call) :
    q.after env (calls ++ [call])
      = ((q.after env calls).2.answer (q.after env calls).1 call).2 := by
  rw [after, List.foldl_append]
  rfl

theorem replies_append (env : Env) (q : Query) (calls : List Call) (call : Call) :
    q.replies env (calls ++ [call])
      = q.replies env calls ++ [((q.after env calls).2.answer (q.after env calls).1 call).1] := by
  induction calls generalizing env q with
  | nil => rfl
  | cons first rest ih => exact congrArg _ (ih _ _)

/-- Whatever calls are made to a query, they go on in its rows. -/
theorem Progress.goes_on (valid : d.Valid) (h : Progress d [] solutions [] [] env q)
    (calls : List Call) : ∃ replies given later, q.replies env calls = replies.map .ok ∧
      given ++ later = solutions ∧
      Progress d given later calls replies (q.after env calls).1 (q.after env calls).2 := by
  induction calls using List.reverseRecOn with
  | nil => exact ⟨[], [], solutions, rfl, rfl, h⟩
  | append_singleton calls call ih =>
    obtain ⟨replies, given, later, same, whole, progress⟩ := ih
    obtain ⟨reply, env', q', given', later', answered, whole', progress'⟩ :=
      progress.answer valid call
    refine ⟨replies ++ [reply], given', later', ?_, whole'.trans whole, ?_⟩
    · rw [replies_append, same, answered, List.map_append]
      rfl
    · rw [after_append, answered]
      exact progress'

/-- Over a dataset that was made by any calls, a query for which there is a plan can be asked for its
rows in any way and be cancelled at any time: the rows that it returns are the first rows of a run to
the end, in the same order, and there are no more of them once it was cancelled or has come to the
end, which without a cancellation comes behind the last row. -/
theorem start_orderly (past : List Dataset.Call) (settings : Settings) {a : Algebra}
    (supported : a.Supported) : ∃ q solutions,
    Query.start (Dataset.after past) settings a = .ok q ∧
      Session.runNow { dataset := Dataset.after past, settings } a = .ok solutions ∧
      ∀ calls, ∃ replies,
        q.replies { dataset := Dataset.after past } calls = replies.map .ok ∧
        Orderly (Dataset.after past).terms solutions calls replies
          (q.after { dataset := Dataset.after past } calls).1
          (q.after { dataset := Dataset.after past } calls).2 := by
  have reachable := Dataset.reachable_after past
  have valid := reachable.valid
  obtain ⟨n, plans⟩ := Algebra.exists_plans settings a supported
  obtain ⟨built, indexed⟩ := plans.built
  obtain ⟨root, started, settled, remaining⟩ := exists_started (d := Dataset.after past) plans
  obtain ⟨solutions, returned, all⟩ := Session.runNow_rows
    (s := { dataset := Dataset.after past, settings }) reachable plans
  have perm := Node.perm_rows_init valid built
  have progress : Progress (Dataset.after past) [] solutions [] []
      { dataset := Dataset.after past } { root } := by
    refine ⟨rfl, .inr (.inr ⟨settled, fun row member => ?_⟩), rfl, rfl, rfl, nofun, nofun, fun _ => ?_⟩
    · exact indexed.known valid (perm.mem_iff.1 (remaining ▸ member))
    · exact (congrArg _ remaining).trans all.symm
  refine ⟨{ root }, solutions, started, returned, fun calls => ?_⟩
  obtain ⟨replies, given, later, same, rfl, stands⟩ := progress.goes_on valid calls
  exact ⟨replies, same, stands.orderly valid⟩

/-- An optional pattern, with a row that it has no match for. -/
theorem start_orderly_optional :
    let past : List Dataset.Call := [.load "<a> <p> <b> . <c> <p> <d> . <d> <q> <e> ."]
    let a : Algebra := .leftJoin
      (.bgp ⟨[.triple (.var ⟨"s"⟩) (.term (.iri "p")) (.var ⟨"o"⟩)]⟩)
      (.bgp ⟨[.triple (.var ⟨"o"⟩) (.term (.iri "q")) (.var ⟨"x"⟩)]⟩) []
    a.Supported ∧ ∃ q solutions,
      Query.start (Dataset.after past) {} a = .ok q ∧
        Session.runNow { dataset := Dataset.after past, settings := {} } a = .ok solutions ∧
        ∀ calls, ∃ replies,
          q.replies { dataset := Dataset.after past } calls = replies.map .ok ∧
          Orderly (Dataset.after past).terms solutions calls replies
            (q.after { dataset := Dataset.after past } calls).1
            (q.after { dataset := Dataset.after past } calls).2 :=
  ⟨⟨trivial, trivial⟩, start_orderly _ {} ⟨trivial, trivial⟩⟩

/-- Two calls return a row each, and after the cancellation there is none although one is left. -/
example :
    let d := Dataset.after [.load "<a> <p> <b> . <c> <p> <d> . <d> <p> <e> ."]
    let a : Algebra := .bgp ⟨[.triple (.var ⟨"s"⟩) (.term (.iri "p")) (.var ⟨"o"⟩)]⟩
    ((Query.start d {} a).toOption.map fun q =>
      (q.replies { dataset := d } [.nextBinding, .next, .cancel, .next]).map fun reply =>
        reply.toOption.map Reply.returnsRow)
      = some [some true, some true, some false, some false] := by
  decide +kernel

end Query

end QuadQuery
