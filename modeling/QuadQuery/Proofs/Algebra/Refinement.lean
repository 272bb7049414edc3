import QuadQuery.Proofs.Algebra.Evaluation
import QuadQuery.Proofs.Execution

/-!
# Plans and evaluation

A planned tree hangs the right operand of a left join below the required pattern of the left one,
next to what is there already. If both operands only share what the required patterns bind, the
answers of the tree are the rows of the query (`Algebra.Plans.perm_eval`), and so are the rows that
a session returns.

The own row of the root is all that a child sees of the left operand, and the filters of the root
see what the child binds. Both make no difference where the operands share bound variables alone.
-/

namespace QuadQuery

namespace Algebra

variable {settings : Settings} {d : Dataset} {op left right : Algebra} {n root child : Node}
  {env own : Binding} {picks : List (Option Binding)} {outer : List Variable} {v : Variable}

/-- The own row of the root gives a value to every variable of the required pattern. -/
theorem Plans.isSome_own (valid : d.Valid) (plans : Plans settings op n)
    (first : own ∈ n.scan.assignments d env) (bound : v ∈ op.required.vars) :
    (own.get? v).isSome = true := by
  rw [plans.scan] at first
  obtain ⟨_, holds, _⟩ := (BasicPattern.mem_assignments valid).1 first
  exact holds.isSome_get? ((settings.reorder.mem_vars_apply _).2 bound)

/-- A combination adds nothing to the own row that a variable bound further out can tell. -/
theorem Plans.get?_extend_own (valid : d.Valid) (plans : Plans settings op n)
    (bound : ∀ v ∈ outer, (env.get? v).isSome = true) (first : own ∈ n.scan.assignments d env)
    (combination : picks ∈ Wheel.picks (Node.answerColumns d (own.extendAbsent env) n.children))
    (shared : v ∈ op.patternVars → v ∈ op.required.vars ++ outer) :
    (own.extendAbsent env).get? v = ((Node.merge own picks).extendAbsent env).get? v := by
  obtain ⟨within, agrees⟩ := plans.built.2.merge_spec valid first combination
  rw [Binding.get?_extendAbsent, Binding.get?_extendAbsent]
  cases inOwn : own.get? v with
  | some i => rw [Node.get?_merge own picks inOwn]
  | none =>
    cases inRow : (Node.merge own picks).get? v with
    | none => rfl
    | some i =>
      have known := plans.mem_vars.1 (within v (Option.isSome_of_eq_some inRow))
      rcases List.mem_append.1 (shared known) with here | further
      · exact absurd (plans.isSome_own valid first here) (by simp [inOwn])
      · obtain ⟨j, inEnv⟩ := Option.isSome_iff_exists.1 (bound v further)
        simp [inEnv, agrees v i j inRow inEnv]

/-- The filters of the root do not see a child that shares with them only what is bound. -/
theorem Plans.unseen (valid : d.Valid) (first : Plans settings left root) (indexed : child.Indexed)
    (bound : ∀ v ∈ outer, (env.get? v).isSome = true)
    (shared : ∀ v ∈ left.spine.flatMap Expr.vars, v ∈ child.vars →
      v ∈ left.required.vars ++ outer) : Node.Unseen d env root child := by
  intro own member picks combination row found
  obtain ⟨within, agrees⟩ := indexed.answers_spec valid found
  refine Node.passes_congr fun e filed v mentioned => ?_
  rw [Node.view, Node.view, Binding.get?_extendAbsent]
  cases inRow : (Node.merge own picks).get? v with
  | some i => rfl
  | none =>
    cases added : row.get? v with
    | none => rfl
    | some i =>
      have inOwn : own.get? v = none := by
        by_contra known
        obtain ⟨j, inOwn⟩ := Option.ne_none_iff_exists'.1 known
        rw [Node.get?_merge own picks inOwn] at inRow
        cases inRow
      have looked : v ∈ left.spine.flatMap Expr.vars :=
        List.mem_flatMap.2 ⟨e, first.mem_filters.1 filed, mentioned⟩
      rcases List.mem_append.1 (shared v looked (within v (Option.isSome_of_eq_some added))) with
        here | further
      · exact absurd (first.isSome_own valid member here) (by simp [inOwn])
      · obtain ⟨j, inEnv⟩ := Option.isSome_iff_exists.1 (bound v further)
        have same := agrees v i j added (by simp [inOwn, inEnv])
        simp [inEnv, same]

/-- What holds of the operands of a left join holds of the left join. -/
theorem Plans.perm_eval_leftJoin (valid : d.Valid) (first : Plans settings left root)
    (second : Plans settings right child) {exprs : List Expr}
    (bound : ∀ v ∈ outer, (env.get? v).isSome = true)
    (shared : ∀ v ∈ left.mentions, v ∈ right.mentions ++ exprs.flatMap Expr.vars →
      v ∈ left.required.vars ++ outer)
    (lefts : (root.answers d env).Perm (left.eval d env))
    (rights : ∀ inner, (∀ v ∈ left.required.vars ++ outer, (inner.get? v).isSome = true) →
      (child.answers d inner).Perm (right.eval d inner)) :
    ((root.addChild (child.addFilters exprs)).answers d env).Perm
      ((Algebra.leftJoin left right exprs).eval d env) := by
  have indexed := (Node.addFilters_planned second.built exprs).2
  have unseen : Node.Unseen d env root (child.addFilters exprs) := by
    refine first.unseen valid indexed bound fun v looked there => ?_
    rw [Node.vars_addFilters, second.mem_vars] at there
    exact shared v (left.spineVars_subset looked)
      (List.mem_append_left _ (right.patternVars_subset there))
  refine (Node.perm_answers_addChild unseen).trans ?_
  refine .trans ?_ (lefts.flatMap_right _)
  rw [Node.answers_eq_answersOf, List.flatMap_assoc]
  refine List.Perm.flatMap_left _ fun own member => List.Perm.flatMap_left _ fun m found => ?_
  obtain ⟨picks, combination, rfl, _⟩ := Node.mem_answersOf.1 found
  -- The child sees the own row only, but it would not notice the rest of the combination.
  have same : ∀ v ∈ right.mentions ++ exprs.flatMap Expr.vars,
      (own.extendAbsent env).get? v = ((Node.merge own picks).extendAbsent env).get? v :=
    fun v mentioned => first.get?_extend_own valid bound member combination fun known =>
      shared v (left.patternVars_subset known) mentioned
  obtain ⟨sameRight, sameExprs⟩ := List.forall_mem_append.1 same
  rw [Node.answers_addFilters, ← eval_congr right sameRight, ← passes_env_congr sameExprs]
  refine Node.perm_optional (.filter _ (rights _ ?_)) _
  exact Binding.isSome_get?_extendAbsent (fun _ => first.isSome_own valid member) bound

/-- The answers of a planned tree are the rows of the query, in some order. -/
theorem Plans.perm_eval (valid : d.Valid) (plans : Plans settings op n) (shared : op.Scoped outer)
    (bound : ∀ v ∈ outer, (env.get? v).isSome = true) :
    (n.answers d env).Perm (op.eval d env) := by
  -- The environment and what it binds change on the way into a right operand.
  induction plans generalizing outer env with
  | bgp pattern => exact perm_answers_leaf valid settings pattern
  | quadPattern graph pattern => exact perm_answers_leaf valid settings (pattern.inGraph graph)
  | leftJoin first second exprs lefts rights =>
    obtain ⟨both, inLeft, inRight⟩ := shared
    exact first.perm_eval_leftJoin valid second bound both (lefts inLeft bound)
      fun inner all => rights inRight all
  | @conditional left right root child first second lefts rights =>
    rw [scoped_conditional] at shared
    obtain ⟨both, inLeft, inRight⟩ := shared
    rw [eval_conditional]
    exact first.perm_eval_leftJoin valid second bound both (lefts inLeft bound)
      fun inner all => rights inRight all
  | filter exprs _ subs =>
    rw [Node.answers_addFilters]
    exact (subs shared bound).filter _

end Algebra

namespace Session

/-- A session returns the rows of a query whose operands share only what the required patterns
bind, in some order. -/
theorem perm_runNow {s : Session} (reachable : s.dataset.Reachable) {op : Algebra}
    (supported : op.Supported) (shared : op.Scoped []) :
    ∃ solutions, s.runNow op = .ok solutions ∧ (solutions.map .ok).Perm
      ((op.eval s.dataset ∅).map (Solution.ofBinding s.dataset.terms)) := by
  obtain ⟨n, plans⟩ := Algebra.exists_plans s.settings op supported
  obtain ⟨solutions, returned, all⟩ := s.runNow_spec reachable plans
  exact ⟨solutions, returned, all.trans ((plans.perm_eval reachable.valid shared nofun).map _)⟩

/-- Friends of friends, if there are any. -/
theorem perm_runNow_friends :
    let knows (s o : String) : Algebra :=
      .bgp ⟨[.triple (.var ⟨s⟩) (.term (.iri "knows")) (.var ⟨o⟩)]⟩
    let op : Algebra :=
      .filter [.bound ⟨"b"⟩] (.leftJoin (knows "a" "b") (knows "b" "c") [.bound ⟨"a"⟩])
    let s : Session := {
      dataset := (Dataset.empty.addAll [⟨.iri "x", .iri "knows", .iri "y", none⟩,
        ⟨.iri "y", .iri "knows", .iri "z", none⟩]).2
      settings := {} }
    ∃ solutions, s.runNow op = .ok solutions ∧ (solutions.map .ok).Perm
      ((op.eval s.dataset ∅).map (Solution.ofBinding s.dataset.terms)) :=
  perm_runNow (.addAll .empty _) ⟨trivial, trivial⟩ (by decide +kernel)

end Session

end QuadQuery
