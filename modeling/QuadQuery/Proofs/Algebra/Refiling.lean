import Mathlib.Logic.Relation
import QuadQuery.Proofs.Execution
import QuadQuery.Proofs.JoinTree.Refiling

/-!
# Queries whose filters are placed differently

A filter can be written as one conjunction or as several filters around each other, and what is
asked of an optional branch can be written with the left join or inside the branch. These are ways
of writing one query: it returns the same rows in the same order (`Session.runNow_refiled`).
-/

namespace QuadQuery

namespace Algebra

variable {settings : Settings} {op op' : Algebra} {n : Node}

/-- A filter is placed differently somewhere in the query. -/
inductive Refiled : Algebra → Algebra → Prop
  /-- Conditions that are all to hold are written as one conjunction. -/
  | conjoined (e e' : Expr) (others : List Expr) (sub : Algebra) :
    Refiled (.filter (e :: e' :: others) sub) (.filter [others.foldl .and (.and e e')] sub)
  /-- Conditions that are all to hold become filters around each other, in any order. -/
  | nested {exprs order : List Expr} (perm : order.Perm exprs) (sub : Algebra) :
    Refiled (.filter exprs sub) (order.foldr (fun e inner => .filter [e] inner) sub)
  /-- The conditions of a left join become a filter of its right operand. -/
  | moved (left right : Algebra) (exprs : List Expr) :
    Refiled (.leftJoin left right exprs) (.leftJoin left (.filter exprs right) [])
  | unconditional (left right : Algebra) :
    Refiled (.conditional left right) (.leftJoin left right [])
  | leftJoinLeft {left left' : Algebra} (inner : Refiled left left') (right : Algebra)
      (exprs : List Expr) : Refiled (.leftJoin left right exprs) (.leftJoin left' right exprs)
  | leftJoinRight (left : Algebra) {right right' : Algebra} (inner : Refiled right right')
      (exprs : List Expr) : Refiled (.leftJoin left right exprs) (.leftJoin left right' exprs)
  | conditionalLeft {left left' : Algebra} (inner : Refiled left left') (right : Algebra) :
    Refiled (.conditional left right) (.conditional left' right)
  | conditionalRight (left : Algebra) {right right' : Algebra} (inner : Refiled right right') :
    Refiled (.conditional left right) (.conditional left right')
  | filter (exprs : List Expr) {sub sub' : Algebra} (inner : Refiled sub sub') :
    Refiled (.filter exprs sub) (.filter exprs sub')

theorem plans_nested {sub : Algebra} (plans : Plans settings sub n) (order : List Expr) :
    Plans settings (order.foldr (fun e inner => .filter [e] inner) sub)
      (n.addFilters order.reverse) := by
  induction order with
  | nil => exact plans
  | cons e rest ih =>
    rw [List.reverse_cons, Node.addFilters_append]
    exact .filter [e] ih

/-- Placing a filter differently files the filters of the plan differently. -/
theorem Refiled.exists_plans (refiled : op.Refiled op') (plans : Plans settings op n) :
    ∃ n', Plans settings op' n' ∧ n.Refiled n' := by
  induction refiled generalizing n with
  | conjoined e e' others sub =>
    cases plans with
    | filter _ inner =>
      refine ⟨_, .filter _ inner, inner.built.2.refiled_refl.addFilters fun d context row => ?_⟩
      simp only [Node.passes, List.all_cons, List.all_nil, Bool.and_true,
        Expr.isSatisfied_foldl_and, Expr.isSatisfied_and, Bool.and_assoc]
  | @nested exprs order perm sub =>
    cases plans with
    | filter _ inner =>
      refine ⟨_, plans_nested inner order,
        inner.built.2.refiled_refl.addFilters fun d context row => ?_⟩
      exact (order.reverse_perm.trans perm).symm.all_eq
  | moved left right exprs =>
    cases plans with
    | leftJoin first second =>
      exact ⟨_, .leftJoin first (.filter exprs second) [],
        (Plans.leftJoin first second exprs).built.2.refiled_refl⟩
  | unconditional left right =>
    cases plans with
    | conditional first second =>
      exact ⟨_, .leftJoin first second [], (Plans.conditional first second).built.2.refiled_refl⟩
  | leftJoinLeft _ right exprs ih =>
    cases plans with
    | leftJoin first second =>
      obtain ⟨root, plansRoot, same⟩ := ih first
      exact ⟨_, .leftJoin plansRoot second exprs,
        same.addChild (second.built.2.refiled_refl.addFilters fun _ _ _ => rfl)⟩
  | leftJoinRight left _ exprs ih =>
    cases plans with
    | leftJoin first second =>
      obtain ⟨child, plansChild, same⟩ := ih second
      exact ⟨_, .leftJoin first plansChild exprs,
        first.built.2.refiled_refl.addChild (same.addFilters fun _ _ _ => rfl)⟩
  | conditionalLeft _ right ih =>
    cases plans with
    | conditional first second =>
      obtain ⟨root, plansRoot, same⟩ := ih first
      exact ⟨_, .conditional plansRoot second, same.addChild second.built.2.refiled_refl⟩
  | conditionalRight left _ ih =>
    cases plans with
    | conditional first second =>
      obtain ⟨child, plansChild, same⟩ := ih second
      exact ⟨_, .conditional first plansChild, first.built.2.refiled_refl.addChild same⟩
  | filter exprs _ ih =>
    cases plans with
    | filter _ inner =>
      obtain ⟨node, plansNode, same⟩ := ih inner
      exact ⟨_, .filter exprs plansNode, same.addFilters fun _ _ _ => rfl⟩

end Algebra

namespace Session

variable {s : Session} {op op' : Algebra}

/-- The trees that two ways of placing a filter lead to return the same rows. -/
theorem runNow_eq_of_refiled (reachable : s.dataset.Reachable) {n n' : Node}
    (plans : Algebra.Plans s.settings op n) (plans' : Algebra.Plans s.settings op' n')
    (same : n.Refiled n') : s.runNow op' = s.runNow op := by
  obtain ⟨rows, returned, all⟩ := s.runNow_rows reachable plans
  obtain ⟨rows', returned', all'⟩ := s.runNow_rows reachable plans'
  rw [(same.rows_init ∅).2, ← all'] at all
  rw [returned, returned', List.map_injective_iff.2 (fun _ _ => Except.ok.inj) all]

/-- A query returns the same rows in the same order, wherever its filters are placed. -/
theorem runNow_refiled (reachable : s.dataset.Reachable) (supported : op.Supported)
    (refiled : Relation.ReflTransGen Algebra.Refiled op op') :
    ∃ rows, s.runNow op = .ok rows ∧ s.runNow op' = .ok rows := by
  have same : s.runNow op' = s.runNow op ∧ ∃ n', Algebra.Plans s.settings op' n' := by
    induction refiled with
    | refl => exact ⟨rfl, Algebra.exists_plans s.settings op supported⟩
    | tail _ step ih =>
      obtain ⟨before, m, plans⟩ := ih
      obtain ⟨m', plans', placed⟩ := step.exists_plans plans
      exact ⟨(runNow_eq_of_refiled reachable plans plans' placed).trans before, m', plans'⟩
  obtain ⟨n, plans⟩ := Algebra.exists_plans s.settings op supported
  obtain ⟨rows, returned, _⟩ := s.runNow_spec reachable plans
  exact ⟨rows, returned, same.1.trans returned⟩

/-- The conditions of an optional branch are moved into it, and of two conditions that stand around
the whole, one is decided by the required pattern and one is not. -/
theorem runNow_refiled_conjunction :
    let triple (subject predicate object : String) : Algebra :=
      .bgp ⟨[.triple (.var ⟨subject⟩) (.term (.iri predicate)) (.var ⟨object⟩)]⟩
    let own : Expr := .compare .gt (.var ⟨"n"⟩) (.const (.integer 1))
    let other : Expr := .not (.bound ⟨"m"⟩)
    let inner : Expr := .compare .lt (.var ⟨"n"⟩) (.var ⟨"m"⟩)
    let left := triple "x" "p" "n"
    let right := triple "x" "q" "m"
    let op : Algebra := .filter [own, other] (.leftJoin left right [inner])
    let op' : Algebra :=
      .filter [.and own other] (.leftJoin left (.filter [inner] right) [])
    let s : Session := {
      dataset := (Dataset.empty.addAll [⟨.iri "a", .iri "p", .integer 1, none⟩,
        ⟨.iri "b", .iri "p", .integer 2, none⟩, ⟨.iri "b", .iri "q", .integer 3, none⟩]).2
      settings := {} }
    ∃ rows, s.runNow op = .ok rows ∧ s.runNow op' = .ok rows :=
  runNow_refiled (.addAll .empty _) ⟨trivial, trivial⟩
    (.tail (.single (.filter _ (.moved _ _ _))) (.conjoined _ _ [] _))

end Session

end QuadQuery
