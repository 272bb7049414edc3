import QuadQuery.Proofs.Algebra.Planning

/-!
# Evaluation of the algebra

What a query means is said operator by operator, in an environment that gives values to variables
from further out. A pattern takes its assignments that agree with the environment, and the right
operand of a left join is evaluated in the environment extended by a row of the left one.

Join trees are not mentioned in it. Nothing is seen of the environment but the variables that the
query mentions (`Algebra.eval_congr`).
-/

namespace QuadQuery

namespace Algebra

/-- The rows of a query in an environment. Operators without a plan have none. -/
def eval (d : Dataset) (env : Binding) : Algebra → List Binding
  | .bgp pattern => pattern.assignments d env
  | .quadPattern graph pattern => (pattern.inGraph graph).assignments d env
  | .leftJoin left right exprs => (left.eval d env).flatMap fun m => Node.optional m
      ((right.eval d (m.extendAbsent env)).filter (Node.passes d (m.extendAbsent env) exprs))
  | .conditional left right => (left.eval d env).flatMap fun m =>
      Node.optional m (right.eval d (m.extendAbsent env))
  | .filter exprs sub => (sub.eval d env).filter (Node.passes d env exprs)
  | .join .. | .union .. | .sequence _ | .project .. | .distinct _ => []

/-- The variables in patterns, graph slots and expressions. -/
def mentions : Algebra → List Variable
  | .bgp pattern => pattern.vars
  | .quadPattern graph pattern => (pattern.inGraph graph).vars
  | .leftJoin left right exprs => left.mentions ++ right.mentions ++ exprs.flatMap Expr.vars
  | .conditional left right => left.mentions ++ right.mentions
  | .filter exprs sub => sub.mentions ++ exprs.flatMap Expr.vars
  | .join .. | .union .. | .sequence _ | .project .. | .distinct _ => []

theorem patternVars_subset : (op : Algebra) → op.patternVars ⊆ op.mentions
  | .bgp _ | .quadPattern .. => List.Subset.refl _
  | .leftJoin left right _ | .conditional left right => by
    have inLeft := left.patternVars_subset
    have inRight := right.patternVars_subset
    simp only [patternVars, mentions, List.append_subset]
    grind
  | .filter _ sub => List.subset_append_of_subset_left _ sub.patternVars_subset
  | .join .. | .union .. | .sequence _ | .project .. | .distinct _ => List.nil_subset _

theorem spineVars_subset : (op : Algebra) → op.spine.flatMap Expr.vars ⊆ op.mentions
  | .leftJoin left _ _ => List.subset_append_of_subset_left _
      (List.subset_append_of_subset_left _ left.spineVars_subset)
  | .conditional left _ => List.subset_append_of_subset_left _ left.spineVars_subset
  | .filter exprs sub => by
    rw [spine, List.flatMap_append]
    exact List.append_subset.2 ⟨List.subset_append_of_subset_left _ sub.spineVars_subset,
      List.subset_append_right ..⟩
  | .bgp _ | .quadPattern .. | .join .. | .union .. | .sequence _ | .project .. | .distinct _ =>
    List.nil_subset _

/-- What both operands of a left join mention is bound by the required pattern of the left operand
or of one further out, given the variables that are bound further out. -/
def Scoped (outer : List Variable) : Algebra → Prop
  | .leftJoin left right exprs =>
    (∀ v ∈ left.mentions, v ∈ right.mentions ++ exprs.flatMap Expr.vars →
      v ∈ left.required.vars ++ outer) ∧
    left.Scoped outer ∧ right.Scoped (left.required.vars ++ outer)
  | .conditional left right =>
    (∀ v ∈ left.mentions, v ∈ right.mentions → v ∈ left.required.vars ++ outer) ∧
    left.Scoped outer ∧ right.Scoped (left.required.vars ++ outer)
  | .filter _ sub => sub.Scoped outer
  | .bgp _ | .quadPattern .. | .join .. | .union .. | .sequence _ | .project .. | .distinct _ => True

instance decidableScoped : (op : Algebra) → (outer : List Variable) → Decidable (op.Scoped outer)
  | .leftJoin left right _, outer =>
    have := decidableScoped left outer
    have := decidableScoped right (left.required.vars ++ outer)
    inferInstanceAs (Decidable (_ ∧ _ ∧ _))
  | .conditional left right, outer =>
    have := decidableScoped left outer
    have := decidableScoped right (left.required.vars ++ outer)
    inferInstanceAs (Decidable (_ ∧ _ ∧ _))
  | .filter _ sub, outer => decidableScoped sub outer
  | .bgp _, _ | .quadPattern .., _ | .join .., _ | .union .., _ | .sequence _, _ | .project .., _
  | .distinct _, _ => .isTrue trivial
variable {d : Dataset} {env : Binding} {left right : Algebra} {outer : List Variable}

/-! ## Conditional operators -/

theorem eval_conditional :
    (conditional left right).eval d env = (leftJoin left right []).eval d env := by
  simp only [eval, Node.filter_passes_nil]

theorem scoped_conditional :
    (conditional left right).Scoped outer ↔ (leftJoin left right []).Scoped outer := by
  simp [Scoped]

/-! ## What is seen of the environment -/

theorem view_congr {env env' row : Binding} {v : Variable} (same : env.get? v = env'.get? v) :
    Node.view d row env v = Node.view d row env' v := by
  rw [Node.view, Node.view, same]

/-- Extending environments that agree on some variables keeps them so. -/
theorem get?_extend_congr {env env' : Binding} (m : Binding) {vars : List Variable}
    (same : ∀ v ∈ vars, env.get? v = env'.get? v) :
    ∀ v ∈ vars, (m.extendAbsent env).get? v = (m.extendAbsent env').get? v := fun v member => by
  rw [Binding.get?_extendAbsent, Binding.get?_extendAbsent, same v member]

theorem passes_env_congr {env env' : Binding} {exprs : List Expr}
    (same : ∀ v ∈ exprs.flatMap Expr.vars, env.get? v = env'.get? v) :
    Node.passes d env exprs = Node.passes d env' exprs :=
  funext fun _ => Node.passes_congr fun e member v mentioned =>
    view_congr (same v (List.mem_flatMap.2 ⟨e, member, mentioned⟩))

/-- The environment matters for the variables that the query mentions alone. -/
theorem eval_congr {env env' : Binding} : (op : Algebra) →
    (∀ v ∈ op.mentions, env.get? v = env'.get? v) → op.eval d env = op.eval d env'
  | .bgp _, same => BasicPattern.assignments_congr same
  | .quadPattern _ _, same => BasicPattern.assignments_congr same
  | .leftJoin left right exprs, same => by
    simp only [mentions, List.forall_mem_append] at same
    obtain ⟨⟨inLeft, inRight⟩, inExprs⟩ := same
    rw [eval, eval, eval_congr left inLeft]
    refine List.flatMap_congr fun m _ => ?_
    rw [eval_congr right (get?_extend_congr m inRight),
      passes_env_congr (get?_extend_congr m inExprs)]
  | .conditional left right, same => by
    simp only [mentions, List.forall_mem_append] at same
    rw [eval, eval, eval_congr left same.1]
    refine List.flatMap_congr fun m _ => ?_
    rw [eval_congr right (get?_extend_congr m same.2)]
  | .filter exprs sub, same => by
    simp only [mentions, List.forall_mem_append] at same
    rw [eval, eval, eval_congr sub same.1, passes_env_congr same.2]
  | .join .., _ | .union .., _ | .sequence _, _ | .project .., _ | .distinct _, _ => rfl

end Algebra

end QuadQuery
