import QuadQuery.Proofs.JoinTree.Growing

/-!
# Planned join trees

A query made of the five operators that can be planned has a plan, which is put together from
unused scans of the dataset. What the root of the plan scans for, which variables are bound in it
and which filters stand at its root can be read off the query.
-/

namespace QuadQuery

namespace Node

theorem addChild_planned {n child : Node} (h : n.Built ∧ n.Indexed)
    (h' : child.Built ∧ child.Indexed) :
    (n.addChild child).Built ∧ (n.addChild child).Indexed := by
  obtain ⟨built, scan, others⟩ := h
  exact ⟨.addChild built h'.1, .intro scan
    (List.forall_mem_append.2 ⟨others, List.forall_mem_singleton.2 h'.2⟩)⟩

theorem addFilters_planned {n : Node} (h : n.Built ∧ n.Indexed) (exprs : List Expr) :
    (n.addFilters exprs).Built ∧ (n.addFilters exprs).Indexed := by
  obtain ⟨scan, children⟩ := n.addFilters_fields exprs
  obtain ⟨built, own, others⟩ := h
  refine ⟨?_, .intro (scan.trans own) (children ▸ others)⟩
  clear scan children own others
  unfold Node.addFilters
  induction exprs generalizing n with
  | nil => exact built
  | cons e rest ih => exact ih (built.addFilter e)

end Node

namespace Algebra

variable {settings : Settings} {op : Algebra} {n : Node} {d : Dataset}

/-- The query is built from the operators that can be planned. -/
def Supported : Algebra → Prop
  | .bgp _ | .quadPattern .. => True
  | .leftJoin left right _ | .conditional left right => left.Supported ∧ right.Supported
  | .filter _ sub => sub.Supported
  | .join .. | .union .. | .sequence _ | .project .. | .distinct _ => False

/-- The query has the join tree as its plan. -/
inductive Plans (settings : Settings) : Algebra → Node → Prop
  | bgp (pattern : BasicPattern) : Plans settings (.bgp pattern) (leaf settings pattern)
  | quadPattern (graph : Slot) (pattern : BasicPattern) :
    Plans settings (.quadPattern graph pattern) (leaf settings (pattern.inGraph graph))
  | leftJoin {left right : Algebra} {root child : Node} (first : Plans settings left root)
      (second : Plans settings right child) (exprs : List Expr) :
    Plans settings (.leftJoin left right exprs) (root.addChild (child.addFilters exprs))
  | conditional {left right : Algebra} {root child : Node} (first : Plans settings left root)
      (second : Plans settings right child) :
    Plans settings (.conditional left right) (root.addChild child)
  | filter {sub : Algebra} {n : Node} (exprs : List Expr) (first : Plans settings sub n) :
    Plans settings (.filter exprs sub) (n.addFilters exprs)

theorem plan_eq_ok (plans : Plans settings op n) : op.plan settings = .ok n := by
  induction plans with
  | bgp pattern => rfl
  | quadPattern graph pattern => rfl
  | leftJoin _ _ exprs first second => rw [plan, first, second]; rfl
  | conditional _ _ first second => rw [plan, first, second]; rfl
  | filter exprs _ first => rw [plan, first]; rfl

/-- Every supported query has a plan. -/
theorem exists_plans (settings : Settings) : (op : Algebra) → op.Supported →
    ∃ n, Plans settings op n
  | .bgp pattern, _ => ⟨_, .bgp pattern⟩
  | .quadPattern graph pattern, _ => ⟨_, .quadPattern graph pattern⟩
  | .leftJoin left right exprs, ⟨first, second⟩ =>
    let ⟨_, root⟩ := exists_plans settings left first
    let ⟨_, child⟩ := exists_plans settings right second
    ⟨_, .leftJoin root child exprs⟩
  | .conditional left right, ⟨first, second⟩ =>
    let ⟨_, root⟩ := exists_plans settings left first
    let ⟨_, child⟩ := exists_plans settings right second
    ⟨_, .conditional root child⟩
  | .filter exprs sub, supported =>
    let ⟨_, node⟩ := exists_plans settings sub supported
    ⟨_, .filter exprs node⟩

theorem built_leaf (settings : Settings) (pattern : BasicPattern) :
    (leaf settings pattern).Built ∧ (leaf settings pattern).Indexed :=
  ⟨.ofScan (Scan.unused_index _) _, .intro rfl nofun⟩

/-- A planned tree was put together from unused scans of the dataset. -/
theorem Plans.built (plans : Plans settings op n) : n.Built ∧ n.Indexed := by
  induction plans with
  | bgp pattern => exact built_leaf settings pattern
  | quadPattern graph pattern => exact built_leaf settings (pattern.inGraph graph)
  | leftJoin _ _ exprs first second =>
    exact Node.addChild_planned first (Node.addFilters_planned second exprs)
  | conditional _ _ first second => exact Node.addChild_planned first second
  | filter exprs _ first => exact Node.addFilters_planned first exprs

/-! ## Reading a plan off the query -/

/-- The pattern that is reached by going down left operands and filtered operands. -/
def required : Algebra → BasicPattern
  | .bgp pattern => pattern
  | .quadPattern graph pattern => pattern.inGraph graph
  | .leftJoin left _ _ | .conditional left _ => left.required
  | .filter _ sub => sub.required
  | .join .. | .union .. | .sequence _ | .project .. | .distinct _ => ⟨[]⟩

/-- The filters met on the way to the required pattern. -/
def spine : Algebra → List Expr
  | .filter exprs sub => sub.spine ++ exprs
  | .leftJoin left _ _ | .conditional left _ => left.spine
  | .bgp _ | .quadPattern .. | .join .. | .union .. | .sequence _ | .project .. | .distinct _ => []

/-- The variables of the patterns. -/
def patternVars : Algebra → List Variable
  | .bgp pattern => pattern.vars
  | .quadPattern graph pattern => (pattern.inGraph graph).vars
  | .leftJoin left right _ | .conditional left right => left.patternVars ++ right.patternVars
  | .filter _ sub => sub.patternVars
  | .join .. | .union .. | .sequence _ | .project .. | .distinct _ => []

/-- The root of a plan scans for the required pattern. -/
theorem Plans.scan (plans : Plans settings op n) :
    n.scan = .index { pattern := settings.reorder.apply op.required } := by
  induction plans with
  | bgp pattern => rfl
  | quadPattern graph pattern => rfl
  | leftJoin _ _ _ first _ => exact first
  | conditional _ _ first _ => exact first
  | filter exprs _ first => exact (Node.addFilters_fields _ exprs).1.trans first

/-- The root of a plan has the variables of the required pattern. -/
theorem Plans.mem_scan_vars (plans : Plans settings op n) {v : Variable} :
    v ∈ n.scan.vars ↔ v ∈ op.required.vars := by
  rw [plans.scan]
  exact settings.reorder.mem_vars_apply op.required

theorem mem_vars_leaf (settings : Settings) (pattern : BasicPattern) {v : Variable} :
    v ∈ (leaf settings pattern).vars ↔ v ∈ pattern.vars := by
  rw [← settings.reorder.mem_vars_apply pattern, Node.vars_eq, List.mem_append]
  exact or_iff_left List.not_mem_nil

/-- The answers of a node without children are the assignments of its pattern. -/
theorem perm_answers_leaf {env : Binding} (valid : d.Valid) (settings : Settings)
    (pattern : BasicPattern) :
    ((leaf settings pattern).answers d env).Perm (pattern.assignments d env) := by
  have alone : (leaf settings pattern).answers d env
      = (settings.reorder.apply pattern).assignments d env := by
    rw [Node.answers_eq]
    exact List.flatMap_singleton' _
  exact alone ▸ settings.reorder.perm_assignments valid env pattern

/-- The patterns of a plan are those of the query. -/
theorem Plans.mem_vars (plans : Plans settings op n) {v : Variable} :
    v ∈ n.vars ↔ v ∈ op.patternVars := by
  induction plans with
  | bgp pattern => exact mem_vars_leaf settings pattern
  | quadPattern graph pattern => exact mem_vars_leaf settings (pattern.inGraph graph)
  | leftJoin _ _ exprs first second =>
    rw [Node.mem_vars_addChild, Node.vars_addFilters, first, second, patternVars, List.mem_append]
  | conditional _ _ first second =>
    rw [Node.mem_vars_addChild, first, second, patternVars, List.mem_append]
  | filter exprs _ first => rw [Node.vars_addFilters, first, patternVars]

/-- The filters at the root of a plan are those on the way to the required pattern. -/
theorem Plans.mem_filters (plans : Plans settings op n) {e : Expr} :
    e ∈ n.preFilters ++ n.postFilters ↔ e ∈ op.spine := by
  induction plans with
  | bgp pattern => exact .rfl
  | quadPattern graph pattern => exact .rfl
  | leftJoin _ _ _ first _ => exact first
  | conditional _ _ first _ => exact first
  | filter exprs _ first => rw [Node.mem_filters_addFilters, first, spine, List.mem_append]

end Algebra

end QuadQuery
