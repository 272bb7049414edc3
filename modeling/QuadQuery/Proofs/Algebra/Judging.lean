import QuadQuery.Proofs.Algebra.Refinement

/-!
# What the expressions of a left join see

The expressions of a left join hang at the root of the right operand. They judge a right row
together with the own row of the left root, and what other optional parts of the left operand have
bound is not there yet: where the operands have no filters of their own and share only what the
required pattern of the left one binds, a left row is extended by the right rows on which the
expressions hold with the values of the required pattern alone
(`Session.runNow_judges_required`).
-/

namespace QuadQuery

namespace Node

variable {d : Dataset} {n child : Node} {context context' : Binding} {vars : List Variable}

/-! ## What a tree looks at -/

/-- The patterns and the filters of the tree mention these variables alone. -/
inductive Regards (vars : List Variable) : Node → Prop
  | intro {n : Node} {s : IndexScan} (scan : n.scan = .index s) (own : s.pattern.vars ⊆ vars)
      (filters : ∀ e ∈ n.preFilters ++ n.postFilters, e.vars ⊆ vars)
      (others : ∀ w ∈ n.children, Regards vars w.node) : Regards vars n

theorem Regards.mono {vars' : List Variable} (h : n.Regards vars) (more : vars ⊆ vars') :
    n.Regards vars' := by
  induction h with
  | intro scan own filters _ ih =>
    exact .intro scan (List.Subset.trans own more)
      (fun e filed => List.Subset.trans (filters e filed) more) ih

theorem Regards.addChild (h : n.Regards vars) (h' : child.Regards vars) :
    (n.addChild child).Regards vars := by
  obtain ⟨scan, own, filters, others⟩ := h
  exact .intro scan own filters
    (List.forall_mem_append.2 ⟨others, List.forall_mem_singleton.2 h'⟩)

theorem Regards.addFilters (h : n.Regards vars) {exprs : List Expr}
    (mentioned : exprs.flatMap Expr.vars ⊆ vars) : (n.addFilters exprs).Regards vars := by
  obtain ⟨scan, own, filters, others⟩ := h
  obtain ⟨same, children⟩ := n.addFilters_fields exprs
  refine .intro (same.trans scan) own (fun e filed => ?_) (children ▸ others)
  rcases mem_filters_addFilters.1 filed with before | added
  · exact filters e before
  · exact fun v known => mentioned (List.mem_flatMap.2 ⟨e, added, known⟩)

/-- The context matters for what the tree looks at alone. -/
theorem Regards.answers_congr (h : n.Regards vars)
    (same : ∀ v ∈ vars, context.get? v = context'.get? v) :
    n.answers d context = n.answers d context' := by
  induction h generalizing context context' with
  | @intro n s scan own filters _ ih =>
    have start : n.scan.assignments d context = n.scan.assignments d context' := by
      rw [scan]
      exact BasicPattern.assignments_congr fun v member => same v (own member)
    rw [answers_eq, answers_eq, start]
    refine List.flatMap_congr fun row _ => ?_
    have columns : answerColumns d (row.extendAbsent context) n.children
        = answerColumns d (row.extendAbsent context') n.children := by
      rw [answerColumns_eq, answerColumns_eq]
      exact List.map_congr_left fun w there => congrArg column
        (ih w there (Algebra.get?_extend_congr row same))
    have judged : passes d context (n.preFilters ++ n.postFilters)
        = passes d context' (n.preFilters ++ n.postFilters) :=
      Algebra.passes_env_congr fun v mentioned => by
        obtain ⟨e, filed, known⟩ := List.mem_flatMap.1 mentioned
        exact same v (filters e filed known)
    rw [merged, merged, columns, judged]

/-! ## Left joins of trees -/

/-- The rows of a tree that is settled below the variables of a context and moved to it. -/
def rowsIn (d : Dataset) (context : Binding) (n : Node) : List Binding :=
  (n.init d ⟨context.vars⟩).2.rows d context

theorem perm_rowsIn (valid : d.Valid) (built : n.Built) (context : Binding) :
    (n.rowsIn d context).Perm (n.answers d context) :=
  built.unused.perm_rows_init valid fun _ known => Binding.mem_vars.2 known

/-- Every row of the one tree with the rows of the other one for it that are kept, or alone if there
are none. -/
def leftJoined (d : Dataset) (root child : Node) (keep : Binding → Binding → Bool) : List Binding :=
  (root.rowsIn d ∅).flatMap fun m => optional m ((child.rowsIn d m).filter (keep m))

end Node

namespace Algebra

variable {settings : Settings} {d : Dataset} {op left right : Algebra} {n root child : Node}
  {own : Binding} {picks : List (Option Binding)}

/-- A planned tree looks at what the query mentions. -/
theorem Plans.regards (plans : Plans settings op n) : n.Regards op.mentions := by
  have leaf (pattern : BasicPattern) : (leaf settings pattern).Regards pattern.vars :=
    .intro rfl (fun _ => (settings.reorder.mem_vars_apply pattern).1) nofun nofun
  induction plans with
  | bgp pattern => exact leaf pattern
  | quadPattern graph pattern => exact leaf (pattern.inGraph graph)
  | leftJoin _ _ exprs first second =>
    refine .addChild (first.mono ?_) (.addFilters (second.mono ?_) ?_)
    · exact List.subset_append_of_subset_left _ (List.subset_append_left ..)
    · exact List.subset_append_of_subset_left _ (List.subset_append_right ..)
    · exact List.subset_append_right ..
  | conditional _ _ first second =>
    exact .addChild (first.mono (List.subset_append_left ..))
      (second.mono (List.subset_append_right ..))
  | filter exprs _ first =>
    exact .addFilters (first.mono (List.subset_append_left ..)) (List.subset_append_right ..)

/-! ## Queries without filters -/

/-- The query is made of patterns and left joins, without filters and expressions. -/
def Plain : Algebra → Prop
  | .bgp _ | .quadPattern .. => True
  | .leftJoin left right exprs => exprs = [] ∧ left.Plain ∧ right.Plain
  | .conditional left right => left.Plain ∧ right.Plain
  | .filter .. | .join .. | .union .. | .sequence _ | .project .. | .distinct _ => False

theorem Plain.supported : {op : Algebra} → op.Plain → op.Supported
  | .bgp _, _ | .quadPattern .., _ => trivial
  | .leftJoin .., ⟨_, first, second⟩ => ⟨first.supported, second.supported⟩
  | .conditional .., ⟨first, second⟩ => ⟨first.supported, second.supported⟩

theorem Plain.spine_eq_nil : {op : Algebra} → op.Plain → op.spine = []
  | .bgp _, _ | .quadPattern .., _ => rfl
  | .leftJoin .., ⟨_, first, _⟩ => first.spine_eq_nil
  | .conditional .., ⟨first, _⟩ => first.spine_eq_nil

theorem Plain.mentions_eq : {op : Algebra} → op.Plain → op.mentions = op.patternVars
  | .bgp _, _ | .quadPattern .., _ => rfl
  | .leftJoin left right _, ⟨bare, first, second⟩ => by
    rw [mentions, patternVars, first.mentions_eq, second.mentions_eq, bare, List.flatMap_nil,
      List.append_nil]
  | .conditional left right, ⟨first, second⟩ => by
    rw [mentions, patternVars, first.mentions_eq, second.mentions_eq]

/-- No filter stands at the root of the plan of a plain query. -/
theorem Plans.filters_eq_nil (plans : Plans settings op n) (plain : op.Plain) :
    n.preFilters ++ n.postFilters = [] :=
  List.eq_nil_iff_forall_not_mem.2 fun _ filed => by
    have there := plans.mem_filters.1 filed
    rw [plain.spine_eq_nil] at there
    cases there

/-! ## Left joins of queries -/

/-- What a combination gives to the variables of the required pattern is the own row. -/
theorem Plans.restrict_merge (valid : d.Valid) (plans : Plans settings op n)
    (first : own ∈ n.scan.assignments d ∅) (picks : List (Option Binding)) :
    (Node.merge own picks).restrict op.required.vars = own := by
  rw [plans.scan] at first
  refine BasicPattern.restrict_eq valid first (fun v id => Node.get?_merge own picks) fun v => ?_
  exact (settings.reorder.mem_vars_apply op.required).symm

/-- A row is judged in a context as it is judged with the values of the context. -/
theorem passes_extendAbsent (exprs : List Expr) (context row : Binding) :
    Node.passes d context exprs row = Node.passes d ∅ exprs (row.extendAbsent context) :=
  Node.passes_congr fun _ _ v _ => by simp [Node.view]

/-- The tree of a left join extends the rows of the left tree by the rows of the right one that the
expressions let pass with the values of the required pattern. -/
theorem Plans.perm_leftJoined (valid : d.Valid) (first : Plans settings left root)
    (second : Plans settings right child) (plain : left.Plain) (plain' : right.Plain)
    (shared : ∀ v ∈ left.patternVars, v ∈ right.patternVars → v ∈ left.required.vars)
    (exprs : List Expr) :
    ((root.addChild (child.addFilters exprs)).answers d ∅).Perm
      (Node.leftJoined d root child fun m row =>
        Node.passes d ∅ exprs (row.extendAbsent (m.restrict left.required.vars))) := by
  have unseen : Node.Unseen d ∅ root (child.addFilters exprs) := by
    intro own _ picks _ row _
    rw [first.filters_eq_nil plain]
    rfl
  refine (Node.perm_answers_addChild unseen).trans ?_
  refine .trans ?_ ((Node.perm_rowsIn valid first.built.1 ∅).symm.flatMap_right _)
  rw [Node.answers_eq_answersOf, List.flatMap_assoc]
  refine List.Perm.flatMap_left _ fun own member => List.Perm.flatMap_left _ fun m found => ?_
  obtain ⟨picks, combination, rfl, _⟩ := Node.mem_answersOf.1 found
  -- The right tree shares nothing with the left one but what the own row binds.
  have same : ∀ v ∈ right.mentions,
      (own.extendAbsent ∅).get? v = (Node.merge own picks).get? v := fun v mentioned => by
    have bound : v ∈ left.patternVars → v ∈ left.required.vars ++ [] := fun known =>
      List.mem_append_left _ (shared v known (plain'.mentions_eq ▸ mentioned))
    rw [first.get?_extend_own valid (List.forall_mem_nil _) member combination bound]
    simp
  rw [Node.answers_addFilters, second.regards.answers_congr same]
  refine Node.perm_optional ?_ _
  have judged : Node.passes d (own.extendAbsent ∅) exprs = fun row => Node.passes d ∅ exprs
      (row.extendAbsent ((Node.merge own picks).restrict left.required.vars)) := by
    have alone : own.extendAbsent ∅ = own := Binding.ext_get? fun v => by simp
    rw [first.restrict_merge valid member, alone]
    exact funext fun row => passes_extendAbsent exprs own row
  rw [judged]
  exact (Node.perm_rowsIn valid second.built.1 _).symm.filter _

end Algebra

namespace Session

/-- A left join of operands without filters, which share only what the required pattern of the left
one binds, extends every left row by the right rows for it on which the expressions hold with the
values of the required pattern, and keeps the left row alone if there are none. -/
theorem runNow_judges_required {s : Session} (reachable : s.dataset.Reachable)
    {left right : Algebra} (first : left.Plain) (second : right.Plain)
    (shared : ∀ v ∈ left.patternVars, v ∈ right.patternVars → v ∈ left.required.vars)
    (exprs : List Expr) :
    ∃ root child lefts rows, left.plan s.settings = .ok root ∧ right.plan s.settings = .ok child ∧
      s.runNow left = .ok lefts ∧ s.runNow (.leftJoin left right exprs) = .ok rows ∧
      (lefts.map .ok).Perm ((root.rowsIn s.dataset ∅).map (Solution.ofBinding s.dataset.terms)) ∧
      (rows.map .ok).Perm ((Node.leftJoined s.dataset root child fun m row =>
        Node.passes s.dataset ∅ exprs (row.extendAbsent (m.restrict left.required.vars))).map
          (Solution.ofBinding s.dataset.terms)) := by
  have valid := reachable.valid
  obtain ⟨root, plan⟩ := Algebra.exists_plans s.settings left first.supported
  obtain ⟨child, plan'⟩ := Algebra.exists_plans s.settings right second.supported
  obtain ⟨lefts, returned, all⟩ := s.runNow_spec reachable plan
  obtain ⟨rows, returned', all'⟩ := s.runNow_spec reachable (.leftJoin plan plan' exprs)
  refine ⟨root, child, lefts, rows, Algebra.plan_eq_ok plan, Algebra.plan_eq_ok plan', returned,
    returned', all.trans ?_, all'.trans ?_⟩
  · exact (Node.perm_rowsIn valid plan.built.1 ∅).symm.map _
  · exact (plan.perm_leftJoined valid plan' first second shared exprs).map _

/-- The required pattern decides which of two right rows is kept. -/
theorem runNow_judges_required_number :
    let left : Algebra := .leftJoin
      (.bgp ⟨[.triple (.var ⟨"s"⟩) (.term (.iri "p")) (.var ⟨"o"⟩),
        .triple (.var ⟨"s"⟩) (.term (.iri "q")) (.var ⟨"n"⟩)]⟩)
      (.bgp ⟨[.triple (.var ⟨"o"⟩) (.term (.iri "p")) (.var ⟨"x"⟩)]⟩) []
    let right : Algebra := .bgp ⟨[.triple (.var ⟨"o"⟩) (.term (.iri "q")) (.var ⟨"m"⟩)]⟩
    let exprs : List Expr := [.compare .lt (.var ⟨"n"⟩) (.var ⟨"m"⟩)]
    let s : Session := {
      dataset := (Dataset.empty.addAll [⟨.iri "a", .iri "p", .iri "b", none⟩,
        ⟨.iri "a", .iri "q", .integer 2, none⟩, ⟨.iri "b", .iri "q", .integer 1, none⟩,
        ⟨.iri "b", .iri "q", .integer 3, none⟩]).2
      settings := {} }
    ∃ root child lefts rows, left.plan s.settings = .ok root ∧ right.plan s.settings = .ok child ∧
      s.runNow left = .ok lefts ∧ s.runNow (.leftJoin left right exprs) = .ok rows ∧
      (lefts.map .ok).Perm ((root.rowsIn s.dataset ∅).map (Solution.ofBinding s.dataset.terms)) ∧
      (rows.map .ok).Perm ((Node.leftJoined s.dataset root child fun m row =>
        Node.passes s.dataset ∅ exprs (row.extendAbsent (m.restrict left.required.vars))).map
          (Solution.ofBinding s.dataset.terms)) := by
  intro left right exprs s
  have first : left.Plain := ⟨rfl, trivial, trivial⟩
  have second : right.Plain := trivial
  exact runNow_judges_required (.addAll .empty _) first second (by decide +kernel) exprs

/-- An expression does not see what an optional part beside it binds. -/
theorem runNow_blind_to_siblings :
    let left : Algebra := .leftJoin
      (.bgp ⟨[.triple (.var ⟨"s"⟩) (.term (.iri "p")) (.var ⟨"o"⟩)]⟩)
      (.bgp ⟨[.triple (.var ⟨"o"⟩) (.term (.iri "q")) (.var ⟨"x"⟩)]⟩) []
    let right : Algebra := .bgp ⟨[.triple (.var ⟨"o"⟩) (.term (.iri "r")) (.var ⟨"y"⟩)]⟩
    let exprs : List Expr := [.bound ⟨"x"⟩]
    let s : Session := {
      dataset := (Dataset.empty.addAll [⟨.iri "a", .iri "p", .iri "b", none⟩,
        ⟨.iri "b", .iri "q", .iri "c", none⟩, ⟨.iri "b", .iri "r", .iri "e", none⟩]).2
      settings := {} }
    ∃ root child rows, left.plan s.settings = .ok root ∧ right.plan s.settings = .ok child ∧
      s.runNow (.leftJoin left right exprs) = .ok rows ∧
      ¬ (rows.map .ok).Perm ((Node.leftJoined s.dataset root child fun m row =>
        Node.passes s.dataset ∅ exprs (m.extendAbsent row)).map
          (Solution.ofBinding s.dataset.terms)) := by
  intro left right exprs s
  exact ⟨_, _, [⟨[(⟨"o"⟩, .iri "b"), (⟨"s"⟩, .iri "a"), (⟨"x"⟩, .iri "c")]⟩], rfl, rfl,
    by decide +kernel, by decide +kernel⟩

end Session

end QuadQuery
