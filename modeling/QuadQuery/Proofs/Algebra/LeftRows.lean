import QuadQuery.Proofs.Algebra.Refinement

/-!
# The left rows of a left join

A left join extends the rows of its left operand and keeps all of them, unless a filter that stands
at the required pattern of the left operand looks at a variable that the right operand binds. Such
a filter waits for the rows of the right operand and judges these with them
(`Session.runNow_keeps_left`).
-/

namespace QuadQuery

namespace Node

variable {d : Dataset} {n child : Node} {context m row : Binding} {rows : List Binding}

theorem extends_of_mem_optional (h : row ∈ optional m rows) : row.Extends m := by
  unfold optional at h
  split at h
  · exact List.mem_singleton.1 h ▸ .refl m
  · obtain ⟨other, _, rfl⟩ := List.mem_map.1 h
    exact Binding.extends_extendAbsent m other

theorem optional_ne_nil (m : Binding) (rows : List Binding) : optional m rows ≠ [] := by
  unfold optional
  split
  · exact List.cons_ne_nil m []
  · next some => simpa using some

/-- Each answer of a node with a new child extends one that was there before. -/
theorem extends_of_mem_addChild (unseen : Unseen d context n child)
    (member : row ∈ (n.addChild child).answers d context) :
    ∃ m ∈ n.answers d context, row.Extends m := by
  obtain ⟨own, first, m, found, extended⟩ : ∃ own ∈ n.scan.assignments d context,
      ∃ m ∈ n.answersOf d context own, row ∈ optional m _ := by
    simpa only [List.mem_flatMap] using (perm_answers_addChild unseen).mem_iff.1 member
  refine ⟨m, ?_, extends_of_mem_optional extended⟩
  rw [answers_eq_answersOf]
  exact List.mem_flatMap.2 ⟨own, first, found⟩

/-- Each answer that was there before is extended by one of the node with a new child. -/
theorem exists_extends_addChild (unseen : Unseen d context n child)
    (member : m ∈ n.answers d context) :
    ∃ row ∈ (n.addChild child).answers d context, row.Extends m := by
  rw [answers_eq_answersOf] at member
  obtain ⟨own, first, found⟩ := List.mem_flatMap.1 member
  obtain ⟨row, there⟩ := List.exists_mem_of_ne_nil _
    (optional_ne_nil m (child.answers d (own.extendAbsent context)))
  refine ⟨row, (perm_answers_addChild unseen).mem_iff.2 ?_, extends_of_mem_optional there⟩
  exact List.mem_flatMap.2 ⟨own, first, List.mem_flatMap.2 ⟨m, found, there⟩⟩

end Node

namespace Algebra

variable {settings : Settings} {op left right : Algebra} {root : Node}

/-- The query is a left join of the two operands, whatever else it asks of the right one. -/
inductive LeftJoins (left right : Algebra) : Algebra → Prop
  | leftJoin (exprs : List Expr) : LeftJoins left right (.leftJoin left right exprs)
  | conditional : LeftJoins left right (.conditional left right)

/-- A left join hangs another tree under the root of the left operand. -/
theorem LeftJoins.exists_plans (joins : LeftJoins left right op) (supported : right.Supported)
    (first : Plans settings left root) : ∃ child, Plans settings op (root.addChild child) ∧
      child.Indexed ∧ ∀ v, v ∈ child.vars ↔ v ∈ right.patternVars := by
  obtain ⟨child, second⟩ := Algebra.exists_plans settings right supported
  cases joins with
  | leftJoin exprs =>
    refine ⟨_, .leftJoin first second exprs, (Node.addFilters_planned second.built exprs).2,
      fun v => ?_⟩
    rw [Node.vars_addFilters]
    exact second.mem_vars
  | conditional => exact ⟨child, .conditional first second, second.built.2, fun v => second.mem_vars⟩

end Algebra

namespace Session

/-- What is returned for a binding of an answer. -/
theorem exists_of_mem_answers {solutions : List Solution} {answers : List Binding}
    {f : Binding → Except TermId Solution} (all : (solutions.map .ok).Perm (answers.map f))
    {b : Binding} (member : b ∈ answers) : ∃ row ∈ solutions, f b = .ok row := by
  obtain ⟨row, there, same⟩ := List.mem_map.1 (all.mem_iff.2 (List.mem_map_of_mem member))
  exact ⟨row, there, same.symm⟩

theorem exists_of_mem_solutions {solutions : List Solution} {answers : List Binding}
    {f : Binding → Except TermId Solution} (all : (solutions.map .ok).Perm (answers.map f))
    {row : Solution} (member : row ∈ solutions) : ∃ b ∈ answers, f b = .ok row :=
  List.mem_map.1 (all.mem_iff.1 (List.mem_map_of_mem member))

/-- A left join neither invents left rows nor loses any, provided that the filters at the required
pattern of the left operand look at no variable of the right operand but those of that pattern. -/
theorem runNow_keeps_left {s : Session} (reachable : s.dataset.Reachable)
    {left right op : Algebra} (joins : Algebra.LeftJoins left right op) (first : left.Supported)
    (second : right.Supported)
    (unseen : ∀ v ∈ left.spine.flatMap Expr.vars, v ∈ right.patternVars → v ∈ left.required.vars) :
    ∃ lefts rows, s.runNow left = .ok lefts ∧ s.runNow op = .ok rows ∧
      (∀ row ∈ rows, ∃ m ∈ lefts, row.Extends m) ∧ ∀ m ∈ lefts, ∃ row ∈ rows, row.Extends m := by
  obtain ⟨root, plan⟩ := Algebra.exists_plans s.settings left first
  obtain ⟨child, plan', indexed, vars⟩ := joins.exists_plans second plan
  obtain ⟨lefts, returned, all⟩ := s.runNow_spec reachable plan
  obtain ⟨rows, returned', all'⟩ := s.runNow_spec reachable plan'
  have unseen : Node.Unseen s.dataset ∅ root child :=
    plan.unseen reachable.valid indexed (List.forall_mem_nil _) fun v looked there =>
      List.mem_append_left [] (unseen v looked ((vars v).1 there))
  refine ⟨lefts, rows, returned, returned', fun row member => ?_, fun m member => ?_⟩
  · obtain ⟨b, found, same⟩ := exists_of_mem_solutions all' member
    obtain ⟨a, there, larger⟩ := Node.extends_of_mem_addChild unseen found
    obtain ⟨m, inLefts, same'⟩ := exists_of_mem_answers all there
    exact ⟨m, inLefts, .of_binding same' same larger⟩
  · obtain ⟨a, found, same⟩ := exists_of_mem_solutions all member
    obtain ⟨b, there, larger⟩ := Node.exists_extends_addChild unseen found
    obtain ⟨row, inRows, same'⟩ := exists_of_mem_answers all' there
    exact ⟨row, inRows, .of_binding same same' larger⟩

/-- A filter on the left that looks at what both operands bind. -/
theorem runNow_keeps_left_number :
    let left : Algebra := .filter [.compare .lt (.const (.integer 1)) (.var ⟨"o"⟩)]
      (.bgp ⟨[.triple (.var ⟨"s"⟩) (.term (.iri "p")) (.var ⟨"o"⟩)]⟩)
    let right : Algebra := .bgp ⟨[.triple (.var ⟨"o"⟩) (.term (.iri "q")) (.var ⟨"y"⟩)]⟩
    let s : Session := {
      dataset := (Dataset.empty.addAll [⟨.iri "a", .iri "p", .integer 2, none⟩,
        ⟨.integer 2, .iri "q", .iri "b", none⟩]).2
      settings := {} }
    ∃ lefts rows, s.runNow left = .ok lefts ∧ s.runNow (.conditional left right) = .ok rows ∧
      (∀ row ∈ rows, ∃ m ∈ lefts, row.Extends m) ∧ ∀ m ∈ lefts, ∃ row ∈ rows, row.Extends m :=
  runNow_keeps_left (.addAll .empty _) .conditional trivial trivial (by decide +kernel)

/-- A filter that nothing on the left decides lets a row pass once the right operand has a value. -/
theorem runNow_bound_on_the_right :
    let left : Algebra := .filter [.bound ⟨"y"⟩]
      (.bgp ⟨[.triple (.var ⟨"s"⟩) (.term (.iri "p")) (.var ⟨"o"⟩)]⟩)
    let right : Algebra := .bgp ⟨[.triple (.var ⟨"o"⟩) (.term (.iri "q")) (.var ⟨"y"⟩)]⟩
    let s : Session := {
      dataset := (Dataset.empty.addAll [⟨.iri "a", .iri "p", .iri "b", none⟩,
        ⟨.iri "b", .iri "q", .iri "c", none⟩]).2
      settings := {} }
    s.runNow left = .ok [] ∧ s.runNow (.leftJoin left right []) =
      .ok [⟨[(⟨"o"⟩, .iri "b"), (⟨"s"⟩, .iri "a"), (⟨"y"⟩, .iri "c")]⟩] := by
  decide +kernel

end Session

end QuadQuery
