import QuadQuery.Plan
import QuadQuery.Proofs.JoinTree.Answers

/-!
# Adding to a join tree

What another filter or another child makes of the answers of a node. A new filter keeps some of
them. A new child extends each answer by the child's rows, or leaves it alone if there are none,
provided that the filters already there do not see the difference (`Node.perm_answers_addChild`).
-/

namespace QuadQuery

namespace Node

variable {d : Dataset} {n child : Node} {context own row : Binding}

/-- An answer with each of some rows, or alone if there are none. -/
def optional (m : Binding) (rows : List Binding) : List Binding :=
  if rows.isEmpty then [m] else rows.map m.extendAbsent

/-- A row with another one, if there is one. -/
def attach (m : Binding) (pick : Option Binding) : Binding :=
  (pick.map m.extendAbsent).getD m

theorem map_attach_column (m : Binding) (rows : List Binding) :
    (column rows).map (attach m) = optional m rows := by
  cases rows with
  | nil => rfl
  | cons row rest => simp [column, optional, attach]

theorem merge_append (own : Binding) (picks : List (Option Binding)) (pick : Option Binding) :
    merge own (picks ++ [pick]) = attach (merge own picks) pick := by
  simp [merge, attach, List.foldl_append]

theorem perm_optional {rows rows' : List Binding} (h : rows.Perm rows') (m : Binding) :
    (optional m rows).Perm (optional m rows') := by
  rw [← map_attach_column, ← map_attach_column]
  exact (perm_column h).map _

/-- Whatever varies faster, the same pairs come about. -/
theorem perm_flatMap_map {α β γ : Type} (f : α → β → γ) (xs : List α) (ys : List β) :
    (xs.flatMap fun x => ys.map (f x)).Perm (ys.flatMap fun y => xs.map (f · y)) := by
  induction xs with
  | nil => simp
  | cons x rest ih =>
    simp only [List.flatMap_cons, List.map_cons]
    exact (ih.append_left _).trans (List.map_append_flatMap_perm ys (f x) fun y => rest.map (f · y))

/-! ## Filters -/

theorem addFilter_fields (n : Node) (e : Expr) :
    (n.addFilter e).scan = n.scan ∧ (n.addFilter e).children = n.children := by
  unfold addFilter
  split <;> exact ⟨rfl, rfl⟩

/-- Attaching filters leaves the scan and the children alone. -/
theorem addFilters_fields (n : Node) (exprs : List Expr) :
    (n.addFilters exprs).scan = n.scan ∧ (n.addFilters exprs).children = n.children := by
  unfold addFilters
  induction exprs generalizing n with
  | nil => exact ⟨rfl, rfl⟩
  | cons e rest ih =>
    obtain ⟨scan, children⟩ := addFilter_fields n e
    obtain ⟨scan', children'⟩ := ih (n.addFilter e)
    exact ⟨scan'.trans scan, children'.trans children⟩

theorem vars_addFilters (n : Node) (exprs : List Expr) : (n.addFilters exprs).vars = n.vars := by
  obtain ⟨scan, children⟩ := n.addFilters_fields exprs
  rw [vars_eq, vars_eq, scan, children]

theorem mem_filters_addFilters {exprs : List Expr} {e : Expr} :
    e ∈ (n.addFilters exprs).preFilters ++ (n.addFilters exprs).postFilters ↔
      e ∈ n.preFilters ++ n.postFilters ∨ e ∈ exprs := by
  unfold addFilters
  induction exprs generalizing n with
  | nil => simp
  | cons first rest ih =>
    have one : e ∈ (n.addFilter first).preFilters ++ (n.addFilter first).postFilters ↔
        e ∈ n.preFilters ++ n.postFilters ∨ e = first := by
      unfold addFilter
      split <;> simp only [List.mem_append, List.mem_singleton, or_assoc, or_comm, or_left_comm]
    rw [List.foldl_cons, ih, one, List.mem_cons, or_assoc]

/-- Whether filters hold depends on what they see of their variables alone. -/
theorem passes_congr {context' row' : Binding} {filters : List Expr}
    (same : ∀ e ∈ filters, ∀ v ∈ e.vars, view d row context v = view d row' context' v) :
    passes d context filters row = passes d context' filters row' := by
  rw [passes, passes, Bool.eq_iff_iff, List.all_eq_true, List.all_eq_true]
  exact forall₂_congr fun e member => by rw [Expr.isSatisfied_congr (same e member)]

theorem filter_passes_nil (rows : List Binding) : rows.filter (passes d context []) = rows :=
  List.filter_eq_self.2 fun _ _ => rfl

theorem passes_addFilter (e : Expr) :
    passes d context ((n.addFilter e).preFilters ++ (n.addFilter e).postFilters) row
      = (passes d context [e] row && passes d context (n.preFilters ++ n.postFilters) row) := by
  unfold addFilter
  split <;> simp only [passes, List.all_append, List.all_cons, List.all_nil, Bool.and_true] <;>
    ac_rfl

theorem answers_addFilter (e : Expr) :
    (n.addFilter e).answers d context = (n.answers d context).filter (passes d context [e]) := by
  obtain ⟨scan, children⟩ := n.addFilter_fields e
  rw [answers_eq, answers_eq, scan, children, List.filter_flatMap]
  refine List.flatMap_congr fun own _ => ?_
  simp only [merged, List.filter_filter]
  exact List.filter_congr fun row _ => passes_addFilter e

/-- Attached filters keep the answers on which all of them hold. -/
theorem answers_addFilters (exprs : List Expr) :
    (n.addFilters exprs).answers d context
      = (n.answers d context).filter (passes d context exprs) := by
  unfold addFilters
  induction exprs generalizing n with
  | nil => exact (filter_passes_nil _).symm
  | cons e rest ih =>
    rw [List.foldl_cons, ih, answers_addFilter, List.filter_filter]
    exact List.filter_congr fun row _ => by simp [passes, Bool.and_comm]

/-! ## Children -/

theorem childVars_addChild (n child : Node) :
    childVars (n.addChild child).children = childVars n.children ++ child.vars := by
  rw [childVars_eq, childVars_eq, addChild, List.flatMap_append, List.flatMap_singleton]

theorem mem_vars_addChild {v : Variable} :
    v ∈ (n.addChild child).vars ↔ v ∈ n.vars ∨ v ∈ child.vars := by
  rw [vars_eq (n.addChild child), vars_eq n, childVars_addChild, addChild]
  simp only [List.mem_append, or_assoc]

/-- The children of two nodes side by side, when each is given another. -/
theorem zip_children_addChild {n' child' : Node} (count : n.children.length = n'.children.length) :
    (n.addChild child).children.zip (n'.addChild child').children
      = n.children.zip n'.children ++ [({ node := child }, { node := child' })] :=
  List.zip_append count

/-- The filters of the node judge a combination without the child's row and with it alike. -/
def Unseen (d : Dataset) (context : Binding) (n child : Node) : Prop :=
  ∀ own ∈ n.scan.assignments d context,
    ∀ picks ∈ Wheel.picks (answerColumns d (own.extendAbsent context) n.children),
      ∀ row ∈ child.answers d (own.extendAbsent context),
        passes d context (n.preFilters ++ n.postFilters) ((merge own picks).extendAbsent row)
          = passes d context (n.preFilters ++ n.postFilters) (merge own picks)

/-- Every answer is extended by the rows of a new child for its own row. -/
theorem perm_answers_addChild (unseen : Unseen d context n child) :
    ((n.addChild child).answers d context).Perm
      ((n.scan.assignments d context).flatMap fun own => (n.answersOf d context own).flatMap fun m =>
        optional m (child.answers d (own.extendAbsent context))) := by
  have columns : ∀ c, answerColumns d c (n.addChild child).children
      = answerColumns d c n.children ++ [column (child.answers d c)] := fun c => by
    rw [answerColumns_eq, answerColumns_eq, addChild, List.map_append]
    rfl
  rw [answers_eq]
  refine List.Perm.flatMap_left _ fun own member => ?_
  have rows : merged d context (n.preFilters ++ n.postFilters) own (Wheel.picks
      (answerColumns d (own.extendAbsent context) (n.addChild child).children))
      = (column (child.answers d (own.extendAbsent context))).flatMap fun pick =>
        (n.answersOf d context own).map fun m => attach m pick := by
    rw [columns, Wheel.picks_append_singleton, merged, List.map_flatMap, List.filter_flatMap]
    refine List.flatMap_congr fun pick there => ?_
    rw [List.map_map, answersOf, merged, List.filter_map, List.filter_map, List.map_map]
    have judged : ∀ picks ∈ Wheel.picks (answerColumns d (own.extendAbsent context) n.children),
        passes d context (n.preFilters ++ n.postFilters) (merge own (picks ++ [pick]))
          = passes d context (n.preFilters ++ n.postFilters) (merge own picks) := by
      intro picks combination
      rw [merge_append]
      cases pick with
      | none => rfl
      | some row => exact unseen own member picks combination row (some_mem_column.1 there)
    simp only [Function.comp_def, ← merge_append]
    rw [List.filter_congr judged]
  have scan : (n.addChild child).preFilters = n.preFilters ∧
      (n.addChild child).postFilters = n.postFilters := ⟨rfl, rfl⟩
  rw [scan.1, scan.2, rows]
  refine (perm_flatMap_map (fun pick m => attach m pick) _ _).trans (List.Perm.of_eq ?_)
  exact List.flatMap_congr fun m _ => map_attach_column m _

end Node

end QuadQuery
