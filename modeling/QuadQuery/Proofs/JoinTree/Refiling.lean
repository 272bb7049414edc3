import QuadQuery.Proofs.JoinTree.Growing

/-!
# Join trees whose filters are filed differently

Whether a filter is judged on the own row or on every combination, alone or as part of a
conjunction, shows in the work that is done and not in the rows: trees whose filters together let
the same rows pass have the same rows in the same order (`Node.Refiled.rows_init`).
-/

namespace QuadQuery

namespace Expr

/-- A conjunction that is undecided lets nothing pass, as does one of its sides. -/
theorem isSatisfied_and (row : Variable → Option Term) (l r : Expr) :
    (and l r).isSatisfied row = (l.isSatisfied row && r.isSatisfied row) := by
  have outcome : (and l r).truth row = bothHold (l.truth row) (r.truth row) := by
    change ((bothHold (l.truth row) (r.truth row)).map Value.bool).bind Value.truth? = _
    cases bothHold (l.truth row) (r.truth row) <;> rfl
  rw [isSatisfied, isSatisfied, isSatisfied, outcome]
  rcases l.truth row with _ | _ | _ <;> rcases r.truth row with _ | _ | _ <;> rfl

theorem isSatisfied_foldl_and (row : Variable → Option Term) (first : Expr) (others : List Expr) :
    (others.foldl and first).isSatisfied row
      = (first :: others).all fun e => e.isSatisfied row := by
  induction others generalizing first with
  | nil => simp
  | cons e rest ih =>
    rw [List.foldl_cons, ih, List.all_cons, List.all_cons, List.all_cons, isSatisfied_and,
      Bool.and_assoc]

end Expr

namespace Node

variable {d : Dataset} {n n' child child' : Node} {context row : Binding} {exprs exprs' : List Expr}

theorem passes_addFilters :
    passes d context ((n.addFilters exprs).preFilters ++ (n.addFilters exprs).postFilters) row
      = (passes d context exprs row && passes d context (n.preFilters ++ n.postFilters) row) := by
  unfold addFilters
  induction exprs generalizing n with
  | nil => rfl
  | cons e rest ih =>
    rw [List.foldl_cons, ih, passes_addFilter, ← Bool.and_assoc, Bool.and_comm (passes ..)]
    congr 1
    simp [passes]

theorem addFilters_append (n : Node) (exprs exprs' : List Expr) :
    n.addFilters (exprs ++ exprs') = (n.addFilters exprs).addFilters exprs' :=
  List.foldl_append

/-- The trees have the same scans, and the filters of each node let the same rows pass. -/
inductive Refiled : Node → Node → Prop
  | intro {n n' : Node} (scan : n.scan = n'.scan)
      (judged : ∀ d context row, passes d context (n.preFilters ++ n.postFilters) row
        = passes d context (n'.preFilters ++ n'.postFilters) row)
      (count : n.children.length = n'.children.length)
      (others : ∀ e ∈ n.children.zip n'.children, Refiled e.1.node e.2.node) : Refiled n n'

theorem Indexed.refiled_refl (indexed : n.Indexed) : n.Refiled n := by
  induction indexed with
  | @intro n _ _ _ ih =>
    have pairs : n.children.Forall₂ (fun w w' => w.node.Refiled w'.node) n.children :=
      List.forall₂_same.2 ih
    obtain ⟨count, others⟩ := List.forall₂_iff_zip.1 pairs
    exact .intro rfl (fun _ _ _ => rfl) count fun e member => others member

theorem Refiled.addFilters (h : n.Refiled n')
    (judged : ∀ d context row, passes d context exprs row = passes d context exprs' row) :
    (n.addFilters exprs).Refiled (n'.addFilters exprs') := by
  obtain ⟨scan, children⟩ := n.addFilters_fields exprs
  obtain ⟨scan', children'⟩ := n'.addFilters_fields exprs'
  obtain ⟨same, passed, count, others⟩ := h
  refine .intro (by rw [scan, scan', same]) (fun d context row => ?_)
    (by rw [children, children', count]) (by rwa [children, children'])
  rw [passes_addFilters, passes_addFilters, passed, judged]

theorem Refiled.addChild (h : n.Refiled n') (h' : child.Refiled child') :
    (n.addChild child).Refiled (n'.addChild child') := by
  obtain ⟨same, passed, count, others⟩ := h
  refine .intro same passed (by simp [Node.addChild, count]) ?_
  rw [zip_children_addChild count]
  exact List.forall_mem_append.2 ⟨others, List.forall_mem_singleton.2 h'⟩

/-- Children that are settled alike and have the same rows each make the same columns. -/
theorem columns_initAll_congr {ws ws' : List (Window Node)}
    (h : ws.Forall₂ (fun w w' => ∀ order, (w.node.init d order).1 = (w'.node.init d order).1 ∧
      ∀ c, (w.node.init d order).2.rows d c = (w'.node.init d order).2.rows d c) ws')
    (incoming : AttributeOrder) :
    (initAll d incoming ws).1 = (initAll d incoming ws').1 ∧
      ∀ c, columns d c (initAll d incoming ws).2 = columns d c (initAll d incoming ws').2 := by
  induction h generalizing incoming with
  | nil => exact ⟨rfl, fun _ => rfl⟩
  | @cons w w' rest rest' first _ ih =>
    obtain ⟨order, rows⟩ := first incoming
    obtain ⟨orders, others⟩ := ih (w'.node.init d incoming).1
    simp only [initAll_cons, columns_eq, List.map_cons] at others ⊢
    rw [order]
    exact ⟨orders, fun c => by rw [rows, others]⟩

/-- Settled trees whose filters are filed differently have the same rows in the same order. -/
theorem Refiled.rows_init (h : n.Refiled n') (incoming : AttributeOrder) :
    (n.init d incoming).1 = (n'.init d incoming).1 ∧
      ∀ c, (n.init d incoming).2.rows d c = (n'.init d incoming).2.rows d c := by
  induction h generalizing incoming with
  | @intro n n' scan judged count _ ih =>
    obtain ⟨orders, columns⟩ := columns_initAll_congr
      (List.forall₂_iff_zip.2 ⟨count, fun pair => ih _ pair⟩) (n'.scan.init d incoming).1
    rw [init_eq, init_eq, scan]
    refine ⟨orders, fun c => ?_⟩
    have passed := funext (judged d c)
    simp only [rows_eq_ownRows, merged, columns, passed]

end Node

end QuadQuery
