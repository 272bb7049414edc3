import QuadQuery.Proofs.Algebra.Assignments
import QuadQuery.Proofs.JoinTree.Building

/-!
# The rows of a join tree regardless of their order

A join tree that was put together has, before its order of variables is settled, answers that are
made of the assignments of its patterns. Settling the order rearranges them and changes nothing
else (`Node.perm_rows_init`).
-/

namespace QuadQuery

namespace Scan

/-- The rows of a scan for a context as bindings, in no particular order. -/
def assignments (d : Dataset) (context : Binding) : Scan → List Binding
  | .index s => s.pattern.assignments d context
  | .fixed s => if s.openTerms then s.rows.map (Binding.ofRow s.vars) else []

variable {d : Dataset} {s : Scan} {context : Binding} {incoming : AttributeOrder}

/-- The variables that the rows of a scan bind. -/
def vars : Scan → List Variable
  | .index s => s.pattern.vars
  | .fixed s => s.vars

/-- The rows of a settled scan, as bindings. -/
def ownRows (d : Dataset) (context : Binding) (s : Scan) : List Binding :=
  if s.openTerms then (s.rowsAt d context).map (Binding.ofRow s.attributes) else []

theorem perm_ownRows_init (valid : d.Valid) (s : Scan) (within : context.Within incoming.vars) :
    ((s.init d incoming).2.ownRows d context).Perm (s.assignments d context) := by
  cases s with
  | index s =>
    have same := IndexScan.perm_assignments valid s within
    unfold ownRows
    split
    · exact same
    · next closed =>
      have none : (s.init d incoming).2.rowsFor d ((s.init d incoming).2.keyFor context) = [] :=
        IndexScan.rowsFor_eq_nil (eq_false_of_ne_true closed) _
      rw [none] at same
      exact same
  | fixed s => exact .refl _

/-- What the own rows and the context bind is in the order that a scan returns. -/
theorem within_order_init (valid : d.Valid) (unused : s.Unused)
    (within : context.Within incoming.vars) {own : Binding}
    (member : own ∈ s.assignments d context) :
    (own.extendAbsent context).Within (s.init d incoming).1.vars := by
  refine Binding.Within.extendAbsent (fun v known => ?_)
    (within.mono (isPrefix_order_init s d incoming).subset)
  cases s with
  | index s =>
    exact (@IndexScan.mem_order_init s d incoming v).2
      (.inr (((BasicPattern.mem_assignments valid).1 member).1 v known))
  | fixed s =>
    change own ∈ if s.openTerms then s.rows.map (Binding.ofRow s.vars) else [] at member
    split at member
    · obtain ⟨ids, there, rfl⟩ := List.mem_map.1 member
      exact AttributeOrder.mem_extend.2
        (.inr ((Binding.isSome_get?_ofRow (unused.2.2.2 ids there)).1 known))
    · cases member

end Scan

namespace Node

variable {d : Dataset} {n : Node} {context : Binding} {incoming : AttributeOrder}

mutual

/-- The rows of a node in a context, in no particular order. -/
def answers (d : Dataset) (context : Binding) : Node → List Binding
  | ⟨scan, _, _, children, preFilters, postFilters, _, _, _, _, _, _, _⟩ =>
    (scan.assignments d context).flatMap fun own =>
      merged d context (preFilters ++ postFilters) own
        (Wheel.picks (answerColumns d (own.extendAbsent context) children))

/-- What each of the children contributes in a context. -/
def answerColumns (d : Dataset) (context : Binding) :
    List (Window Node) → List (List (Option Binding))
  | [] => []
  | ⟨node, _, _, _, _⟩ :: rest => column (node.answers d context) :: answerColumns d context rest

end

theorem answers_eq (d : Dataset) (context : Binding) (n : Node) :
    n.answers d context = (n.scan.assignments d context).flatMap fun own =>
      merged d context (n.preFilters ++ n.postFilters) own
        (Wheel.picks (answerColumns d (own.extendAbsent context) n.children)) := by
  cases n; rfl

/-- The answers with one own row. -/
def answersOf (d : Dataset) (context : Binding) (n : Node) (own : Binding) : List Binding :=
  merged d context (n.preFilters ++ n.postFilters) own
    (Wheel.picks (answerColumns d (own.extendAbsent context) n.children))

theorem answers_eq_answersOf (d : Dataset) (context : Binding) (n : Node) :
    n.answers d context = (n.scan.assignments d context).flatMap (n.answersOf d context) :=
  answers_eq d context n

theorem answerColumns_eq (d : Dataset) (context : Binding) (ws : List (Window Node)) :
    answerColumns d context ws = ws.map fun w => column (w.node.answers d context) := by
  induction ws with
  | nil => rfl
  | cons w rest ih => cases w; simp only [answerColumns, ih, List.map_cons]

theorem rows_eq_ownRows (d : Dataset) (context : Binding) (n : Node) :
    n.rows d context = (n.scan.ownRows d context).flatMap fun own =>
      merged d context (n.preFilters ++ n.postFilters) own
        (Wheel.picks (columns d (own.extendAbsent context) n.children)) := by
  rw [rows_eq, Scan.ownRows]
  split
  · rw [List.flatMap_map]
    rfl
  · rfl

/-! ## What a row is made of -/

theorem some_mem_column {α : Type} {rows : List α} {row : α} :
    some row ∈ column rows ↔ row ∈ rows := by
  cases rows <;> simp [column]

theorem exists_column_of_mem_picks {α : Type} {rows : Window Node → List α} {ws : List (Window Node)}
    {picks : List (Option α)} (member : picks ∈ Wheel.picks (ws.map fun w => column (rows w)))
    {row : α} (picked : some row ∈ picks) : ∃ w ∈ ws, row ∈ rows w := by
  rw [Wheel.mem_picks, List.forall₂_map_right_iff] at member
  induction member with
  | nil => cases picked
  | @cons pick w _ rest first _ ih =>
    rcases List.mem_cons.1 picked with rfl | later
    · exact ⟨w, List.mem_cons_self, some_mem_column.1 first⟩
    · obtain ⟨v, there, found⟩ := ih later
      exact ⟨v, List.mem_cons_of_mem _ there, found⟩

/-- A combination has a row of every child that it has something of. -/
theorem exists_child_of_mem_picks {ws : List (Window Node)} {picks : List (Option Binding)}
    (member : picks ∈ Wheel.picks (answerColumns d context ws)) {row : Binding}
    (picked : some row ∈ picks) : ∃ w ∈ ws, row ∈ w.node.answers d context := by
  rw [answerColumns_eq] at member
  exact exists_column_of_mem_picks member picked

theorem mem_answersOf {row own : Binding} : row ∈ n.answersOf d context own ↔
    ∃ picks ∈ Wheel.picks (answerColumns d (own.extendAbsent context) n.children),
      row = merge own picks ∧
        passes d context (n.preFilters ++ n.postFilters) (merge own picks) = true := by
  simp only [answersOf, merged, List.mem_filter, List.mem_map]
  constructor
  · rintro ⟨⟨picks, member, rfl⟩, holds⟩
    exact ⟨picks, member, rfl, holds⟩
  · rintro ⟨picks, member, rfl, holds⟩
    exact ⟨⟨picks, member, rfl⟩, holds⟩

theorem mem_answers {row : Binding} : row ∈ n.answers d context ↔
    ∃ own ∈ n.scan.assignments d context,
      ∃ picks ∈ Wheel.picks (answerColumns d (own.extendAbsent context) n.children),
        row = merge own picks ∧
          passes d context (n.preFilters ++ n.postFilters) (merge own picks) = true := by
  simp only [answers_eq_answersOf, List.mem_flatMap, mem_answersOf]

/-- What holds of the own row and of all picked rows, and is kept by merging, holds of the merged
row. -/
theorem merge_induction {P : Binding → Prop} {own : Binding} {picks : List (Option Binding)}
    (first : P own) (others : ∀ row, some row ∈ picks → P row)
    (merges : ∀ a b, P a → P b → P (a.extendAbsent b)) : P (merge own picks) := by
  unfold merge
  induction picks generalizing own with
  | nil => exact first
  | cons pick rest ih =>
    refine ih ?_ fun row member => others row (List.mem_cons_of_mem _ member)
    cases pick with
    | none => exact first
    | some row => exact merges own row first (others row List.mem_cons_self)

/-! ## Trees over the dataset -/

/-- All scans of the tree are scans of the dataset. -/
inductive Indexed : Node → Prop
  | intro {n : Node} {s : IndexScan} (scan : n.scan = .index s)
      (others : ∀ w ∈ n.children, Indexed w.node) : Indexed n

theorem Indexed.children (indexed : n.Indexed) : ∀ w ∈ n.children, w.node.Indexed := by
  cases indexed; assumption

mutual

/-- The variables of all patterns in a tree. -/
def vars : Node → List Variable
  | ⟨scan, _, _, children, _, _, _, _, _, _, _, _, _⟩ => scan.vars ++ childVars children

/-- The variables of all patterns in the trees of some children. -/
def childVars : List (Window Node) → List Variable
  | [] => []
  | ⟨node, _, _, _, _⟩ :: rest => node.vars ++ childVars rest

end

theorem vars_eq (n : Node) : n.vars = n.scan.vars ++ childVars n.children := by
  cases n; rfl

theorem childVars_eq (ws : List (Window Node)) :
    childVars ws = ws.flatMap fun w => w.node.vars := by
  induction ws with
  | nil => rfl
  | cons w rest ih => cases w; simp only [childVars, ih, List.flatMap_cons]

/-- A combination binds variables of the tree alone and agrees with the context. -/
theorem combination_spec (valid : d.Valid) (indexed : n.Indexed) {own : Binding}
    (first : own ∈ n.scan.assignments d context)
    (others : ∀ w ∈ n.children, ∀ row ∈ w.node.answers d (own.extendAbsent context),
      row.Within w.node.vars ∧ row.Agrees (own.extendAbsent context))
    {picks : List (Option Binding)}
    (combination : picks ∈ Wheel.picks (answerColumns d (own.extendAbsent context) n.children)) :
    (merge own picks).Within n.vars ∧ (merge own picks).Agrees context := by
  obtain ⟨scan, _⟩ := indexed
  have made := first
  rw [scan] at made
  obtain ⟨within, _, agrees⟩ := (BasicPattern.mem_assignments valid).1 made
  rw [vars_eq, scan, childVars_eq]
  constructor
  · refine merge_induction (P := fun b => b.Within _) (within.mono (List.subset_append_left ..))
      (fun row picked => ?_) fun a b => .extendAbsent
    obtain ⟨w, there, found⟩ := exists_child_of_mem_picks combination picked
    exact (others w there row found).1.mono fun v known =>
      List.mem_append_right _ (List.mem_flatMap.2 ⟨w, there, known⟩)
  · have whole : (merge own picks).Agrees (own.extendAbsent context) := by
      refine merge_induction (P := fun b => b.Agrees _) (Binding.agrees_extendAbsent own context)
        (fun row picked => ?_) fun a b => .extendAbsent
      obtain ⟨w, there, found⟩ := exists_child_of_mem_picks combination picked
      exact (others w there row found).2
    intro v i j hi hj
    cases known : own.get? v with
    | some k =>
      obtain rfl : k = i := Option.some.inj ((get?_merge own picks known).symm.trans hi)
      exact agrees v k j known hj
    | none => exact whole v i j hi (by simp [known, hj])

/-- So does every answer. -/
theorem Indexed.answers_spec (valid : d.Valid) (indexed : n.Indexed) {row : Binding}
    (member : row ∈ n.answers d context) : row.Within n.vars ∧ row.Agrees context := by
  induction indexed generalizing context row with
  | @intro n s scan others ih =>
    obtain ⟨own, first, picks, combination, rfl, _⟩ := mem_answers.1 member
    exact combination_spec valid (.intro scan others) first
      (fun w there row found => ih w there found) combination

/-- Every combination is like the answers. -/
theorem Indexed.merge_spec (valid : d.Valid) (indexed : n.Indexed) {own : Binding}
    (first : own ∈ n.scan.assignments d context) {picks : List (Option Binding)}
    (combination : picks ∈ Wheel.picks (answerColumns d (own.extendAbsent context) n.children)) :
    (merge own picks).Within n.vars ∧ (merge own picks).Agrees context :=
  combination_spec valid indexed first
    (fun w there _ found => (indexed.children w there).answers_spec valid found) combination

/-! ## Rearranging -/

theorem perm_column {rows rows' : List Binding} (h : rows.Perm rows') :
    (column rows).Perm (column rows') := by
  unfold column
  cases rows with
  | nil => rw [h.nil_eq]
  | cons row rest =>
    cases rows' with
    | nil => exact absurd h.eq_nil (List.cons_ne_nil _ _)
    | cons row' rest' => exact h.map _

theorem perm_merged {picks picks' : List (List (Option Binding))} (h : picks.Perm picks')
    (filters : List Expr) (own : Binding) :
    (merged d context filters own picks).Perm (merged d context filters own picks') :=
  (h.map _).filter _

/-- Every child is settled with the order that the child before it has left. -/
theorem perm_columns_initAll {ws : List (Window Node)} (within : context.Within incoming.vars)
    (each : ∀ w ∈ ws, ∀ order : AttributeOrder, context.Within order.vars →
      ((w.node.init d order).2.rows d context).Perm (w.node.answers d context)) :
    (columns d context (initAll d incoming ws).2).Forall₂ List.Perm
      (answerColumns d context ws) := by
  induction ws generalizing incoming with
  | nil => exact .nil
  | cons w rest ih =>
    obtain ⟨first, others⟩ := List.forall_mem_cons.1 each
    rw [initAll_cons]
    exact .cons (perm_column (first incoming within))
      (ih (within.mono (isPrefix_init d incoming w.node).subset) others)

/-- Settling the order of variables rearranges the rows of a tree. -/
theorem Unused.perm_rows_init (valid : d.Valid) (unused : n.Unused)
    (within : context.Within incoming.vars) :
    ((n.init d incoming).2.rows d context).Perm (n.answers d context) := by
  induction unused generalizing incoming context with
  | @intro n scan _ _ _ _ _ _ ih =>
    rw [rows_eq_ownRows, answers_eq, init_eq]
    refine (Scan.perm_ownRows_init valid n.scan within).flatMap fun own member => ?_
    refine perm_merged (Wheel.perm_picks (perm_columns_initAll ?_ fun w there order => ?_)) _ own
    · exact Scan.within_order_init valid scan within
        ((Scan.perm_ownRows_init valid n.scan within).mem_iff.1 member)
    · exact ih w there

theorem perm_rows_init (valid : d.Valid) (built : n.Built) :
    ((n.init d ∅).2.rows d ∅).Perm (n.answers d ∅) :=
  built.unused.perm_rows_init valid (Binding.within_empty _)

end Node

end QuadQuery
