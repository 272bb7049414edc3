import QuadQuery.Proofs.JoinTree.Wheels
import QuadQuery.Proofs.Scan.Matches

/-!
# Assignments of a basic pattern

The assignments of a basic pattern are found by trying every number of the term table for every
variable. They are the rows that a settled scan makes for a context (`IndexScan.perm_assignments`),
and it does not matter in which order the patterns stand (`Reorder.perm_assignments`).
-/

namespace QuadQuery

namespace Binding

/-- All bindings that give each of the variables one of the numbers. -/
def choices (ids : List TermId) (vars : List Variable) : List Binding :=
  (Wheel.picks (vars.map fun _ => ids)).map (ofRow vars)

variable {ids : List TermId} {vars : List Variable} {b : Binding} {v : Variable}

theorem mem_rows {row : Row} : row ∈ Wheel.picks (vars.map fun _ => ids) ↔
    row.length = vars.length ∧ ∀ id ∈ row, id ∈ ids := by
  rw [Wheel.mem_picks]
  induction vars generalizing row with
  | nil => cases row <;> simp
  | cons v rest ih =>
    cases row with
    | nil => simp
    | cons id row =>
      rw [List.map_cons, List.forall₂_cons, ih, List.length_cons, List.length_cons,
        List.forall_mem_cons, Nat.add_right_cancel_iff]
      exact and_left_comm

/-- The choices are the bindings of exactly these variables to these numbers. -/
theorem mem_choices (distinct : vars.Nodup) : b ∈ choices ids vars ↔
    (∀ v, (b.get? v).isSome = true ↔ v ∈ vars) ∧ ∀ v id, b.get? v = some id → id ∈ ids := by
  simp only [choices, List.mem_map, mem_rows]
  constructor
  · rintro ⟨row, ⟨length, values⟩, rfl⟩
    refine ⟨fun v => isSome_get?_ofRow length, fun v id known => values id ?_⟩
    exact (List.of_mem_zip ((get?_ofRow_eq_some_iff distinct length).1 known)).2
  · rintro ⟨bound, values⟩
    obtain ⟨row, known⟩ := exists_mapM fun v member => (bound v).2 member
    refine ⟨row, ⟨(mapM_eq_some_iff.1 known).length_eq.symm, fun id member => ?_⟩,
      IndexScan.ofRow_eq_of_mapM distinct known fun v some => (bound v).1 some⟩
    obtain ⟨v, _, value⟩ := exists_mem_of_mapM known member
    exact values v id value

theorem nodup_choices (numbers : ids.Nodup) (distinct : vars.Nodup) : (choices ids vars).Nodup := by
  have rows : (Wheel.picks (vars.map fun _ => ids)).Nodup :=
    Wheel.nodup_picks fun values member => by
      obtain ⟨_, _, rfl⟩ := List.mem_map.1 member
      exact numbers
  refine rows.map_on fun row hr row' hr' same => ?_
  have value := IndexScan.mapM_get?_ofRow distinct (mem_rows.1 hr).1
  rw [same, IndexScan.mapM_get?_ofRow distinct (mem_rows.1 hr').1] at value
  exact (Option.some.inj value).symm

end Binding

namespace BasicPattern

variable {d : Dataset} {pattern : BasicPattern} {context b : Binding}

/-- The assignments of the variables of a pattern under which all of it is in the dataset and that
agree with a context. -/
def assignments (d : Dataset) (context : Binding) (pattern : BasicPattern) : List Binding :=
  (Binding.choices (List.range d.terms.size) pattern.vars).filter fun b =>
    pattern.HoldsIn d b ∧ b.Agrees context

/-- Nothing is missed by trying the numbers of the term table alone. -/
theorem mem_assignments (valid : d.Valid) : b ∈ pattern.assignments d context ↔
    b.Within pattern.vars ∧ pattern.HoldsIn d b ∧ b.Agrees context := by
  rw [assignments, List.mem_filter, Binding.mem_choices nodup_vars, decide_eq_true_iff]
  constructor
  · rintro ⟨⟨bound, _⟩, holds⟩
    exact ⟨fun v known => (bound v).1 known, holds⟩
  · rintro ⟨within, holds, agrees⟩
    refine ⟨⟨fun v => ⟨within v, holds.isSome_get?⟩, fun v id known => ?_⟩, holds, agrees⟩
    exact List.mem_range.2 (holds.lt_size valid (within v (Option.isSome_of_eq_some known)) known)

theorem nodup_assignments (d : Dataset) (context : Binding) (pattern : BasicPattern) :
    (pattern.assignments d context).Nodup :=
  (Binding.nodup_choices List.nodup_range nodup_vars).filter _

/-- An assignment can be read off everything that extends it. -/
theorem restrict_eq (valid : d.Valid) (member : b ∈ pattern.assignments d context) {row : Binding}
    (larger : row.Extends b) {vars : List Variable} (same : ∀ v, v ∈ vars ↔ v ∈ pattern.vars) :
    row.restrict vars = b := by
  obtain ⟨within, holds, _⟩ := (mem_assignments valid).1 member
  refine Binding.ext_get? fun v => ?_
  rw [Binding.get?_restrict]
  split
  · next bound =>
    obtain ⟨i, known⟩ := Option.isSome_iff_exists.1 (holds.isSome_get? ((same v).1 bound))
    rw [larger v i known, known]
  · next free =>
    exact (Option.not_isSome_iff_eq_none.1 fun known => free ((same v).2 (within v known))).symm

/-- A context matters for the variables of the pattern alone. -/
theorem assignments_congr {context' : Binding}
    (same : ∀ v ∈ pattern.vars, context.get? v = context'.get? v) :
    pattern.assignments d context = pattern.assignments d context' := by
  refine List.filter_congr fun b member => ?_
  have bound := ((Binding.mem_choices nodup_vars).1 member).1
  have agree : b.Agrees context ↔ b.Agrees context' :=
    forall₂_congr fun v i => forall_congr' fun j =>
      imp_congr_right fun hi => by rw [same v ((bound v).1 (Option.isSome_of_eq_some hi))]
  simp only [agree]

theorem mem_vars_of_perm {other : BasicPattern} (same : pattern.patterns.Perm other.patterns)
    {v : Variable} : v ∈ pattern.vars ↔ v ∈ other.vars := by
  simp only [mem_vars, same.mem_iff]

/-- Patterns that hold together hold in any order. -/
theorem HoldsIn.perm {other : BasicPattern} (h : pattern.HoldsIn d b)
    (same : pattern.patterns.Perm other.patterns) : other.HoldsIn d b :=
  fun p member => h p (same.mem_iff.2 member)

end BasicPattern

/-! ## Reordered patterns -/

namespace Reorder

variable {d : Dataset}

theorem perm_insertByCount (p : QuadPattern) (patterns : List QuadPattern) :
    (insertByCount p patterns).Perm (p :: patterns) := by
  induction patterns with
  | nil => exact .refl _
  | cons q rest ih =>
    unfold insertByCount
    split
    · exact .refl _
    · exact (ih.cons q).trans (.swap p q rest)

/-- Reordering loses no pattern and adds none. -/
theorem perm_apply (r : Reorder) (pattern : BasicPattern) :
    (r.apply pattern).patterns.Perm pattern.patterns := by
  cases r with
  | asWritten => exact .refl _
  | boundFirst =>
    change (sortByCount pattern.patterns).Perm pattern.patterns
    induction pattern.patterns with
    | nil => exact .refl _
    | cons p rest ih => exact (perm_insertByCount p (sortByCount rest)).trans (ih.cons p)

theorem mem_vars_apply (r : Reorder) (pattern : BasicPattern) {v : Variable} :
    v ∈ (r.apply pattern).vars ↔ v ∈ pattern.vars :=
  BasicPattern.mem_vars_of_perm (r.perm_apply pattern)

theorem holdsIn_apply (r : Reorder) (pattern : BasicPattern) {b : Binding} :
    (r.apply pattern).HoldsIn d b ↔ pattern.HoldsIn d b :=
  ⟨fun h => h.perm (r.perm_apply pattern), fun h => h.perm (r.perm_apply pattern).symm⟩

/-- Reordered patterns have the same assignments. -/
theorem perm_assignments (valid : d.Valid) (r : Reorder) (context : Binding)
    (pattern : BasicPattern) :
    ((r.apply pattern).assignments d context).Perm (pattern.assignments d context) := by
  refine (List.perm_ext_iff_of_nodup (BasicPattern.nodup_assignments ..)
    (BasicPattern.nodup_assignments ..)).2 fun b => ?_
  simp only [BasicPattern.mem_assignments valid, holdsIn_apply, Binding.Within, mem_vars_apply]

end Reorder

/-! ## Assignments and rows -/

namespace IndexScan

variable {d : Dataset} {s : IndexScan} {context : Binding}

/-- The rows of a settled scan are the assignments of its pattern, provided that a context gives
no value to a variable that was not met further up. -/
theorem perm_assignments (valid : d.Valid) (s : IndexScan) {incoming : AttributeOrder}
    (within : context.Within incoming.vars) :
    (((s.init d incoming).2.rowsFor d ((s.init d incoming).2.keyFor context)).map
      (Binding.ofRow (s.init d incoming).2.attributes)).Perm (s.pattern.assignments d context) := by
  have same : context.restrict incoming.vars = context := Binding.ext_get? fun v => by
    rw [Binding.get?_restrict, ite_eq_left_iff]
    exact fun away => (Option.not_isSome_iff_eq_none.1 fun known => away (within v known)).symm
  have lists := same ▸ lists_rowsFor_init valid s incoming context
  have perm := perm_attributes_init s d incoming
  refine (List.perm_ext_iff_of_nodup (lists.nodup_map_ofRow (initialized_init s d incoming).distinct)
    (BasicPattern.nodup_assignments ..)).2 fun b => ?_
  rw [lists.mem_map_ofRow perm, BasicPattern.mem_assignments valid]
  exact ⟨fun m => ⟨m.within, m.holds, m.agrees⟩, fun ⟨w, h, a⟩ => ⟨w, h, a⟩⟩

end IndexScan

end QuadQuery
