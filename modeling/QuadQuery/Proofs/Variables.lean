import Mathlib
import QuadQuery.AttributeOrder
import QuadQuery.Expr
import QuadQuery.Pattern

/-!
# The variables of patterns, orders and expressions

Lists of variables are made by adding what is new. An expression comes out the same on any two
rows that agree on its variables (`Expr.truth_congr`).
-/

namespace QuadQuery

namespace Variable

variable {known vars : List Variable} {v : Variable}

theorem mem_appendNew : v ∈ appendNew known vars ↔ v ∈ known ∨ v ∈ vars := by
  unfold appendNew
  induction vars generalizing known with
  | nil => simp
  | cons w rest ih =>
    rw [List.foldl_cons, ih]
    by_cases member : w ∈ known
    · have drop : v ∈ known ∨ v = w ↔ v ∈ known :=
        ⟨fun h => h.elim (fun h => h) fun same => same ▸ member, .inl⟩
      simp [member, List.mem_cons, ← or_assoc, drop]
    · simp [member, or_assoc]

theorem nodup_appendNew (distinct : known.Nodup) : (appendNew known vars).Nodup := by
  unfold appendNew
  induction vars generalizing known with
  | nil => exact distinct
  | cons w rest ih =>
    rw [List.foldl_cons]
    split
    · exact ih distinct
    · next new =>
      refine ih (List.nodup_append.2 ⟨distinct, List.nodup_singleton w, ?_⟩)
      rintro v hv u hu rfl
      exact new (by simpa [List.mem_singleton.1 hu] using hv)

/-- What is known stays where it is. -/
theorem isPrefix_appendNew : known <+: appendNew known vars := by
  unfold appendNew
  induction vars generalizing known with
  | nil => exact List.prefix_refl known
  | cons w rest ih =>
    rw [List.foldl_cons]
    split
    · exact ih
    · exact (List.prefix_append known [w]).trans ih

/-- Variables that are all new are put behind the others as they are. -/
theorem appendNew_eq_append (distinct : (known ++ vars).Nodup) :
    appendNew known vars = known ++ vars := by
  unfold appendNew
  induction vars generalizing known with
  | nil => exact (List.append_nil known).symm
  | cons w rest ih =>
    have new : w ∉ known := fun member =>
      (List.nodup_append.1 distinct).2.2 w member w List.mem_cons_self rfl
    rw [List.append_cons] at distinct
    rw [List.foldl_cons, if_neg (by simpa using new), ih distinct, ← List.append_cons]

theorem mem_firstAppearances : v ∈ firstAppearances vars ↔ v ∈ vars := by
  simp [firstAppearances, mem_appendNew]

theorem nodup_firstAppearances : (firstAppearances vars).Nodup :=
  nodup_appendNew List.nodup_nil

end Variable

namespace AttributeOrder

variable {order : AttributeOrder} {vars : List Variable} {v : Variable}

theorem mem_extend : v ∈ (order.extend vars).vars ↔ v ∈ order.vars ∨ v ∈ vars :=
  Variable.mem_appendNew

theorem isPrefix_extend : order.vars <+: (order.extend vars).vars :=
  Variable.isPrefix_appendNew

theorem isSome_position? : (order.position? v).isSome = true ↔ v ∈ order.vars := by
  simp [position?]

theorem getElem?_of_position? {p : Nat} (h : order.position? v = some p) :
    order.vars[p]? = some v := by
  unfold position? at h
  rw [List.idxOf?, List.findIdx?_eq_some_iff_getElem] at h
  obtain ⟨bound, same, _⟩ := h
  rw [List.getElem?_eq_getElem bound]
  simpa using same

end AttributeOrder

namespace BasicPattern

variable {b : BasicPattern} {v : Variable}

theorem mem_vars : v ∈ b.vars ↔ ∃ p ∈ b.patterns, v ∈ p.vars := by
  simp [vars, Variable.mem_firstAppearances]

theorem mentions_iff : b.mentions v = true ↔ v ∈ b.vars := by
  simp [mentions, mem_vars]

theorem nodup_vars : b.vars.Nodup :=
  Variable.nodup_firstAppearances

end BasicPattern

theorem QuadPattern.mem_vars {p : QuadPattern} {v : Variable} :
    v ∈ p.vars ↔ ∃ place, p.get place = .var v := by
  simp only [QuadPattern.vars, Quad.toList, List.mem_filterMap, List.mem_cons, List.not_mem_nil,
    or_false]
  constructor
  · rintro ⟨slot, member, isVar⟩
    have slotIs : slot = .var v := by cases slot <;> simp_all [Slot.var?]
    subst slotIs
    rcases member with h | h | h | h
    exacts [⟨.subject, h.symm⟩, ⟨.predicate, h.symm⟩, ⟨.object, h.symm⟩, ⟨.graph, h.symm⟩]
  · rintro ⟨place, h⟩
    refine ⟨.var v, ?_, rfl⟩
    cases place
    exacts [.inl h.symm, .inr (.inl h.symm), .inr (.inr (.inl h.symm)), .inr (.inr (.inr h.symm))]

namespace Expr

variable {row row' : Variable → Option Term}

theorem mem_vars {e : Expr} {v : Variable} : v ∈ e.vars ↔ v ∈ vars.mentions e :=
  Variable.mem_firstAppearances

/-- The value depends on the variables of the expression alone. -/
theorem eval_congr {e : Expr} (same : ∀ v ∈ e.vars, row v = row' v) : e.eval row = e.eval row' := by
  simp only [mem_vars] at same
  induction e with
  | var v => simp [eval, same v (List.mem_singleton.2 rfl)]
  | const t => rfl
  | bound v => simp [eval, same v (List.mem_singleton.2 rfl)]
  | not e ih => simp only [eval, ih same]
  | and l r ihl ihr | or l r ihl ihr | compare c l r ihl ihr =>
    have left := ihl fun v h => same v (List.mem_append_left _ h)
    have right := ihr fun v h => same v (List.mem_append_right _ h)
    simp only [eval, left, right]
  | regex e pattern ih => simp only [eval, ih same]

theorem truth_congr {e : Expr} (same : ∀ v ∈ e.vars, row v = row' v) :
    e.truth row = e.truth row' := by
  rw [truth, truth, eval_congr same]

theorem isSatisfied_congr {e : Expr} (same : ∀ v ∈ e.vars, row v = row' v) :
    e.isSatisfied row = e.isSatisfied row' := by
  rw [isSatisfied, isSatisfied, truth_congr same]

end Expr

end QuadQuery
