import QuadQuery.Proofs.DatasetContents
import QuadQuery.Proofs.DecimalOrder
import QuadQuery.Proofs.Variables

/-!
# Filters and the spelling of terms

Filters compare decimals by value and look into no other term that has two spellings. Rows that
give alike terms to the variables of an expression are judged alike (`Expr.truth_alike`).
-/

namespace QuadQuery

theorem Term.Alike.eq_or_decimal {t u : Term} (h : t.Alike u) :
    t = u ∨ ∃ a b : Decimal, t = .decimal a ∧ u = .decimal b ∧ a.value = b.value := by
  cases t <;> cases u <;> simp_all [Term.Alike]

namespace Value

/-- The values are equal, decimals by what they stand for. -/
inductive Alike : Value → Value → Prop
  | term {t u : Term} (alike : t.Alike u) : Alike (.term t) (.term u)
  | bool (b : Bool) : Alike (.bool b) (.bool b)

variable {a a' b b' : Value}

theorem Alike.truth?_eq (h : a.Alike a') : a.truth? = a'.truth? := by
  cases h with
  | bool b => rfl
  | term alike =>
    rcases alike.eq_or_decimal with rfl | ⟨x, y, rfl, rfl, same⟩
    · rfl
    · have zero : x.isZero = y.isZero := by
        rw [Bool.eq_iff_iff, Decimal.isZero_iff, Decimal.isZero_iff, same]
      simp only [truth?, Term.asDecimal?, Option.map_some, zero]

/-- Terms that are not both numbers are the same or not. -/
theorem same_congr {t t' u u' : Term} (h : t.Alike t') (h' : u.Alike u') :
    t.same u = t'.same u' := by
  rw [Bool.eq_iff_iff, Term.same_iff_alike, Term.same_iff_alike]
  exact ⟨fun alike => (h.symm.trans alike).trans h', fun alike => (h.trans alike).trans h'.symm⟩

theorem Alike.order?_eq (c : Comparison) (h : a.Alike a') (h' : b.Alike b') :
    order? c a b = order? c a' b' := by
  cases h with
  | bool x => cases h' <;> rfl
  | @term t t' first =>
    cases h' with
    | bool y => rfl
    | @term u u' second =>
      have same := same_congr first second
      rcases first.eq_or_decimal with rfl | ⟨x, x', rfl, rfl, left⟩ <;>
        rcases second.eq_or_decimal with rfl | ⟨y, y', rfl, rfl, right⟩
      · rfl
      · cases t <;> simp only [order?, Term.asDecimal?, Decimal.compare_eq, right, same]
      · cases u <;> simp only [order?, Term.asDecimal?, Decimal.compare_eq, left, same]
      · simp only [order?, Term.asDecimal?, Decimal.compare_eq, left, right]

theorem Alike.compare?_eq (c : Comparison) (h : a.Alike a') (h' : b.Alike b') :
    compare? c a b = compare? c a' b' := by
  rw [compare?, compare?, h.order?_eq c h']

end Value

namespace Expr

variable {row row' : Variable → Option Term} {e : Expr}

theorem bind_truth?_eq {x y : Option Value} (h : Option.Rel Value.Alike x y) :
    x.bind Value.truth? = y.bind Value.truth? := by
  cases h with
  | none => rfl
  | some alike => exact alike.truth?_eq

theorem rel_map_bool (x : Option Bool) :
    Option.Rel Value.Alike (x.map Value.bool) (x.map Value.bool) := by
  cases x with
  | none => exact .none
  | some b => exact .some (.bool b)

/-- Alike terms make alike values. -/
theorem eval_alike (same : ∀ v ∈ e.vars, Option.Rel Term.Alike (row v) (row' v)) :
    Option.Rel Value.Alike (e.eval row) (e.eval row') := by
  simp only [mem_vars] at same
  induction e with
  | var v =>
    have here := same v (List.mem_singleton.2 rfl)
    unfold eval
    generalize row v = x, row' v = y at here
    cases here with
    | none => exact .none
    | some alike => exact .some (.term alike)
  | const t => exact .some (.term (.refl t))
  | bound v =>
    have here := same v (List.mem_singleton.2 rfl)
    unfold eval
    generalize row v = x, row' v = y at here
    cases here <;> exact .some (.bool _)
  | not e ih =>
    have inner := bind_truth?_eq (ih same)
    unfold eval
    rw [inner]
    cases (e.eval row').bind Value.truth? with
    | none => exact .none
    | some b => exact .some (.bool !b)
  | and l r ihl ihr | or l r ihl ihr =>
    have left := bind_truth?_eq (ihl fun v h => same v (List.mem_append_left _ h))
    have right := bind_truth?_eq (ihr fun v h => same v (List.mem_append_right _ h))
    simp only [eval, left, right]
    exact rel_map_bool _
  | compare c l r ihl ihr =>
    have left := ihl fun v h => same v (List.mem_append_left _ h)
    have right := ihr fun v h => same v (List.mem_append_right _ h)
    unfold eval
    generalize l.eval row = x, l.eval row' = x' at left
    generalize r.eval row = y, r.eval row' = y' at right
    cases left with
    | none => exact .none
    | some first =>
      cases right with
      | none => exact .none
      | some second =>
        have judged := first.compare?_eq c second
        simp only [Option.bind_eq_bind, Option.bind_some, judged]
        exact rel_map_bool _
  | regex e pattern ih =>
    have inner := ih same
    unfold eval
    generalize e.eval row = x, e.eval row' = x' at inner
    cases inner with
    | none => exact .none
    | some alike =>
      cases alike with
      | bool b => exact .none
      | term alike =>
        rcases alike.eq_or_decimal with rfl | ⟨x, y, rfl, rfl, _⟩
        · split
          · exact .some (.bool _)
          · exact .none
        · exact .none

/-- Rows that give alike terms to the variables of an expression are judged alike. -/
theorem truth_alike (same : ∀ v ∈ e.vars, Option.Rel Term.Alike (row v) (row' v)) :
    e.truth row = e.truth row' :=
  bind_truth?_eq (eval_alike same)

theorem isSatisfied_alike (same : ∀ v ∈ e.vars, Option.Rel Term.Alike (row v) (row' v)) :
    e.isSatisfied row = e.isSatisfied row' := by
  rw [isSatisfied, isSatisfied, truth_alike same]

end Expr

end QuadQuery
