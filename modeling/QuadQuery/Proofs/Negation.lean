import QuadQuery.Proofs.DecimalOrder
import QuadQuery.Proofs.Variables

/-!
# Negations and comparisons in filters

An undecided operand does not get in the way of the usual laws: a double negation may be dropped, a
negated connective is the dual connective of the negated sides, a negated comparison is the opposite
one, and a comparison may be read from the other side. Rewriting by these laws anywhere in an
expression, in either direction and as often as one likes, leaves it true, false or undecided as it
was (`Expr.truth_of_rewritten`).

A double negation is dropped only where a condition is expected: `(! (! a))` has a truth value for its
value, `a` may have any term. The other laws keep the value as well, so they apply to the operands of
comparisons too.
-/

namespace QuadQuery

namespace Comparison

/-- The comparison that holds where the other does not. -/
def negated : Comparison → Comparison
  | .eq => .ne
  | .ne => .eq
  | .lt => .ge
  | .ge => .lt
  | .le => .gt
  | .gt => .le

/-- The comparison with its sides exchanged. -/
def swapped : Comparison → Comparison
  | .eq => .eq
  | .ne => .ne
  | .lt => .gt
  | .gt => .lt
  | .le => .ge
  | .ge => .le

@[simp]
theorem isOrdering_negated (c : Comparison) : c.negated.isOrdering = c.isOrdering := by
  cases c <;> rfl

@[simp]
theorem isOrdering_swapped (c : Comparison) : c.swapped.isOrdering = c.isOrdering := by
  cases c <;> rfl

theorem holds_negated (c : Comparison) (o : Ordering) : c.negated.holds o = !c.holds o := by
  cases c <;> cases o <;> rfl

theorem holds_swapped (c : Comparison) (o : Ordering) : c.swapped.holds o.swap = c.holds o := by
  cases c <;> cases o <;> rfl

/-- Whether values are the same or not can be asked from either side. -/
theorem holds_swapped_of_same {c : Comparison} (sameness : c.isOrdering = false) (o : Ordering)
    (strict : o ≠ .gt) : c.swapped.holds o = c.holds o := by
  cases c <;> cases o <;> simp_all [holds, swapped, isOrdering]

end Comparison

/-! ## Comparing from the other side -/

theorem Decimal.swap_compare (a b : Decimal) : (a.compare b).swap = b.compare a := by
  rw [Decimal.compare_eq, Decimal.compare_eq]
  exact Std.OrientedCmp.eq_swap.symm

theorem Date.swap_compare (a b : Date) : (a.compare b).swap = b.compare a := by
  simp only [Date.compare, Ordering.swap_then]
  rw [← Std.OrientedCmp.eq_swap (a := b.year), ← Std.OrientedCmp.eq_swap (a := b.month),
    ← Std.OrientedCmp.eq_swap (a := b.day)]

theorem Term.same_comm (t u : Term) : t.same u = u.same t := by
  rw [Bool.eq_iff_iff, Term.same_iff, Term.same_iff, eq_comm]

namespace Value

theorem compare?_negated (c : Comparison) (a b : Value) :
    compare? c.negated a b = (compare? c a b).map (!·) := by
  have same : order? c.negated a b = order? c a b := by
    unfold order?
    simp only [Comparison.isOrdering_negated]
  rw [compare?, compare?, same, Option.map_map]
  exact congrArg (Option.map · _) (funext c.holds_negated)

/-- Terms that are not both numbers, texts or dates can only be the same or not. -/
theorem map_holds_swapped_of_same (c : Comparison) (t u : Term) :
    (if c.isOrdering then none else some (if u.same t then Ordering.eq else .lt)).map c.swapped.holds
      = (if c.isOrdering then none else some (if t.same u then Ordering.eq else .lt)).map c.holds := by
  rw [Term.same_comm u t]
  cases sameness : c.isOrdering with
  | true => rfl
  | false =>
    refine congrArg some (Comparison.holds_swapped_of_same sameness _ ?_)
    split <;> decide

theorem compare?_swapped (c : Comparison) (a b : Value) :
    compare? c.swapped b a = compare? c a b := by
  -- Wherever there is an order, the other side has the reverse one.
  have reversed {x y : Ordering} (h : x.swap = y) :
      (some y).map c.swapped.holds = (some x).map c.holds := by
    rw [← h, Option.map_some, Option.map_some, c.holds_swapped]
  cases a with
  | bool p =>
    cases b with
    | bool q =>
      simp only [compare?, order?, Comparison.isOrdering_swapped]
      split
      · rfl
      · exact reversed Std.OrientedCmp.eq_swap.symm
    | term u => rfl
  | term t =>
    cases b with
    | bool q => rfl
    | term u =>
      simp only [compare?, order?, Comparison.isOrdering_swapped]
      cases t.asDecimal? <;> cases u.asDecimal?
      case some.some x y => exact reversed (x.swap_compare y)
      all_goals
        -- Two texts, two dates, or terms that can only be the same or not.
        cases t <;> cases u <;>
        first
        | exact reversed Std.OrientedCmp.eq_swap.symm
        | exact reversed (Date.swap_compare ..)
        | exact map_holds_swapped_of_same c _ _

end Value

namespace Expr

variable {row : Variable → Option Term} {e e' l r : Expr}

/-! ## The outcome of connectives -/

theorem truth_not : (not e).truth row = (e.truth row).map (!·) := by
  rw [truth, eval, ← truth]
  cases e.truth row <;> rfl

theorem truth_and : (and l r).truth row = bothHold (l.truth row) (r.truth row) := by
  rw [truth, eval, ← truth, ← truth]
  cases bothHold (l.truth row) (r.truth row) <;> rfl

theorem truth_or : (or l r).truth row = eitherHolds (l.truth row) (r.truth row) := by
  rw [truth, eval, ← truth, ← truth]
  cases eitherHolds (l.truth row) (r.truth row) <;> rfl

theorem eval_not : (not e).eval row = ((e.truth row).map (!·)).map .bool := by
  rw [eval, ← truth, Option.map_map]
  rfl

theorem eval_and : (and l r).eval row = (bothHold (l.truth row) (r.truth row)).map .bool := rfl

theorem eval_or : (or l r).eval row = (eitherHolds (l.truth row) (r.truth row)).map .bool := rfl

theorem truth_compare (c : Comparison) :
    (compare c l r).truth row = (l.eval row).bind fun a => (r.eval row).bind (Value.compare? c a) := by
  rw [truth, eval]
  cases l.eval row with
  | none => rfl
  | some a =>
    cases r.eval row with
    | none => rfl
    | some b => cases same : Value.compare? c a b <;> simp [same, Value.truth?]

theorem eval_compare (c : Comparison) :
    (compare c l r).eval row = ((compare c l r).truth row).map .bool := by
  rw [truth_compare, eval]
  cases l.eval row with
  | none => rfl
  | some a => cases r.eval row <;> rfl

theorem map_not_bothHold : ∀ x y : Option Bool,
    (bothHold x y).map (!·) = eitherHolds (x.map (!·)) (y.map (!·)) := by
  decide

theorem map_not_eitherHolds : ∀ x y : Option Bool,
    (eitherHolds x y).map (!·) = bothHold (x.map (!·)) (y.map (!·)) := by
  decide

/-- A negated comparison is decided where the comparison is. -/
theorem truth_compare_negated (c : Comparison) :
    (compare c.negated l r).truth row = ((compare c l r).truth row).map (!·) := by
  rw [truth_compare, truth_compare]
  cases l.eval row with
  | none => rfl
  | some a =>
    cases r.eval row with
    | none => rfl
    | some b => exact Value.compare?_negated c a b

theorem truth_compare_swapped (c : Comparison) :
    (compare c.swapped r l).truth row = (compare c l r).truth row := by
  rw [truth_compare, truth_compare]
  cases l.eval row with
  | none => cases r.eval row <;> rfl
  | some a =>
    cases r.eval row with
    | none => rfl
    | some b => exact Value.compare?_swapped c a b

/-! ## Rewriting -/

/-- What is asked of an expression where it stands. -/
inductive Role where
  /-- Whether it holds. -/
  | condition
  /-- Its value. -/
  | operand

/-- The second expression is the first one after one law was applied in one place. -/
inductive Rewrites : Role → Expr → Expr → Prop
  | notNot (e : Expr) : Rewrites .condition (.not (.not e)) e
  | notAnd (role : Role) (l r : Expr) : Rewrites role (.not (.and l r)) (.or (.not l) (.not r))
  | notOr (role : Role) (l r : Expr) : Rewrites role (.not (.or l r)) (.and (.not l) (.not r))
  | notCompare (role : Role) (c : Comparison) (l r : Expr) :
    Rewrites role (.not (.compare c l r)) (.compare c.negated l r)
  | swap (role : Role) (c : Comparison) (l r : Expr) :
    Rewrites role (.compare c l r) (.compare c.swapped r l)
  | inNot (role : Role) {e e' : Expr} (step : Rewrites .condition e e') :
    Rewrites role (.not e) (.not e')
  | andLeft (role : Role) {l l' : Expr} (step : Rewrites .condition l l') (r : Expr) :
    Rewrites role (.and l r) (.and l' r)
  | andRight (role : Role) (l : Expr) {r r' : Expr} (step : Rewrites .condition r r') :
    Rewrites role (.and l r) (.and l r')
  | orLeft (role : Role) {l l' : Expr} (step : Rewrites .condition l l') (r : Expr) :
    Rewrites role (.or l r) (.or l' r)
  | orRight (role : Role) (l : Expr) {r r' : Expr} (step : Rewrites .condition r r') :
    Rewrites role (.or l r) (.or l r')
  | compareLeft (role : Role) (c : Comparison) {l l' : Expr} (step : Rewrites .operand l l')
    (r : Expr) : Rewrites role (.compare c l r) (.compare c l' r)
  | compareRight (role : Role) (c : Comparison) (l : Expr) {r r' : Expr}
    (step : Rewrites .operand r r') : Rewrites role (.compare c l r) (.compare c l r')
  | inRegex (role : Role) {e e' : Expr} (step : Rewrites .operand e e') (pattern : Regex) :
    Rewrites role (.regex e pattern) (.regex e' pattern)

/-- The expressions come to the same on a row, as far as is asked of them. -/
def Role.Same (row : Variable → Option Term) : Role → Expr → Expr → Prop
  | .condition, e, e' => e'.truth row = e.truth row
  | .operand, e, e' => e'.eval row = e.eval row

theorem Role.same_of_eval (role : Role) (same : e'.eval row = e.eval row) : role.Same row e e' := by
  cases role with
  | condition => exact congrArg (·.bind Value.truth?) same
  | operand => exact same

/-- One law applied in one place changes nothing of what is asked there. -/
theorem Rewrites.same {role : Role} (h : Rewrites role e e') : role.Same row e e' := by
  induction h with
  | notNot e =>
    change e.truth row = (not (not e)).truth row
    rw [truth_not, truth_not]
    cases e.truth row <;> simp
  | notAnd role l r =>
    refine role.same_of_eval ?_
    rw [eval_or, eval_not, truth_not, truth_not, truth_and, map_not_bothHold]
  | notOr role l r =>
    refine role.same_of_eval ?_
    rw [eval_and, eval_not, truth_not, truth_not, truth_or, map_not_eitherHolds]
  | notCompare role c l r =>
    refine role.same_of_eval ?_
    rw [eval_compare, eval_not, truth_compare_negated]
  | swap role c l r =>
    refine role.same_of_eval ?_
    rw [eval_compare, eval_compare, truth_compare_swapped]
  | inNot role _ ih =>
    refine role.same_of_eval ?_
    rw [eval_not, eval_not, show _ = _ from ih]
  | andLeft role _ r ih | andRight role l _ ih =>
    refine role.same_of_eval ?_
    rw [eval_and, eval_and, show _ = _ from ih]
  | orLeft role _ r ih | orRight role l _ ih =>
    refine role.same_of_eval ?_
    rw [eval_or, eval_or, show _ = _ from ih]
  | compareLeft role c _ r ih | compareRight role c l _ ih =>
    refine role.same_of_eval ?_
    rw [eval, eval, show _ = _ from ih]
  | inRegex role _ pattern ih =>
    refine role.same_of_eval ?_
    rw [eval, eval, show _ = _ from ih]

/-- However often and wherever the laws are applied to a filter, in either direction, it is true,
false or undecided of every row exactly as it was. -/
theorem truth_of_rewritten (h : Relation.EqvGen (Rewrites .condition) e e')
    (row : Variable → Option Term) : e'.truth row = e.truth row := by
  induction h with
  | rel e e' step => exact step.same
  | refl e => rfl
  | symm e e' _ ih => exact ih.symm
  | trans e e' e'' _ _ first second => exact second.trans first

/-- A negated conjunction with an unbound variable and a decimal beside an integer, the negation of
which goes inwards, and one law read backwards. -/
theorem truth_of_rewritten_conjunction :
    let less : Expr := .compare .lt (.var ⟨"o"⟩) (.const (.integer 1))
    let unbound : Expr := .not (.not (.var ⟨"x"⟩))
    let more : Expr := .not (.compare .gt (.const (.integer 1)) (.var ⟨"o"⟩))
    let row (v : Variable) : Option Term :=
      if v = ⟨"o"⟩ then some (.decimal ⟨15, 1⟩) else none
    Relation.EqvGen (Rewrites .condition) (.not (.and less unbound))
        (.or more (.not (.var ⟨"x"⟩))) ∧
      (or more (.not (.var ⟨"x"⟩))).truth row = some true ∧
      (not (.and less unbound)).truth row = some true := by
  intro less unbound more row
  have rewritten : Relation.EqvGen (Rewrites .condition) (.not (.and less unbound))
      (.or more (.not (.var ⟨"x"⟩))) := by
    refine .trans _ _ _ (.rel _ _ (.notAnd _ less unbound)) ?_
    refine .trans _ _ _ (.rel _ _ (.orLeft _ (.notCompare _ _ _ _) _)) ?_
    refine .trans _ _ _ (.rel _ _ (.orLeft _ (.swap _ _ _ _) _)) ?_
    refine .trans _ _ _ (.rel _ _ (.orRight _ _ (.inNot _ (.notNot _)))) ?_
    exact .symm _ _ (.rel _ _ (.orLeft _ (.notCompare _ .gt _ _) _))
  have outcome : (or more (.not (.var ⟨"x"⟩))).truth row = some true := by decide +kernel
  exact ⟨rewritten, outcome, (truth_of_rewritten rewritten row).symm.trans outcome⟩

end Expr

end QuadQuery
