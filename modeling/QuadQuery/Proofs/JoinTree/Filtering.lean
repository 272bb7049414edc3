import QuadQuery.Proofs.JoinTree.Answers
import QuadQuery.Proofs.Negation

/-!
# Filters on growing rows

A row grows when rows of children are merged into it and when the context of its node fills the
gaps. A filter that never asks whether a variable is bound keeps the outcome it once has
(`Node.truth_of_grown`). A filter whose variables the own row binds has the same outcome from the
start, also if it is undecided (`Node.truth_of_preFilter`).
-/

namespace QuadQuery

namespace Expr

variable {row row' : Variable → Option Term} {e : Expr}

/-- The expression asks somewhere whether a variable is bound. -/
def asksBound : Expr → Bool
  | .bound _ => true
  | .var _ | .const _ => false
  | .not e | .regex e _ => e.asksBound
  | .and l r | .or l r | .compare _ l r => l.asksBound || r.asksBound

/-- The second row gives all the terms that the first gives, and perhaps more. -/
def Widens (row row' : Variable → Option Term) : Prop :=
  ∀ v t, row v = some t → row' v = some t

/-! ## Growing rows -/

theorem bothHold_mono : ∀ x x' y y' : Option Bool, (∀ b, x = some b → x' = some b) →
    (∀ b, y = some b → y' = some b) → ∀ b, bothHold x y = some b → bothHold x' y' = some b := by
  decide

theorem eitherHolds_mono : ∀ x x' y y' : Option Bool, (∀ b, x = some b → x' = some b) →
    (∀ b, y = some b → y' = some b) →
    ∀ b, eitherHolds x y = some b → eitherHolds x' y' = some b := by
  decide

/-- An outcome is read off the value, so it stays where the value does. -/
theorem truth_of_eval (same : ∀ value, e.eval row = some value → e.eval row' = some value) :
    ∀ b, e.truth row = some b → e.truth row' = some b := by
  intro b decided
  obtain ⟨value, known, outcome⟩ := Option.bind_eq_some_iff.1 decided
  rw [truth, same value known]
  exact outcome

/-- A value that a row decides is the value on all wider rows. -/
theorem eval_of_widens (plain : e.asksBound = false) (more : Widens row row') :
    ∀ value, e.eval row = some value → e.eval row' = some value := by
  induction e with
  | var v =>
    intro value decided
    obtain ⟨t, known, rfl⟩ := Option.map_eq_some_iff.1 decided
    rw [eval, more v t known]
    rfl
  | const t => exact fun _ decided => decided
  | bound v => cases plain
  | not e ih =>
    intro value decided
    rw [eval_not, Option.map_map, Option.map_eq_some_iff] at decided ⊢
    obtain ⟨b, outcome, rfl⟩ := decided
    exact ⟨b, truth_of_eval (ih plain) b outcome, rfl⟩
  | and l r ihl ihr =>
    obtain ⟨left, right⟩ := Bool.or_eq_false_iff.1 plain
    intro value decided
    rw [eval_and, Option.map_eq_some_iff] at decided ⊢
    obtain ⟨b, outcome, rfl⟩ := decided
    exact ⟨b, bothHold_mono _ _ _ _ (truth_of_eval (ihl left)) (truth_of_eval (ihr right)) b outcome,
      rfl⟩
  | or l r ihl ihr =>
    obtain ⟨left, right⟩ := Bool.or_eq_false_iff.1 plain
    intro value decided
    rw [eval_or, Option.map_eq_some_iff] at decided ⊢
    obtain ⟨b, outcome, rfl⟩ := decided
    exact ⟨b, eitherHolds_mono _ _ _ _ (truth_of_eval (ihl left)) (truth_of_eval (ihr right)) b
      outcome, rfl⟩
  | compare c l r ihl ihr =>
    obtain ⟨left, right⟩ := Bool.or_eq_false_iff.1 plain
    intro value decided
    obtain ⟨a, first, decided⟩ := Option.bind_eq_some_iff.1 decided
    obtain ⟨b, second, decided⟩ := Option.bind_eq_some_iff.1 decided
    refine Option.bind_eq_some_iff.2 ⟨a, ihl left a first, ?_⟩
    exact Option.bind_eq_some_iff.2 ⟨b, ihr right b second, decided⟩
  | regex e pattern ih =>
    intro value decided
    rw [eval] at decided ⊢
    split at decided
    · next s text => rw [ih plain _ text]; exact decided
    · cases decided

theorem truth_of_widens (plain : e.asksBound = false) (more : Widens row row') :
    ∀ b, e.truth row = some b → e.truth row' = some b :=
  truth_of_eval (eval_of_widens plain more)

theorem isSatisfied_of_widens (plain : e.asksBound = false) (more : Widens row row')
    (satisfied : e.isSatisfied row = true) : e.isSatisfied row' = true := by
  rw [isSatisfied, beq_iff_eq] at satisfied ⊢
  exact truth_of_widens plain more true satisfied

end Expr

/-- Filling the gaps of a row adds nothing wrong to it if the row agrees with what it is filled
from. -/
theorem Binding.Extends.extendAbsent {row row' context context' : Binding}
    (more : row'.Extends row) (agrees : row'.Agrees context) (above : context'.Extends context) :
    (row'.extendAbsent context').Extends (row.extendAbsent context) := by
  intro v id known
  rw [get?_extendAbsent] at known ⊢
  cases own : row.get? v with
  | some i =>
    rw [own] at known
    rw [more v i own]
    exact known
  | none =>
    rw [own, Option.none_or] at known
    cases own' : row'.get? v with
    | some j => rw [agrees v j id own' known]; rfl
    | none => exact above v id known

namespace Node

variable {d : Dataset} {n : Node} {row row' own context context' : Binding} {e : Expr}

theorem view_eq (d : Dataset) (row context : Binding) (v : Variable) :
    view d row context v = ((row.extendAbsent context).get? v).bind d.term? := by
  rw [view, Binding.get?_extendAbsent]

theorem widens_view (more : (row'.extendAbsent context').Extends (row.extendAbsent context)) :
    Expr.Widens (view d row context) (view d row' context') := by
  intro v t known
  rw [view_eq] at known ⊢
  obtain ⟨id, here, term⟩ := Option.bind_eq_some_iff.1 known
  rw [more v id here]
  exact term

theorem extends_merge (own : Binding) (picks : List (Option Binding)) :
    (merge own picks).Extends own :=
  fun _ _ known => get?_merge own picks known

/-- Values that only fill gaps of a row leave all others as they are. -/
theorem extends_fallback (row : Binding) (above : context'.Extends context) :
    (row.extendAbsent context').Extends (row.extendAbsent context) := by
  intro v id known
  rw [Binding.get?_extendAbsent, Option.or_eq_some_iff] at known ⊢
  exact known.imp_right (And.imp_right (above v id))

/-- Once a filter that does not ask what is bound is true or false, it remains so on every row that
gives the same terms and more. So a filter that is satisfied remains satisfied when more of the
context is seen, when rows of children are merged into a row that was judged alone, and when they
are merged into a row that was judged in its context, provided the outcome agrees with that context.
In a tree over the dataset every combination does. -/
theorem truth_of_grown (plain : e.asksBound = false) :
    (∀ row row', Expr.Widens row row' → ∀ b, e.truth row = some b → e.truth row' = some b) ∧
    (∀ (d : Dataset) (row context context' : Binding), context'.Extends context →
      e.isSatisfied (view d row context) = true → e.isSatisfied (view d row context') = true) ∧
    (∀ (d : Dataset) (row context : Binding) (picks : List (Option Binding)),
      e.isSatisfied (view d row ∅) = true →
      e.isSatisfied (view d (merge row picks) context) = true) ∧
    (∀ (d : Dataset) (row context : Binding) (picks : List (Option Binding)),
      (merge row picks).Agrees context → e.isSatisfied (view d row context) = true →
      e.isSatisfied (view d (merge row picks) context) = true) ∧
    (∀ (d : Dataset) (n : Node) (context own : Binding) (picks : List (Option Binding)),
      d.Reachable → n.Indexed → own ∈ n.scan.assignments d context →
      picks ∈ Wheel.picks (answerColumns d (own.extendAbsent context) n.children) →
      e.isSatisfied (view d own context) = true →
      e.isSatisfied (view d (merge own picks) context) = true) := by
  have merged {d : Dataset} {row context : Binding} {picks : List (Option Binding)}
      (agrees : (merge row picks).Agrees context) (satisfied : e.isSatisfied (view d row context)) :
      e.isSatisfied (view d (merge row picks) context) = true :=
    Expr.isSatisfied_of_widens plain
      (widens_view ((extends_merge row picks).extendAbsent agrees (.refl context))) satisfied
  refine ⟨fun _ _ => Expr.truth_of_widens plain, ?_, ?_, fun _ _ _ _ => merged, ?_⟩
  · intro d row context context' above
    exact Expr.isSatisfied_of_widens plain (widens_view (extends_fallback row above))
  · intro d row context picks
    refine Expr.isSatisfied_of_widens plain (widens_view ?_)
    exact (extends_merge row picks).extendAbsent (fun _ _ _ _ none => nomatch none)
      fun _ _ none => nomatch none
  · intro d n context own picks reachable indexed first combination
    exact merged (indexed.merge_spec reachable.valid first combination).2

/-- The object of the second statement is looked for as a subject and found, so that `?x` gets a
value; the filter holds already because of the other side of its disjunction. -/
theorem truth_of_grown_disjunction :
    let d := (Dataset.empty.addAll [⟨.iri "a", .iri "p", .iri "b", none⟩,
      ⟨.iri "b", .iri "q", .integer 7, none⟩]).2
    let n := (ofScan (.index { pattern :=
        ⟨[.triple (.var ⟨"s"⟩) (.term (.iri "p")) (.var ⟨"o"⟩)]⟩ }) 1).addChild
      (ofScan (.index { pattern :=
        ⟨[.triple (.var ⟨"o"⟩) (.term (.iri "q")) (.var ⟨"x"⟩)]⟩ }) 1)
    let e : Expr := .or (.compare .gt (.var ⟨"x"⟩) (.const (.integer 9)))
      (.compare .ne (.var ⟨"s"⟩) (.var ⟨"o"⟩))
    let own := Binding.ofRow [⟨"s"⟩, ⟨"o"⟩] [1, 3]
    let row := Binding.ofRow [⟨"o"⟩, ⟨"x"⟩] [3, 5]
    [some row] ∈ Wheel.picks (answerColumns d (own.extendAbsent ∅) n.children) ∧
      e.isSatisfied (view d own ∅) = true ∧
      e.isSatisfied (view d (merge own [some row]) ∅) = true ∧
      view d own ∅ ⟨"x"⟩ = none ∧ view d (merge own [some row]) ∅ ⟨"x"⟩ = some (.integer 7) := by
  intro d n e own row
  have indexed : n.Indexed :=
    .intro rfl (List.forall_mem_singleton.2 (.intro rfl (List.forall_mem_nil _)))
  have combination : [some row] ∈ Wheel.picks (answerColumns d (own.extendAbsent ∅) n.children) := by
    decide +kernel
  have satisfied : e.isSatisfied (view d own ∅) = true := by decide +kernel
  obtain ⟨_, _, _, _, tree⟩ := truth_of_grown (show e.asksBound = false by decide)
  exact ⟨combination, satisfied, tree d n ∅ own [some row] (.addAll .empty _) indexed
    (by decide +kernel) combination satisfied, by decide +kernel, by decide +kernel⟩

/-! ## Filters that the own row decides -/

/-- The rows that a settled scan of the dataset makes are as long as its attributes. -/
theorem length_of_mem_rowsFor {s : IndexScan} {key : List (Option TermId)} {ids : Row}
    (member : ids ∈ s.rowsFor d key) : ids.length = s.attributes.length := by
  unfold IndexScan.rowsFor at member
  split at member
  · cases member
  · obtain ⟨env, _, values⟩ := List.mem_filterMap.1 (Row.mem_sorted.1 member)
    exact (mapM_eq_some_iff.1 values).length_eq.symm

/-- An own row over the dataset binds the variables of every filter that it decides. -/
theorem isSome_get?_own {kind : Scan → Prop} (made : n.MadeOf kind) {s : IndexScan}
    (scan : n.scan = .index s) (filed : e ∈ n.preFilters) {incoming : AttributeOrder}
    {place : Binding} {ids : Row}
    (member : ids ∈ (n.init d incoming).2.scan.rowsAt d place) :
    ∀ v ∈ e.vars, ((Binding.ofRow (n.init d incoming).2.attributes ids).get? v).isSome = true := by
  intro v mentioned
  have inPattern : v ∈ s.pattern.vars := by
    have has := made.hasVariable e filed v mentioned
    rw [scan] at has
    exact BasicPattern.mentions_iff.1 has
  rw [init_eq, scan] at member ⊢
  refine (Binding.isSome_get?_ofRow (length_of_mem_rowsFor member)).2 ?_
  exact ((IndexScan.initialized_init s d incoming).mem_attributes v).2 inPattern

/-- A filter whose variables a row binds has the same outcome on everything that extends the row. -/
theorem truth_combined (bound : ∀ v ∈ e.vars, (own.get? v).isSome = true)
    (ws : List (Window Node)) (context : Binding) :
    e.truth (view d (combined own ws) context) = e.truth (view d own ∅) := by
  refine Expr.truth_congr fun v mentioned => ?_
  obtain ⟨id, known⟩ := Option.isSome_iff_exists.1 (bound v mentioned)
  rw [combined_eq]
  simp only [view, known, get?_merge own _ known, Option.some_or]

/-- The outcome of an expression depends on its variables alone, whether these have terms or not. So
where a node scans the dataset, a filter that was filed with those that the own row decides is true,
false or undecided of an own row exactly as it is of the own row with any rows of children, whatever
the context. -/
theorem truth_of_preFilter :
    (∀ (e : Expr) (row row' : Variable → Option Term), (∀ v ∈ e.vars, row v = row' v) →
      e.truth row = e.truth row') ∧
    (∀ (kind : Scan → Prop) (n : Node) (s : IndexScan) (e : Expr), n.MadeOf kind →
      n.scan = .index s → e ∈ n.preFilters →
      ∀ (d : Dataset) (incoming : AttributeOrder) (place : Binding),
        let m := (n.init d incoming).2
        ∀ ids ∈ m.scan.rowsAt d place, ∀ (ws : List (Window Node)) (context : Binding),
          let own := Binding.ofRow m.attributes ids
          e.truth (view d (combined own ws) context) = e.truth (view d own ∅)) := by
  refine ⟨fun e row row' same => Expr.truth_congr same, ?_⟩
  intro _ _ s e made scan filed d incoming place m ids member ws context own
  exact truth_combined (isSome_get?_own made scan filed member) ws context

/-- A filter on the object is filed with those that the own row decides. It comes out the same with
a row of a child and in a context that both have another object. -/
theorem truth_of_preFilter_object :
    let d := (Dataset.empty.addAll [⟨.iri "a", .iri "p", .integer 7, none⟩]).2
    let e : Expr := .compare .gt (.var ⟨"o"⟩) (.const (.integer 3))
    let n := (ofScan (.index { pattern :=
      ⟨[.triple (.var ⟨"s"⟩) (.term (.iri "p")) (.var ⟨"o"⟩)]⟩ }) 1).addFilter e
    let own := Binding.ofRow [⟨"s"⟩, ⟨"o"⟩] [1, 3]
    let other := Binding.ofRow [⟨"o"⟩, ⟨"x"⟩] [1, 2]
    let w : Window Node := { node := n, entries := [other] }
    e ∈ n.preFilters ∧
      e.truth (view d (combined own [w]) other) = e.truth (view d own ∅) ∧
      e.truth (view d own ∅) = some true := by
  intro d e n own other w
  have made : n.MadeOf fun _ => True := .addFilter (.ofScan trivial 1) e
  have filed : e ∈ n.preFilters := List.mem_singleton.2 rfl
  have drawn : [1, 3] ∈ (n.init d ∅).2.scan.rowsAt d ∅ := by decide +kernel
  exact ⟨filed, truth_of_preFilter.2 _ n _ e made rfl filed d ∅ ∅ [1, 3] drawn [w] other,
    by decide +kernel⟩

end Node

end QuadQuery
