import QuadQuery.JoinTree.Advance
import QuadQuery.Proofs.Scan.Rows

/-!
# The work of a join tree

The windows of a node are the digits of a number with mixed radix. A window counts the rows it holds
behind the current one and the work ahead of its child; turning the odometer lowers one digit and
may raise those in front of it, but not to their radix (`Node.turns_lt`).
-/

namespace QuadQuery

/-! ## Scans -/

/-- All that seeking can come to: a refusal, no rows ever, the same rows again, or new rows. -/
theorem IndexScan.seek_cases (s : IndexScan) (d : Dataset) (context : Binding)
    (firstChanged : Nat) :
    s.initialized = false ∧ s.seek d context firstChanged = .error (.soughtBeforeInit s.pattern) ∨
    s.openTerms = false ∧ s.seek d context firstChanged = .ok (false, s) ∨
    s.seek d context firstChanged = .ok s.reset ∨
    s.initialized = true ∧ s.seek d context firstChanged =
      .ok (!(s.derive d (s.keyFor context)).rows.isEmpty, s.derive d (s.keyFor context)) := by
  unfold seek
  by_cases ready : s.initialized = true
  · by_cases possible : s.openTerms = true
    · simp only [ready, possible, Bool.not_true, Bool.false_eq_true, if_false]
      split
      · exact .inr (.inr (.inl rfl))
      · split
        · exact .inr (.inr (.inl rfl))
        · exact .inr (.inr (.inr ⟨trivial, rfl⟩))
    · exact .inr (.inl ⟨by simpa using possible, by simp [ready, possible]⟩)
  · exact .inl ⟨by simpa using ready, by simp [ready]⟩

namespace Scan

/-- No context has more rows than the limit of the scan says. -/
def Bounded (d : Dataset) : Scan → Prop
  | .index s => s.initialized = true → ∀ key, (s.rowsFor d key).length ≤ d.size ^ s.pattern.size
  | .fixed _ => True

variable {d : Dataset} {s s' : Scan}

theorem bounded_index (valid : d.Valid) {s : IndexScan} (init : s.Initialized d) :
    (Scan.index s).Bounded d :=
  fun _ key => IndexScan.length_rowsFor_le valid init key

theorem seek_bounds (bounded : s.Bounded d) {context : Binding} {firstChanged : Nat}
    {result : Except Failure Bool} (moved : s.seek d context firstChanged = (result, s')) :
    s'.Bounded d ∧ s'.limit d ≤ s.limit d ∧ result ≠ .error .outOfSteps ∧
      (result = .ok true → s'.left ≤ s.limit d) := by
  cases s with
  | fixed s =>
    simp only [Scan.seek, FixedScan.seek] at moved
    split at moved <;> (cases moved; exact ⟨trivial, Nat.le_refl _, by simp [Except.mapError],
      fun _ => Nat.le_refl _⟩)
  | index s =>
    simp only [Scan.seek] at moved
    rcases s.seek_cases d context firstChanged with ⟨_, same⟩ | ⟨_, same⟩ | same | ⟨ready, same⟩ <;>
      (rw [same] at moved; cases moved)
    · exact ⟨bounded, Nat.le_refl _, by simp, by simp⟩
    · exact ⟨bounded, Nat.le_refl _, by simp, by simp⟩
    · exact ⟨bounded, Nat.le_refl _, by simp, fun _ => Nat.le_max_right ..⟩
    · have made := bounded ready (s.inheritedAttributes.map context.get?)
      exact ⟨bounded, max_le (Nat.le_max_left ..) (made.trans (Nat.le_max_left ..)),
        by simp, fun _ => made.trans (Nat.le_max_left ..)⟩

theorem reset_bounds (bounded : s.Bounded d) :
    s.reset.2.Bounded d ∧ s.reset.2.limit d = s.limit d ∧ s.reset.2.left ≤ s.limit d := by
  cases s with
  | fixed s => exact ⟨trivial, rfl, Nat.le_refl _⟩
  | index s => exact ⟨bounded, rfl, Nat.le_max_right ..⟩

theorem next?_bounds (bounded : s.Bounded d) {cancelled : Bool} {ids : Row}
    (drawn : s.next? cancelled = some (ids, s')) :
    s'.Bounded d ∧ s'.limit d = s.limit d ∧ s'.left + 1 = s.left := by
  cases s with
  | fixed s =>
    simp only [Scan.next?, FixedScan.next?, Option.map_eq_some_iff] at drawn
    obtain ⟨e, drawn, same⟩ := drawn
    split at drawn
    · cases drawn
    · next rest =>
      cases drawn
      cases same
      exact ⟨trivial, rfl, by simp [left, rest]⟩
  | index s =>
    simp only [Scan.next?, IndexScan.next?, Option.map_eq_some_iff] at drawn
    obtain ⟨e, drawn, same⟩ := drawn
    split at drawn
    · cases drawn
    · split at drawn
      · cases drawn
      · next rest =>
        cases drawn
        cases same
        exact ⟨bounded, rfl, by simp [left, rest]⟩

end Scan

namespace Node

variable {d : Dataset} {n n' : Node}

/-- The scans of the tree keep to their limits. -/
inductive Bounded (d : Dataset) : Node → Prop
  | intro {n : Node} (own : n.scan.Bounded d) (others : ∀ w ∈ n.children, Bounded d w.node) :
      Bounded d n

theorem Bounded.scan (h : n.Bounded d) : n.scan.Bounded d := by
  cases h; assumption

theorem Bounded.children (h : n.Bounded d) : ∀ w ∈ n.children, w.node.Bounded d := by
  cases h; assumption

/-! ## Digits -/

/-- The work ahead of the windows of a node. -/
def odometer (d : Dataset) (n : Node) : OdometerWork :=
  odometerWork d n.children

theorem work_eq (d : Dataset) (n : Node) : n.work d = workOf d n.scan n.state (n.odometer d) := by
  cases n; rfl

/-- What can stand in a window over all turns, and one more. -/
def radix (d : Dataset) (w : Window Node) : Nat :=
  max (w.node.work d).ceiling (w.entries.length + (w.node.work d).ahead) + 1

/-- The rows that a window still has to show, counted generously. -/
def digit (d : Dataset) (w : Window Node) : Nat :=
  w.entries.length - 1 - w.cursor + (w.node.work d).ahead

theorem odometerWork_cons (d : Dataset) (w : Window Node) (rest : List (Window Node)) :
    odometerWork d (w :: rest) =
      ⟨radix d w * (odometerWork d rest).combinations,
        radix d w * (odometerWork d rest).turns + digit d w,
        w.node.budget d + (odometerWork d rest).budget⟩ := by
  cases w with
  | mk node entries cursor more chunk =>
    simp only [odometerWork, radix, digit, budget, Nat.add_assoc]

theorem digit_lt_radix (d : Dataset) (w : Window Node) : digit d w < radix d w := by
  unfold digit radix
  omega

theorem turns_lt_combinations (d : Dataset) (ws : List (Window Node)) :
    (odometerWork d ws).turns < (odometerWork d ws).combinations := by
  induction ws with
  | nil => exact Nat.one_pos
  | cons w rest ih =>
    simp only [odometerWork_cons]
    calc radix d w * (odometerWork d rest).turns + digit d w
        < radix d w * (odometerWork d rest).turns + radix d w :=
          Nat.add_lt_add_left (digit_lt_radix d w) _
      _ = radix d w * ((odometerWork d rest).turns + 1) := (Nat.mul_succ ..).symm
      _ ≤ radix d w * (odometerWork d rest).combinations := Nat.mul_le_mul_left _ ih

theorem budget_le_odometer {w : Window Node} {ws : List (Window Node)} (member : w ∈ ws) :
    w.node.budget d ≤ (odometerWork d ws).budget := by
  induction ws with
  | nil => cases member
  | cons first rest ih =>
    simp only [odometerWork_cons]
    rcases List.mem_cons.1 member with rfl | member
    · exact Nat.le_add_right ..
    · exact (ih member).trans (Nat.le_add_left ..)

/-! ## Less work -/

/-- The node that came out of a step makes no more work than the one before. -/
structure NoMore (d : Dataset) (n n' : Node) : Prop where
  bounded : n'.Bounded d
  ceiling : (n'.work d).ceiling ≤ (n.work d).ceiling
  budget : n'.budget d ≤ n.budget d

theorem NoMore.refl (bounded : n.Bounded d) : NoMore d n n :=
  ⟨bounded, Nat.le_refl _, Nat.le_refl _⟩

theorem NoMore.trans {n'' : Node} (h : NoMore d n n') (h' : NoMore d n' n'') : NoMore d n n'' :=
  ⟨h'.bounded, h'.ceiling.trans h.ceiling, h'.budget.trans h.budget⟩

end Node

/-- The window that came out of a step makes no more work, and its radix has not grown. -/
structure Window.NoMore (d : Dataset) (w w' : Window Node) : Prop where
  node : Node.NoMore d w.node w'.node
  radix : Node.radix d w' ≤ Node.radix d w

/-! ## Windows -/

namespace Node

variable {d : Dataset} {n n' : Node} {ws ws' : List (Window Node)}

theorem combinations_mono (h : ws.Forall₂ (Window.NoMore d) ws') :
    (odometerWork d ws').combinations ≤ (odometerWork d ws).combinations := by
  induction h with
  | nil => exact Nat.le_refl _
  | cons first _ ih =>
    simp only [odometerWork_cons]
    exact Nat.mul_le_mul first.radix ih

theorem odometer_budget_mono (h : ws.Forall₂ (Window.NoMore d) ws') :
    (odometerWork d ws').budget ≤ (odometerWork d ws).budget := by
  induction h with
  | nil => exact Nat.le_refl _
  | cons first _ ih =>
    simp only [odometerWork_cons]
    exact Nat.add_le_add first.node.budget ih

/-- Lowering one digit lowers the number, whatever the digits in front of it become. -/
theorem turns_lt {lower lower' rest : List (Window Node)} {w w' : Window Node}
    (less : lower.Forall₂ (Window.NoMore d) lower') (radixes : radix d w' ≤ radix d w)
    (digits : digit d w' < digit d w) :
    (odometerWork d (lower' ++ w' :: rest)).turns < (odometerWork d (lower ++ w :: rest)).turns := by
  induction less with
  | nil =>
    simp only [List.nil_append, odometerWork_cons]
    exact Nat.add_lt_add_of_le_of_lt (Nat.mul_le_mul_right _ radixes) digits
  | @cons v v' lower lower' first _ ih =>
    simp only [List.cons_append, odometerWork_cons]
    calc radix d v' * (odometerWork d (lower' ++ w' :: rest)).turns + digit d v'
        < radix d v' * (odometerWork d (lower' ++ w' :: rest)).turns + radix d v' :=
          Nat.add_lt_add_left (digit_lt_radix d v') _
      _ = radix d v' * ((odometerWork d (lower' ++ w' :: rest)).turns + 1) := (Nat.mul_succ ..).symm
      _ ≤ radix d v * (odometerWork d (lower ++ w :: rest)).turns := Nat.mul_le_mul first.radix ih
      _ ≤ _ := Nat.le_add_right ..

end Node

end QuadQuery
