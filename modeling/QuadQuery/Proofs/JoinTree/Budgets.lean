import QuadQuery.JoinTree.Advance
import Mathlib.Order.Basic

/-!
# Larger budgets

A budget only says when to give up: if a node comes to anything else than running out of steps, then
it comes to the same with every larger budget (`Node.advanceWithin_extends`). So the outcome of
advancing a node is that of a loop without any bound.
-/

namespace QuadQuery

/-- Where the first way to advance nodes does not run out of steps, the second comes to the same. -/
def Advance.Extends (advance advance' : Advance) : Prop :=
  ∀ n : Node, (advance n).1 ≠ .error .outOfSteps → advance' n = advance n

variable {advance advance' : Advance}

/-! ## Windows -/

namespace Window

theorem draw_extends (extends' : advance.Extends advance') (count : Nat) (node : Node)
    (enough : (draw advance count node).1 ≠ .error .outOfSteps) :
    draw advance' count node = draw advance count node := by
  induction count generalizing node with
  | zero => rfl
  | succ count ih =>
    have same := extends' node
    unfold draw at enough ⊢
    rcases advanced : advance node with ⟨failure | _ | _, next⟩ <;>
      simp only [advanced] at same enough ⊢
    · rw [same (by simpa using enough)]
    · rw [same (by simp)]
    · rw [same (by simp)]
      rcases taken : next.take with ⟨failure | row, left⟩ <;> simp only [taken] at enough ⊢
      rw [ih left enough]

theorem fill_extends (extends' : advance.Extends advance') (capacity : Nat) (w : Window Node)
    (enough : (w.fill advance capacity).1 ≠ .error .outOfSteps) :
    w.fill advance' capacity = w.fill advance capacity := by
  have drawn := draw_extends extends' capacity w.node
  unfold fill at enough ⊢
  rcases rows : draw advance capacity w.node with ⟨failure | _, entries, node⟩ <;>
    simp only [rows] at drawn enough ⊢
  · rw [drawn enough]
  · rw [drawn (by simp)]
    have same := extends' node
    split at enough
    · next full =>
      simp only [if_pos full]
      rcases advanced : advance node with ⟨failure | more, next⟩ <;>
        simp only [advanced] at same enough ⊢
      · rw [same (by simpa using enough)]
      · rw [same (by simp)]
    · next short => simp only [if_neg short]

theorem load_extends (extends' : advance.Extends advance') (env : Env) (context : Binding)
    (firstChanged capacity : Nat) (w : Window Node)
    (enough : (w.load env advance context firstChanged capacity).1 ≠ .error .outOfSteps) :
    w.load env advance' context firstChanged capacity
      = w.load env advance context firstChanged capacity := by
  unfold load at enough ⊢
  rcases sought : w.node.seek env context firstChanged with ⟨failure | _ | _, node⟩ <;>
    simp only [sought] at enough ⊢
  exact fill_extends extends' capacity _ enough

theorem refill_extends (extends' : advance.Extends advance') (capacity : Nat) (w : Window Node)
    (enough : (w.refill advance capacity).1 ≠ .error .outOfSteps) :
    w.refill advance' capacity = w.refill advance capacity := by
  have filled := fill_extends extends' capacity w
  unfold refill at enough ⊢
  split at enough
  · next none => simp only [if_pos none]
  · next more =>
    simp only [if_neg more]
    rcases rows : w.fill advance capacity with ⟨failure | _, next⟩ <;>
      simp only [rows] at filled enough ⊢
    · rw [filled (by simpa using enough)]
    · rw [filled (by simp)]

theorem rewind_extends (extends' : advance.Extends advance') (capacity : Nat) (w : Window Node)
    (enough : (w.rewind advance capacity).1 ≠ .error .outOfSteps) :
    w.rewind advance' capacity = w.rewind advance capacity := by
  unfold rewind at enough ⊢
  split at enough
  · next first => simp only [if_pos first]
  · next later =>
    simp only [if_neg later]
    exact fill_extends extends' capacity _ enough

theorem loadAll_extends (extends' : advance.Extends advance') (env : Env) (context : Binding)
    (firstChanged capacity : Nat) (ws : List (Window Node))
    (enough : (loadAll env advance context firstChanged capacity ws).1 ≠ .error .outOfSteps) :
    loadAll env advance' context firstChanged capacity ws
      = loadAll env advance context firstChanged capacity ws := by
  induction ws with
  | nil => rfl
  | cons w rest ih =>
    have first := load_extends extends' env context firstChanged capacity w
    unfold loadAll at enough ⊢
    rcases loaded : w.load env advance context firstChanged capacity with ⟨failure | _, next⟩ <;>
      simp only [loaded] at first enough ⊢
    · rw [first enough]
    · rw [first (by simp), ih enough]

theorem rewindAll_extends (extends' : advance.Extends advance') (capacity : Nat)
    (ws : List (Window Node))
    (enough : (rewindAll advance capacity ws).1 ≠ .error .outOfSteps) :
    rewindAll advance' capacity ws = rewindAll advance capacity ws := by
  induction ws with
  | nil => rfl
  | cons w rest ih =>
    have first := rewind_extends extends' capacity w
    unfold rewindAll at enough ⊢
    split at enough
    · next empty =>
      simp only [if_pos empty]
      rw [ih enough]
    · next some =>
      simp only [if_neg some]
      rcases rewound : w.rewind advance capacity with ⟨failure | _, next⟩ <;>
        simp only [rewound] at first enough ⊢
      · rw [first enough]
      · rw [first (by simp), ih enough]

theorem moveFirst_extends (extends' : advance.Extends advance') (capacity : Nat)
    (ws : List (Window Node))
    (enough : (moveFirst advance capacity ws).moved ≠ .error .outOfSteps) :
    moveFirst advance' capacity ws = moveFirst advance capacity ws := by
  induction ws with
  | nil => rfl
  | cons w rest ih =>
    have first := refill_extends extends' capacity w
    unfold moveFirst at enough ⊢
    dsimp only at enough ⊢
    split at enough
    · next empty =>
      simp only [if_pos empty]
      rw [ih enough]
    · next some =>
      simp only [if_neg some]
      rcases stepped : w.step? with _ | next <;> simp only [stepped] at enough ⊢
      rcases refilled : w.refill advance capacity with ⟨failure | _ | _, next⟩ <;>
        simp only [refilled] at first enough ⊢
      · rw [first (by simpa using enough)]
      · rw [first (by simp)]
        simp only [ih enough]
      · rw [first (by simp)]

end Window

/-! ## The loop -/

namespace Node

theorem nextCombination_extends (extends' : advance.Extends advance') (n : Node)
    (enough : (n.nextCombination advance).1 ≠ .error .outOfSteps) :
    n.nextCombination advance' = n.nextCombination advance := by
  have turned := Window.moveFirst_extends extends' n.capacity n.children
  have rewound := Window.rewindAll_extends extends' n.capacity
    (Window.moveFirst advance n.capacity n.children).lower
  unfold nextCombination at enough ⊢
  rcases moved : (Window.moveFirst advance n.capacity n.children).moved with failure | _ | _ <;>
    simp only [moved] at turned enough ⊢
  · rw [turned (by simpa using enough)]
    simp only [moved]
  · rw [turned (by simp)]
    simp only [moved]
  · rw [turned (by simp)]
    simp only [moved]
    rcases again : Window.rewindAll advance n.capacity
        (Window.moveFirst advance n.capacity n.children).lower with ⟨failure | _, lower⟩ <;>
      simp only [again] at rewound enough ⊢
    · rw [rewound (by simpa using enough)]
    · rw [rewound (by simp)]

theorem find_extends (extends' : advance.Extends advance') (env : Env) (n : Node)
    (enough : (n.find env advance).1 ≠ .error .outOfSteps) :
    n.find env advance' = n.find env advance := by
  unfold find at enough ⊢
  rcases drawn : n.scan.next? env.cancelled with _ | ⟨ids, scan⟩ <;> simp only [drawn] at enough ⊢
  generalize Node.checkPre _ _ _ = checked at enough ⊢
  obtain ⟨_ | _, n'⟩ := checked <;> dsimp only at enough ⊢
  generalize (Binding.ofRow n.attributes ids).extendAbsent n'.context = context at enough ⊢
  generalize n'.scan.order.firstChanged n'.childContext context = firstChanged at enough ⊢
  have same := Window.loadAll_extends extends' env context firstChanged n'.capacity n'.children
  rcases loaded : Window.loadAll env advance context firstChanged n'.capacity n'.children with
    ⟨failure | _, children⟩ <;> simp only [loaded] at same enough ⊢
  · rw [same enough]
  · rw [same (by simp)]

theorem extend_extends (extends' : advance.Extends advance') (env : Env) (n : Node)
    (enough : (n.extend env advance).1 ≠ .error .outOfSteps) :
    n.extend env advance' = n.extend env advance := by
  have turned := nextCombination_extends extends' n
  unfold extend at enough ⊢
  rcases next : n.nextCombination advance with ⟨failure | _ | _, n'⟩ <;>
    simp only [next] at turned enough ⊢
  · rw [turned (by simpa using enough)]
  · rw [turned (by simp)]
  · rw [turned (by simp)]

/-- With a larger budget a node comes to the same unless the smaller one was too small. -/
theorem advanceWithin_extends (env : Env) {budget budget' : Nat} (more : budget ≤ budget') :
    Advance.Extends (advanceWithin env budget) (advanceWithin env budget') := by
  induction budget generalizing budget' with
  | zero => exact fun n enough => absurd rfl enough
  | succ budget ih =>
    obtain _ | budget' := budget'
    · cases more
    · intro n enough
      have larger := ih (Nat.le_of_succ_le_succ more)
      unfold advanceWithin at enough ⊢
      split
      · rfl
      · rfl
      · next phase active =>
        simp only [active] at enough
        cases phase with
        | find =>
          have same := find_extends larger env n
          rcases found : n.find env (advanceWithin env budget) with ⟨failure | _, next⟩ <;>
            simp only [found] at same enough ⊢
          · rw [same (by simpa using enough)]
          · rw [same (by simp)]
            exact larger next enough
        | extend =>
          have same := extend_extends larger env n
          rcases turned : n.extend env (advanceWithin env budget) with ⟨failure | _, next⟩ <;>
            simp only [turned] at same enough ⊢
          · rw [same (by simpa using enough)]
          · rw [same (by simp)]
            exact larger next enough

end Node

end QuadQuery
