import QuadQuery.Proofs.JoinTree.Following
import QuadQuery.Proofs.JoinTree.Moving

/-!
# What nodes remember of their children

A parent knows how much of the order of variables has not changed since its children were moved before
from the context that it remembers. Throughout a tree this is the context that all of the children were
last moved to (`Node.Tracked`), and every move is honest as long as it is (`Move.Honest`). Here is what
the steps of one node and the turns of its windows make of it. Each is told together with its moves:
`Node.Led` goes from node to node, `Window.Carried` and `Window.AllCarried` from windows to windows.
-/

namespace QuadQuery

theorem Binding.within_ofRow (vars : List Variable) (ids : List TermId) :
    (ofRow vars ids).Within vars := fun v bound => by
  unfold ofRow at bound
  rw [get?_foldl_insert, get?_empty, Option.or_none, Option.isSome_map, List.find?_isSome] at bound
  obtain ⟨⟨w, id⟩, member, same⟩ := bound
  obtain rfl : w = v := by simpa using same
  exact (List.of_mem_zip (List.mem_reverse.1 member)).1

/-! ## Places in the order -/

theorem AttributeOrder.position?_of_isPrefix {order longer : AttributeOrder}
    (more : order.vars <+: longer.vars) {v : Variable} {p : Nat} (here : order.position? v = some p) :
    longer.position? v = some p := by
  obtain ⟨rest, same⟩ := more
  unfold position? at here ⊢
  rw [List.idxOf?] at here ⊢
  rw [← same, List.findIdx?_append, here]
  rfl

/-- What a shorter order has lies before its end in every longer one. -/
theorem AttributeOrder.lt_size_of_mem {order longer : AttributeOrder}
    (more : order.vars <+: longer.vars) {v : Variable} {p : Nat} (known : v ∈ order.vars)
    (here : longer.position? v = some p) : p < order.size := by
  obtain ⟨q, place⟩ := Option.isSome_iff_exists.1 (isSome_position?.2 known)
  cases here.symm.trans (position?_of_isPrefix more place)
  exact (List.getElem?_eq_some_iff.1 (getElem?_of_position? place)).1

namespace Scan

/-- The variables of a scan that are bound further up, with their places in the shared order. A scan of
given rows does not tell which of its variables these are, so all of them are listed. -/
def inherited : Scan → List (Variable × Nat)
  | .index s => s.attributes.zip s.inherited
  | .fixed s => s.vars.filterMap fun v => (s.order.position? v).map (v, ·)

variable {s s' : Scan} {d : Dataset} {v : Variable} {p : Nat}

theorem inherited_of_blank (same : s'.blank = s.blank) : s'.inherited = s.inherited := by
  have blank : ∀ s : Scan, s.blank.inherited = s.inherited := fun s => by cases s <;> rfl
  rw [← blank s', same, blank]

theorem blank_seek (s : Scan) (d : Dataset) (context : Binding) (firstChanged : Nat) :
    (s.seek d context firstChanged).2.blank = s.blank := by
  cases s with
  | fixed s =>
    simp only [Scan.seek, FixedScan.seek]
    split <;> rfl
  | index s =>
    have sought : ∀ found s', s.seek d context firstChanged = .ok (found, s') →
        (Scan.index s').blank = (Scan.index s).blank := by
      intro found s' sought
      unfold IndexScan.seek at sought
      dsimp only at sought
      repeat' split at sought
      all_goals cases sought
      all_goals rfl
    unfold Scan.seek
    dsimp only
    split
    · next same => exact sought _ _ same
    · rfl

theorem blank_open (s : Scan) (d : Dataset) : (s.open d).2.blank = s.blank := by
  cases s with
  | fixed s =>
    simp only [Scan.open, FixedScan.open]
    split <;> rfl
  | index s =>
    simp only [Scan.open, IndexScan.open]
    split
    · next opened =>
      split at opened <;> cases opened
      rfl
    · rfl

theorem blank_of_next? {cancelled : Bool} {ids : Row}
    (drawn : s.next? cancelled = some (ids, s')) : s'.blank = s.blank := by
  cases s with
  | fixed s =>
    obtain ⟨⟨_, s'⟩, row, same⟩ := Option.map_eq_some_iff.1 drawn
    cases same
    unfold FixedScan.next? at row
    split at row <;> cases row
    rfl
  | index s =>
    obtain ⟨⟨_, s'⟩, row, same⟩ := Option.map_eq_some_iff.1 drawn
    cases same
    unfold IndexScan.next? at row
    split at row
    · cases row
    · split at row <;> cases row
      rfl

theorem attributes_subset_order_init (s : Scan) (d : Dataset) (incoming : AttributeOrder) :
    (s.init d incoming).2.attributes ⊆ (s.init d incoming).1.vars := by
  intro v member
  cases s with
  | index s => exact (IndexScan.initialized_init s d incoming).mem_order v member
  | fixed s => exact AttributeOrder.mem_extend.2 (.inr member)

/-- What a scan inherits has this place in the order that it returns, and so in every longer one. -/
theorem position?_of_mem_inherited {incoming : AttributeOrder}
    (member : (v, p) ∈ (s.init d incoming).2.inherited) :
    (s.init d incoming).1.position? v = some p := by
  cases s with
  | fixed s =>
    obtain ⟨w, _, place⟩ := List.mem_filterMap.1 member
    obtain ⟨q, place, same⟩ := Option.map_eq_some_iff.1 place
    cases same
    exact place
  | index s =>
    obtain ⟨i, here⟩ := List.mem_iff_getElem?.1 member
    obtain ⟨named, place⟩ := List.getElem?_zip_eq_some.1 here
    refine AttributeOrder.position?_of_isPrefix (IndexScan.isPrefix_order_init s d incoming) ?_
    change ((IndexScan.inheritedVars s.pattern incoming).map (·.2))[i]? = some p at place
    rw [List.getElem?_map, Option.map_eq_some_iff] at place
    obtain ⟨e, found, rfl⟩ := place
    have front : ((IndexScan.inheritedVars s.pattern incoming).map (·.1))[i]? = some e.1 := by
      rw [List.getElem?_map, found]
      rfl
    cases named.symm.trans (getElem?_of_isPrefix (List.prefix_append _ _) front)
    exact (IndexScan.mem_inheritedVars.1 (List.mem_of_getElem? found)).2

end Scan

/-! ## Honest moves -/

/-- A move is honest about where the child was moved last. -/
structure Move.Honest (shared : AttributeOrder) (last : Option Binding) (m : Move) : Prop where
  /-- Both contexts agree on all variables of the order before the hint. -/
  unchanged : ∀ old, last = some old → shared.Unchanged old m.context m.firstChanged
  /-- What the child inherits from behind the order of the parent is bound in neither. -/
  unbound : ∀ v p, (v, p) ∈ m.child.scan.inherited → m.parent.scan.order.size ≤ p →
    m.context.get? v = none ∧ ∀ old, last = some old → old.get? v = none
  /-- The child is still there, unless it never matches and so is never moved. -/
  here : m.child.context = last.getD ∅ ∨ m.child.neverMatches = true

/-- All moves of a list are honest, one after the other. -/
def AllHonest (shared : AttributeOrder) : Whereabouts → List Move → Prop
  | _, [] => True
  | places, m :: rest => m.Honest shared (places m.path) ∧ AllHonest shared (places.record m) rest

section Honest

variable {shared : AttributeOrder} {places : Whereabouts} {log later : List Move} {i : Nat}

theorem allHonest_append :
    AllHonest shared places (log ++ later)
      ↔ AllHonest shared places log ∧ AllHonest shared (places.after log) later := by
  induction log generalizing places with
  | nil => exact ⟨fun h => ⟨trivial, h⟩, And.right⟩
  | cons m rest ih => rw [List.cons_append, AllHonest, AllHonest, ih, and_assoc]; rfl

theorem allHonest_map_below :
    AllHonest shared places (log.map (.below i)) ↔ AllHonest shared (places.below i) log := by
  induction log generalizing places with
  | nil => exact .rfl
  | cons m rest ih =>
    have same : (m.below i).Honest shared (places (i :: m.path))
        ↔ m.Honest shared (places (i :: m.path)) :=
      ⟨fun ⟨a, b, c⟩ => ⟨a, b, c⟩, fun ⟨a, b, c⟩ => ⟨a, b, c⟩⟩
    rw [List.map_cons, AllHonest, AllHonest, ih, Whereabouts.below_record_below]
    exact and_congr_left' same

end Honest

/-! ## What nodes remember -/

/-- A child is at the context that it was last moved to, and that has no variable which the order of the
parent lacks. -/
structure Node.Placed (order : AttributeOrder) (last : Option Binding) (child : Node) : Prop where
  longer : order.vars ⊆ child.scan.order.vars
  within : ∀ old, last = some old → old.Within order.vars
  here : child.context = last.getD ∅ ∨ child.neverMatches = true

namespace Node

variable {shared order : AttributeOrder} {places places' : Whereabouts} {log later : List Move}
  {n n' n'' : Node} {w : Window Node} {ws : List (Window Node)} {env : Env} {advance : Advance}
  {moves : Node → List Move} {i : Nat} {context : Binding} {firstChanged : Nat}

/-- Throughout a tree, the context that a node remembers is the one that all of its children were last
moved to. -/
inductive Tracked (shared : AttributeOrder) : Whereabouts → Node → Prop
  | intro {places : Whereabouts} {n : Node} (attributes : n.attributes ⊆ n.scan.order.vars)
      (within : n.context.Within n.scan.order.vars) (longer : n.scan.order.vars <+: shared.vars)
      (inherited : ∀ v p, (v, p) ∈ n.scan.inherited → shared.position? v = some p)
      (remembers : ∀ context, n.childContext = some context →
        ∀ i < n.children.length, places [i] = some context)
      (placed : ∀ c ∈ n.children.zipIdx, c.1.node.Placed n.scan.order (places [c.2]))
      (others : ∀ c ∈ n.children.zipIdx, Tracked shared (places.below c.2) c.1.node) :
      Tracked shared places n

/-- The same of the children in some windows, of which the first has the number `i`. -/
def AllTracked (shared order : AttributeOrder) (places : Whereabouts) (i : Nat)
    (ws : List (Window Node)) : Prop :=
  ∀ c ∈ ws.zipIdx i, c.1.node.Placed order (places [c.2]) ∧ c.1.node.Tracked shared (places.below c.2)

theorem allTracked_cons :
    AllTracked shared order places i (w :: ws) ↔
      (w.node.Placed order (places [i]) ∧ w.node.Tracked shared (places.below i)) ∧
        AllTracked shared order places (i + 1) ws := by
  rw [AllTracked, List.zipIdx_cons, List.forall_mem_cons]
  rfl

theorem allTracked_append {later : List (Window Node)} :
    AllTracked shared order places i (ws ++ later) ↔
      AllTracked shared order places i ws ∧ AllTracked shared order places (i + ws.length) later := by
  rw [AllTracked, List.zipIdx_append, List.forall_mem_append]
  rfl

/-- Only the whereabouts of the children themselves and of what is below them matter. -/
theorem AllTracked.congr (h : AllTracked shared order places i ws)
    (same : ∀ j, i ≤ j → j < i + ws.length → places'.below j = places.below j) :
    AllTracked shared order places' i ws := by
  rintro ⟨w, j⟩ member
  obtain ⟨first, last, _⟩ := List.mem_zipIdx member
  have below := same j first last
  have here : places' [j] = places [j] := congrFun below []
  rw [here, below]
  exact h ⟨w, j⟩ member

/-- The others are still tracked after the moves below one child. -/
theorem AllTracked.after_map (all : AllTracked shared order places (i + 1) ws) (log : List Move) :
    AllTracked shared order (places.after (log.map (.below i))) (i + 1) ws :=
  all.congr fun _ behind _ => Whereabouts.below_after_map_of_ne (by omega)

theorem Tracked.children (h : n.Tracked shared places) :
    AllTracked shared n.scan.order places 0 n.children := by
  obtain ⟨_, _, _, _, _, placed, others⟩ := h
  exact fun c member => ⟨placed c member, others c member⟩

theorem Tracked.within (h : n.Tracked shared places) : n.context.Within n.scan.order.vars := by
  cases h; assumption

theorem Tracked.attributes (h : n.Tracked shared places) : n.attributes ⊆ n.scan.order.vars := by
  cases h; assumption

theorem Tracked.longer (h : n.Tracked shared places) : n.scan.order.vars <+: shared.vars := by
  cases h; assumption

theorem Tracked.inherited (h : n.Tracked shared places) :
    ∀ v p, (v, p) ∈ n.scan.inherited → shared.position? v = some p := by
  cases h; assumption

theorem Tracked.remembers (h : n.Tracked shared places) :
    ∀ context, n.childContext = some context →
      ∀ i < n.children.length, places [i] = some context := by
  cases h; assumption

/-- Where the scan stands does not matter, nor where the node itself was moved. -/
theorem Tracked.of_children (h : n.Tracked shared places) (attributes : n'.attributes = n.attributes)
    (blank : n'.scan.blank = n.scan.blank) (within : n'.context.Within n.scan.order.vars)
    (remembers : ∀ context, n'.childContext = some context →
      ∀ i < n'.children.length, places' [i] = some context)
    (all : AllTracked shared n.scan.order places' 0 n'.children) : n'.Tracked shared places' := by
  have order : n'.scan.order = n.scan.order := Scan.order_of_blank blank
  refine .intro ?_ ?_ ?_ ?_ remembers ?_ fun c member => (all c member).2
  · rw [attributes, order]
    exact h.attributes
  · rwa [order]
  · rw [order]
    exact h.longer
  · rw [Scan.inherited_of_blank blank]
    exact h.inherited
  · rw [order]
    exact fun c member => (all c member).1

/-- Nothing but what the node remembers of its children matters. -/
theorem Tracked.of_same (h : n.Tracked shared places) (attributes : n'.attributes = n.attributes)
    (blank : n'.scan.blank = n.scan.blank) (context : n'.context = n.context)
    (children : n'.children = n.children) (remembered : n'.childContext = n.childContext) :
    n'.Tracked shared places :=
  h.of_children attributes blank (context ▸ h.within) (remembered ▸ children ▸ h.remembers)
    (children ▸ h.children)

/-- What a node was moved to itself is known above it. -/
theorem Tracked.of_below (h : n.Tracked shared places) (same : ∀ i, places'.below i = places.below i) :
    n.Tracked shared places' := by
  have here (i : Nat) : places' [i] = places [i] := congrFun (same i) []
  refine h.of_children rfl rfl h.within (fun context remembered i inside => ?_) fun c member => ?_
  · rw [here]
    exact h.remembers context remembered i inside
  · rw [here, same]
    exact h.children c member

/-- Honest moves have led from one node to another in the same place, and it remembers what it should. -/
structure Led (shared : AttributeOrder) (places : Whereabouts) (log : List Move) (n n' : Node) :
    Prop where
  honest : AllHonest shared places log
  above : places.after log [] = places []
  order : n'.scan.order = n.scan.order
  context : n'.context = n.context
  never : n'.neverMatches = n.neverMatches
  tracked : n'.Tracked shared (places.after log)

theorem Led.of_same (h : n.Tracked shared places) (attributes : n'.attributes = n.attributes)
    (blank : n'.scan.blank = n.scan.blank) (context : n'.context = n.context)
    (never : n'.neverMatches = n.neverMatches) (children : n'.children = n.children)
    (remembered : n'.childContext = n.childContext) : Led shared places [] n n' :=
  ⟨trivial, rfl, Scan.order_of_blank blank, context, never,
    h.of_same attributes blank context children remembered⟩

theorem Led.refl (h : n.Tracked shared places) : Led shared places [] n n :=
  .of_same h rfl rfl rfl rfl rfl rfl

theorem Led.trans (h : Led shared places log n n') (h' : Led shared (places.after log) later n' n'') :
    Led shared places (log ++ later) n n'' where
  honest := allHonest_append.2 ⟨h.honest, h'.honest⟩
  above := by rw [Whereabouts.after_append, h'.above, h.above]
  order := h'.order.trans h.order
  context := h'.context.trans h.context
  never := h'.never.trans h.never
  tracked := by rw [Whereabouts.after_append]; exact h'.tracked

/-- A way to advance nodes, with its moves, that is honest as long as it does not fail. -/
def Leads (shared : AttributeOrder) (advance : Advance) (moves : Node → List Move) : Prop :=
  ∀ (places : Whereabouts) (n n' : Node) (found : Bool), n.Tracked shared places →
    advance n = (.ok found, n') → Led shared places (moves n) n n'

/-! ## Steps of one node -/

theorem Led.take (h : n.Tracked shared places) : Led shared places [] n n.take.2 := by
  unfold Node.take
  split <;> exact .of_same h rfl rfl rfl rfl rfl rfl

theorem Led.reset (h : n.Tracked shared places) : Led shared places [] n n.reset.2 := by
  have blank : n.scan.reset.2.blank = n.scan.blank := by cases n.scan <;> rfl
  unfold Node.reset
  split
  · exact .of_same h rfl rfl rfl rfl rfl rfl
  · exact .of_same h rfl blank rfl rfl rfl rfl

/-- A node that is moved still remembers what its children were moved to. -/
theorem Tracked.seek (h : n.Tracked shared places) (known : context.Within n.scan.order.vars)
    {found : Bool} (sought : n.seek env context firstChanged = (.ok found, n')) :
    n'.Tracked shared places ∧ n'.scan.order = n.scan.order ∧ n'.neverMatches = n.neverMatches ∧
      (n'.context = context ∨ n'.neverMatches = true) := by
  have blank := n.scan.blank_seek env.dataset context firstChanged
  unfold Node.seek at sought
  split at sought
  · next never =>
    cases sought
    exact ⟨h.of_same rfl rfl rfl rfl rfl, rfl, rfl, .inr never⟩
  · split at sought
    · next same =>
      rw [same] at blank
      cases sought
      exact ⟨h.of_children rfl blank known h.remembers h.children, Scan.order_of_blank blank, rfl,
        .inl rfl⟩
    · cases sought

theorem Tracked.open (h : n.Tracked shared places) (opened : n.open env = (.ok (), n')) :
    n'.Tracked shared places ∧ n'.scan.order = n.scan.order := by
  have blank := n.scan.blank_open env.dataset
  have away := Binding.within_empty n.scan.order.vars
  unfold Node.open at opened
  dsimp only at opened
  split at opened
  · cases opened
    exact ⟨h.of_children rfl rfl away nofun h.children, rfl⟩
  · split at opened
    · next same =>
      rw [same] at blank
      cases opened
      exact ⟨h.of_children rfl blank away nofun h.children, Scan.order_of_blank blank⟩
    · cases opened

end Node

/-! ## Windows -/

namespace Window

open Node (AllTracked Led Leads Placed Tracked allTracked_append allTracked_cons)

variable {shared order : AttributeOrder} {places : Whereabouts} {log later : List Move}
  {w w' : Window Node} {ws ws' : List (Window Node)} {env : Env} {advance : Advance}
  {moves : Node → List Move} {capacity i : Nat} {context : Binding} {firstChanged : Nat}
  {target : Option Binding → Option Binding}

theorem draw_led (leads : Leads shared advance moves) (count : Nat) {node node' : Node}
    {rows : List Binding} (tracked : node.Tracked shared places)
    (drawn : draw advance count node = (.ok (), rows, node')) :
    Led shared places (drawMoves advance moves count node) node node' := by
  induction count generalizing node rows places with
  | zero =>
    cases drawn
    exact .refl tracked
  | succ count ih =>
    unfold draw at drawn
    unfold drawMoves
    rcases advanced : advance node with ⟨_ | _ | _, next⟩ <;> rw [advanced] at drawn
    · cases drawn
    · cases drawn
      rw [List.append_nil]
      exact leads _ _ _ _ tracked advanced
    · have led := leads _ _ _ _ tracked advanced
      have taken := Led.take led.tracked
      rcases take : next.take with ⟨_ | row, left⟩
      · simp only [take] at drawn
        cases drawn
      · rcases others : draw advance count left with ⟨result, rows', last⟩
        simp only [take, others] at drawn
        cases drawn
        rw [take] at taken
        simp only [take]
        exact led.trans (taken.trans (ih taken.tracked others))

theorem fill_led (leads : Leads shared advance moves) (tracked : w.node.Tracked shared places)
    (filled : w.fill advance capacity = (.ok (), w')) :
    Led shared places (fillMoves advance moves capacity w) w.node w'.node := by
  unfold fill at filled
  unfold fillMoves
  rcases drawn : draw advance capacity w.node with ⟨_ | _, entries, node⟩ <;> rw [drawn] at filled
  · cases filled
  · have led := draw_led leads capacity tracked drawn
    dsimp only at filled ⊢
    split at filled
    · next full =>
      rw [if_pos full]
      rcases advanced : advance node with ⟨_ | more, next⟩ <;> rw [advanced] at filled
      · cases filled
      · cases filled
        exact led.trans (leads _ _ _ _ led.tracked advanced)
    · next short =>
      -- the node has no more rows, so nothing looks further
      rw [if_neg short, List.append_nil]
      cases filled
      exact led

/-- Honest moves have led from one window to another, and `target` tells where the child is then. -/
structure Carried (shared order : AttributeOrder) (target : Option Binding → Option Binding)
    (places : Whereabouts) (log : List Move) (w w' : Window Node) : Prop where
  honest : AllHonest shared places log
  target : places.after log [] = target (places [])
  placed : w'.node.Placed order (places.after log [])
  tracked : w'.node.Tracked shared (places.after log)

/-- A child that stays where it is. -/
theorem Carried.of_led (placed : w.node.Placed order (places []))
    (led : Led shared places log w.node w'.node) : Carried shared order id places log w w' where
  honest := led.honest
  target := led.above
  placed := by
    rw [led.above]
    exact ⟨led.order ▸ placed.longer, placed.within, led.context ▸ led.never ▸ placed.here⟩
  tracked := led.tracked

theorem refill_carried (leads : Leads shared advance moves) (placed : w.node.Placed order (places []))
    (tracked : w.node.Tracked shared places) {found : Bool}
    (refilled : w.refill advance capacity = (.ok found, w')) :
    Carried shared order id places (refillMoves advance moves capacity w) w w' := by
  unfold refill at refilled
  unfold refillMoves
  split at refilled
  · next none =>
    rw [if_pos none]
    cases refilled
    exact .of_led placed (.refl tracked)
  · next more =>
    rw [if_neg more]
    rcases filled : w.fill advance capacity with ⟨_ | _, v⟩ <;> rw [filled] at refilled
    · cases refilled
    · cases refilled
      exact .of_led placed (fill_led leads tracked filled :)

theorem rewind_carried (leads : Leads shared advance moves) (placed : w.node.Placed order (places []))
    (tracked : w.node.Tracked shared places)
    (rewound : w.rewind advance capacity = (.ok (), w')) :
    Carried shared order id places (rewindMoves advance moves capacity w) w w' := by
  unfold rewind at rewound
  unfold rewindMoves
  split at rewound
  · next first =>
    rw [if_pos first]
    cases rewound
    exact .of_led placed (.refl tracked)
  · next further =>
    rw [if_neg further]
    have reset := Led.reset tracked
    exact .of_led placed (reset.trans (fill_led leads reset.tracked rewound))

/-- A child is moved honestly if the hint is right. -/
theorem load_carried (parent : Node) (leads : Leads shared advance moves)
    (placed : w.node.Placed parent.scan.order (places [])) (tracked : w.node.Tracked shared places)
    (longer : parent.scan.order.vars <+: shared.vars)
    (within : context.Within parent.scan.order.vars)
    (unchanged : ∀ old, places [] = some old → shared.Unchanged old context firstChanged)
    (loaded : w.load env advance context firstChanged parent.capacity = (.ok (), w')) :
    Carried shared parent.scan.order (fun _ => some context) places
      (loadMoves env advance moves parent context firstChanged w) w w' := by
  let move : Move := { path := [], parent, child := w.node, context, firstChanged }
  have honest : move.Honest shared (places []) := by
    refine ⟨unchanged, fun v p inherits behind => ?_, placed.here⟩
    -- the parent knows nothing of what siblings in front of this child bind
    have unknown : v ∉ parent.scan.order.vars := fun known =>
      absurd (AttributeOrder.lt_size_of_mem longer known (tracked.inherited v p inherits)) behind.not_gt
    have unbound (c : Binding) (only : c.Within parent.scan.order.vars) : c.get? v = none :=
      Option.not_isSome_iff_eq_none.1 fun bound => unknown (only v bound)
    exact ⟨unbound context within, fun old same => unbound old (placed.within old same)⟩
  have moved : places.record move [] = some context := Function.update_self ..
  have below (i : Nat) : (places.record move).below i = places.below i :=
    Whereabouts.below_record rfl i
  have only : ∀ old, some context = some old → old.Within parent.scan.order.vars := by
    rintro _ ⟨⟩
    exact within
  unfold load at loaded
  unfold loadMoves
  rcases sought : w.node.seek env context firstChanged with ⟨_ | _ | _, node⟩ <;>
    simp only [sought] at loaded ⊢
  · cases loaded
  · obtain ⟨tracked', order, never, here⟩ := tracked.seek (within.mono placed.longer) sought
    cases loaded
    refine ⟨⟨honest, trivial⟩, moved, ?_, tracked'.of_below below⟩
    simp only [Whereabouts.after_cons, Whereabouts.after_nil]
    rw [moved]
    exact ⟨order ▸ placed.longer, only, here⟩
  · obtain ⟨tracked', order, never, here⟩ := tracked.seek (within.mono placed.longer) sought
    have led := fill_led (w := { w with node, chunk := 0 }) leads (tracked'.of_below below) loaded
    have above := led.above.trans moved
    refine ⟨⟨honest, led.honest⟩, above, ?_, led.tracked⟩
    simp only [Whereabouts.after_cons]
    rw [above]
    exact ⟨led.order ▸ order ▸ placed.longer, only, led.context ▸ led.never ▸ here⟩

/-! ## All windows -/

/-- Honest moves below the children have led from some windows to others, of which the first has the
number `i`. -/
structure AllCarried (shared order : AttributeOrder) (target : Option Binding → Option Binding)
    (places : Whereabouts) (i : Nat) (log : List Move) (ws ws' : List (Window Node)) : Prop where
  honest : AllHonest shared places log
  length : ws'.length = ws.length
  above : places.after log [] = places []
  apart : ∀ j, j < i ∨ i + ws.length ≤ j → (places.after log).below j = places.below j
  target : ∀ j, i ≤ j → j < i + ws.length → places.after log [j] = target (places [j])
  tracked : AllTracked shared order (places.after log) i ws'

theorem AllCarried.nil : AllCarried shared order target places i [] [] [] where
  honest := trivial
  length := rfl
  above := rfl
  apart _ _ := rfl
  target j first last := by simp at last; omega
  tracked := List.forall_mem_nil _

theorem AllCarried.refl (all : AllTracked shared order places i ws) :
    AllCarried shared order id places i [] ws ws :=
  ⟨trivial, rfl, rfl, fun _ _ => rfl, fun _ _ _ => rfl, all⟩

/-- One child after the other. -/
theorem AllCarried.cons (first : Carried shared order target (places.below i) log w w')
    (others : AllCarried shared order target (places.after (log.map (.below i))) (i + 1) later ws ws') :
    AllCarried shared order target places i (log.map (.below i) ++ later) (w :: ws) (w' :: ws') where
  honest := allHonest_append.2 ⟨allHonest_map_below.2 first.honest, others.honest⟩
  length := congrArg (· + 1) others.length
  above := by rw [Whereabouts.after_append, others.above, Whereabouts.after_map_nil]
  apart j away := by
    rw [List.length_cons] at away
    rw [Whereabouts.after_append, others.apart j (by omega),
      Whereabouts.below_after_map_of_ne (by omega)]
  target j low high := by
    rw [List.length_cons] at high
    rw [Whereabouts.after_append]
    by_cases here : j = i
    · subst here
      -- moving the siblings behind it leaves this child where it is
      have still := congrFun (others.apart j (.inl (Nat.lt_succ_self j))) []
      exact still.trans ((Whereabouts.after_map_cons []).trans first.target)
    · rw [others.target j (by omega) (by omega), Whereabouts.after_map_of_ne here]
  tracked := by
    have below : ((places.after (log.map (Move.below i))).after later).below i
        = (places.below i).after log := by
      rw [others.apart i (.inl (Nat.lt_succ_self i)), Whereabouts.below_after_map]
    have here := congrFun below []
    rw [Whereabouts.below_apply] at here
    rw [Whereabouts.after_append, allTracked_cons, here, below]
    exact ⟨⟨first.placed, first.tracked⟩, others.tracked⟩

theorem loadAll_carried (parent : Node) (leads : Leads shared advance moves)
    (longer : parent.scan.order.vars <+: shared.vars)
    (within : context.Within parent.scan.order.vars)
    (all : AllTracked shared parent.scan.order places i ws)
    (unchanged : ∀ j, i ≤ j → j < i + ws.length → ∀ old, places [j] = some old →
      shared.Unchanged old context firstChanged)
    (loaded : loadAll env advance context firstChanged parent.capacity ws = (.ok (), ws')) :
    AllCarried shared parent.scan.order (fun _ => some context) places i
      (loadAllMoves env advance moves parent context firstChanged i ws) ws ws' := by
  induction ws generalizing ws' i places with
  | nil =>
    cases loaded
    exact .nil
  | cons w rest ih =>
    obtain ⟨⟨placed, tracked⟩, others⟩ := allTracked_cons.1 all
    rw [List.length_cons] at unchanged
    unfold loadAll at loaded
    unfold loadAllMoves
    rcases here : w.load env advance context firstChanged parent.capacity with ⟨_ | _, w'⟩ <;>
      rw [here] at loaded
    · cases loaded
    · rcases later : loadAll env advance context firstChanged parent.capacity rest with ⟨result, ws⟩
      simp only [later] at loaded
      cases loaded
      have first := load_carried parent leads placed tracked longer within
        (unchanged i (Nat.le_refl i) (by omega)) here
      refine .cons first (ih (others.after_map _) (fun j low high old same => ?_) later)
      rw [Whereabouts.after_map_of_ne (Nat.ne_of_gt low)] at same
      exact unchanged j (by omega) (by omega) old same

theorem rewindAll_carried (leads : Leads shared advance moves)
    (all : AllTracked shared order places i ws)
    (rewound : rewindAll advance capacity ws = (.ok (), ws')) :
    AllCarried shared order id places i (rewindAllMoves advance moves capacity i ws) ws ws' := by
  induction ws generalizing ws' i places with
  | nil =>
    cases rewound
    exact .nil
  | cons w rest ih =>
    obtain ⟨⟨placed, tracked⟩, others⟩ := allTracked_cons.1 all
    unfold rewindAll at rewound
    unfold rewindAllMoves
    rcases later : rewindAll advance capacity rest with ⟨result, ws⟩
    split at rewound
    · next empty =>
      rw [if_pos empty]
      simp only [later] at rewound
      cases rewound
      exact .cons (.of_led placed (.refl tracked)) (ih others later)
    · next some =>
      rw [if_neg some]
      rcases here : w.rewind advance capacity with ⟨_ | _, w'⟩ <;> rw [here] at rewound
      · cases rewound
      · simp only [later] at rewound
        cases rewound
        exact .cons (rewind_carried leads placed tracked here) (ih (others.after_map _) later)

theorem moveFirst_carried (leads : Leads shared advance moves)
    (all : AllTracked shared order places i ws) {found : Bool}
    (moved : (moveFirst advance capacity ws).moved = .ok found) :
    AllCarried shared order id places i (moveFirstMoves advance moves capacity i ws) ws
      ((moveFirst advance capacity ws).lower ++ (moveFirst advance capacity ws).upper) := by
  induction ws generalizing i places with
  | nil => exact .nil
  | cons w rest ih =>
    obtain ⟨⟨placed, tracked⟩, others⟩ := allTracked_cons.1 all
    unfold moveFirst at moved ⊢
    unfold moveFirstMoves
    dsimp only at moved ⊢
    by_cases empty : w.isEmpty = true
    · simp only [if_pos empty] at moved ⊢
      exact .cons (.of_led placed (.refl tracked)) (ih others moved)
    · simp only [if_neg empty] at moved ⊢
      cases stepped : w.step? with
      | some v =>
        have same : v.node = w.node := by rw [(step?_eq_some stepped).2]
        have first : Carried shared order id (places.below i) [] w v :=
          .of_led placed (by rw [same]; exact .refl tracked)
        exact .cons first (.refl others)
      | none =>
        simp only [stepped] at moved
        rcases refilled : w.refill advance capacity with ⟨_ | _ | _, v⟩ <;>
          simp only [refilled] at moved ⊢
        · cases moved
        · exact .cons (refill_carried leads placed tracked refilled) (ih (others.after_map _) moved)
        · exact .cons (refill_carried leads placed tracked refilled) (.refl (others.after_map _))

/-- The windows in front of the one that moved on may be rewound. -/
theorem AllCarried.rewindAll {lower lower' upper : List (Window Node)}
    (leads : Leads shared advance moves)
    (carried : AllCarried shared order id places 0 log ws (lower ++ upper))
    (rewound : Window.rewindAll advance capacity lower = (.ok (), lower')) :
    AllCarried shared order id places 0 (log ++ rewindAllMoves advance moves capacity 0 lower) ws
      (lower' ++ upper) := by
  obtain ⟨front, back⟩ := allTracked_append.1 carried.tracked
  have further := rewindAll_carried leads front rewound
  have total : lower.length + upper.length = ws.length := by rw [← carried.length, List.length_append]
  refine ⟨allHonest_append.2 ⟨carried.honest, further.honest⟩, ?_, ?_, fun j away => ?_,
    fun j low high => ?_, ?_⟩
  · rw [List.length_append, further.length, total]
  · rw [Whereabouts.after_append, further.above, carried.above]
  · rw [Whereabouts.after_append, further.apart j (by omega), carried.apart j away]
  · rw [Whereabouts.after_append]
    by_cases inFront : j < 0 + lower.length
    · rw [further.target j low inFront, carried.target j low high]
      rfl
    · have still := congrFun (further.apart j (.inr (by omega))) []
      exact still.trans (carried.target j low high)
  · rw [Whereabouts.after_append, allTracked_append, further.length]
    exact ⟨further.tracked, back.congr fun j low _ => further.apart j (.inr (by omega))⟩

end Window

end QuadQuery
