import QuadQuery.Proofs.JoinTree.Shape

/-!
# Join trees with scans that refuse

A scan of given rows may refuse to be moved. A tree with such scans is compared with a twin in which
no scan refuses: as long as no step fails, both do the same. After a step has failed the contexts
that the nodes remember for their children can be out of date. How far is told by the rows of the
root that the contexts come from, which only ascend: what a node remembers comes from a row that is
not later than the one where its children are, so that a hint made from it promises too little
rather than too much.
-/

namespace QuadQuery

/-! ## Scans that never refuse -/

namespace Scan

/-- The scan without any refusal to be moved. -/
def lenient : Scan → Scan
  | .index s => .index s
  | .fixed s => .fixed { s with seekRefusal := none }

variable {d : Dataset} {s : Scan} {context old new : Binding} {firstChanged : Nat}

@[simp]
theorem attributes_lenient (s : Scan) : s.lenient.attributes = s.attributes := by cases s <;> rfl

@[simp]
theorem openTerms_lenient (s : Scan) : s.lenient.openTerms = s.openTerms := by cases s <;> rfl

@[simp]
theorem order_lenient (s : Scan) : s.lenient.order = s.order := by cases s <;> rfl

@[simp]
theorem rowsAt_lenient (s : Scan) (d : Dataset) (context : Binding) :
    s.lenient.rowsAt d context = s.rowsAt d context := by
  cases s <;> rfl

theorem lenient_of_needsPlace (dataset : s.needsPlace = true) : s.lenient = s := by
  cases s with
  | index s => rfl
  | fixed s => cases dataset

theorem needsPlace_of_blank {s' : Scan} (same : s'.blank = s.blank) :
    s'.needsPlace = s.needsPlace := by
  have blank : ∀ s : Scan, s.blank.needsPlace = s.needsPlace := fun s => by cases s <;> rfl
  rw [← blank s', same, blank]

theorem next?_lenient (s : Scan) (cancelled : Bool) :
    s.lenient.next? cancelled
      = (s.next? cancelled).map fun drawn => (drawn.1, drawn.2.lenient) := by
  cases s with
  | index s =>
    simp only [lenient, next?, Option.map_map]
    rfl
  | fixed s =>
    simp only [lenient, next?, FixedScan.next?]
    cases s.rest <;> rfl

theorem reset_lenient (s : Scan) : s.lenient.reset = (s.reset.1, s.reset.2.lenient) := by
  cases s <;> rfl

theorem init_lenient (s : Scan) (d : Dataset) (incoming : AttributeOrder) :
    s.lenient.init d incoming = ((s.init d incoming).1, (s.init d incoming).2.lenient) := by
  cases s <;> rfl

/-- Moved without a refusal or not, the scans come to the same place. -/
theorem seek_lenient (s : Scan) (d : Dataset) (context : Binding) (firstChanged : Nat) :
    (s.lenient.seek d context firstChanged).2 = (s.seek d context firstChanged).2.lenient ∧
      ∀ found, (s.seek d context firstChanged).1 = .ok found →
        (s.lenient.seek d context firstChanged).1 = .ok found := by
  cases s with
  | index s =>
    refine ⟨?_, fun _ same => same⟩
    simp only [lenient, seek]
    split <;> rfl
  | fixed s =>
    simp only [lenient, seek, FixedScan.seek]
    cases s.seekRefusal with
    | none => exact ⟨rfl, fun _ same => same⟩
    | some reason =>
      refine ⟨rfl, fun found impossible => ?_⟩
      cases impossible

/-- It is right that nothing has been said. -/
theorem unmoved_zero (s : Scan) (old new : Binding) : s.Unmoved old new 0 := by
  cases s with
  | fixed s => trivial
  | index s => exact fun _ p _ _ _ before => absurd before (Nat.not_lt_zero p)

/-- All hints that are right lead to the same place as no hint. -/
theorem seek_eq_of_unmoved (sound : s.Sound d) (stands : s.At d old) (possible : s.openTerms = true)
    (truthful : s.Positioned → s.Unmoved old new firstChanged) :
    s.seek d new firstChanged = s.seek d new 0 := by
  cases s with
  | fixed s => rfl
  | index s =>
    have init : s.Initialized d := sound
    have possible : s.openTerms = true := possible
    simp only [Scan.seek, IndexScan.seek, init.initialized, possible, Bool.not_true,
      Bool.false_eq_true, if_false]
    by_cases untouched : (s.context.isSome && s.inherited.all (· < firstChanged)) = true
    · obtain ⟨somewhere, all⟩ := Bool.and_eq_true_iff.1 untouched
      have positioned : s.context ≠ none := Option.isSome_iff_ne_none.1 somewhere
      obtain ⟨context, _⟩ := stands.resolve_left fun none => positioned none.1
      have key : s.context = some (s.inheritedAttributes.map new.get?) := by
        rw [context, keyFor_congr (truthful positioned) all]
        rfl
      rw [if_pos untouched]
      by_cases none : (s.context.isSome && s.inherited.all (· < 0)) = true
      · rw [if_pos none]
      · rw [if_neg none, if_pos key]
    · have touched : ¬ (s.context.isSome && s.inherited.all (· < 0)) = true := by
        intro all
        obtain ⟨somewhere, all⟩ := Bool.and_eq_true_iff.1 all
        refine untouched (Bool.and_eq_true_iff.2 ⟨somewhere, List.all_eq_true.2 fun p member => ?_⟩)
        exact absurd (List.all_eq_true.1 all p member) (by simp)
      rw [if_neg untouched, if_neg touched]

end Scan

namespace Node

mutual

/-- The tree without any refusal to be moved. -/
def lenient : Node → Node
  | ⟨scan, capacity, attributes, children, preFilters, postFilters, state, neverMatches, context,
      own, extended, childContext, stats⟩ =>
    ⟨scan.lenient, capacity, attributes, lenientAll children, preFilters, postFilters, state,
      neverMatches, context, own, extended, childContext, stats⟩

/-- The windows with no refusal of their children to be moved. -/
def lenientAll : List (Window Node) → List (Window Node)
  | [] => []
  | ⟨node, entries, cursor, more, chunk⟩ :: rest =>
    ⟨node.lenient, entries, cursor, more, chunk⟩ :: lenientAll rest

end

theorem lenient_eq (n : Node) :
    n.lenient = { n with scan := n.scan.lenient, children := lenientAll n.children } := by
  cases n; rfl

theorem lenientAll_cons (w : Window Node) (rest : List (Window Node)) :
    lenientAll (w :: rest) = { w with node := w.node.lenient } :: lenientAll rest := by
  cases w; rfl

theorem lenientAll_eq (ws : List (Window Node)) :
    lenientAll ws = ws.map fun w => { w with node := w.node.lenient } := by
  induction ws with
  | nil => rfl
  | cons w rest ih => rw [lenientAll_cons, List.map_cons, ih]

mutual

/-- The order of variables is settled in the same way. -/
theorem init_lenient (d : Dataset) (incoming : AttributeOrder) : (n : Node) →
    n.lenient.init d incoming = ((n.init d incoming).1, (n.init d incoming).2.lenient)
  | ⟨scan, _, _, children, _, _, _, _, _, _, _, _, _⟩ => by
    simp only [lenient, init, Scan.init_lenient, Scan.openTerms_lenient, Scan.attributes_lenient,
      initAll_lenient d _ children]

theorem initAll_lenient (d : Dataset) (incoming : AttributeOrder) : (ws : List (Window Node)) →
    initAll d incoming (lenientAll ws)
      = ((initAll d incoming ws).1, lenientAll (initAll d incoming ws).2)
  | [] => rfl
  | ⟨node, _, _, _, _⟩ :: rest => by
    simp only [lenientAll, initAll, init_lenient d incoming node, initAll_lenient d _ rest]

end

mutual

/-- Scans that refuse to be moved have no other rows. -/
theorem rows_lenient (d : Dataset) (context : Binding) : (n : Node) →
    n.lenient.rows d context = n.rows d context
  | ⟨scan, _, _, children, _, _, _, _, _, _, _, _, _⟩ => by
    simp only [lenient, rows, Scan.openTerms_lenient, Scan.rowsAt_lenient, Scan.attributes_lenient,
      columns_lenient d _ children]

theorem columns_lenient (d : Dataset) (context : Binding) : (ws : List (Window Node)) →
    columns d context (lenientAll ws) = columns d context ws
  | [] => rfl
  | ⟨node, _, _, _, _⟩ :: rest => by
    simp only [lenientAll, columns, rows_lenient d context node, columns_lenient d context rest]

end

end Node

/-! ## Rows of the root as marks -/

/-- The binding gives the variables the values of a row. -/
def Binding.Shows (vars : List Variable) (b : Binding) (row : Row) : Prop :=
  vars.map b.get? = row.map some

namespace Binding.Shows

variable {vars : List Variable} {b b' : Binding} {row row' : Row}

theorem length_eq (h : b.Shows vars row) : row.length = vars.length := by
  simpa using (congrArg List.length h).symm

theorem get?_eq (h : b.Shows vars row) {p : Nat} {v : Variable} (named : vars[p]? = some v) :
    b.get? v = row[p]? := by
  have here : some (b.get? v) = row[p]?.map some := by
    rw [← List.getElem?_map, ← h, List.getElem?_map, named]
    rfl
  cases value : row[p]? with
  | none => rw [value] at here; cases here
  | some id => rw [value] at here; exact Option.some.inj here

/-- Where two bindings agree the rows do that they show. -/
theorem take_eq (h : b.Shows vars row) (h' : b'.Shows vars row') {n : Nat}
    (same : ∀ v ∈ vars.take n, b.get? v = b'.get? v) : row.take n = row'.take n := by
  have values : (vars.map b.get?).take n = (vars.map b'.get?).take n := by
    rw [← List.map_take, ← List.map_take]
    exact List.map_congr_left same
  rw [h, h', ← List.map_take, ← List.map_take] at values
  exact List.map_injective_iff.2 (Option.some_injective _) values

end Binding.Shows

/-- Of two rows that agree at first, any row between them agrees as well. -/
theorem Row.take_eq_of_between {a b c : Row} (above : a ≤ b) (below : b ≤ c) {n : Nat}
    (same : a.take n = c.take n) : b.take n = c.take n := by
  induction n generalizing a b c with
  | zero => rfl
  | succ n ih =>
    have above : ¬ b < a := not_lt.2 above
    have below : ¬ c < b := not_lt.2 below
    cases c with
    | nil =>
      cases b with
      | nil => rfl
      | cons y b => exact absurd (List.nil_lt_cons y b) below
    | cons z c =>
      cases a with
      | nil => cases same
      | cons x a =>
        obtain ⟨rfl, tails⟩ := List.cons.inj same
        cases b with
        | nil => exact absurd (List.nil_lt_cons x a) above
        | cons y b =>
          rw [List.cons_lt_cons_iff, not_or] at above below
          obtain rfl : y = x := le_antisymm (not_lt.1 below.1) (not_lt.1 above.1)
          have between : a ≤ b := not_lt.1 fun less => above.2 ⟨rfl, less⟩
          have between' : b ≤ c := not_lt.1 fun less => below.2 ⟨rfl, less⟩
          rw [List.take_succ_cons, List.take_succ_cons, ih between between' tails]

/-! ## Twins -/

/-- The windows show the same rows of related children. -/
inductive Window.Swapped (R : Node → Node → Prop) : List (Window Node) → List (Window Node) → Prop
  | nil : Window.Swapped R [] []
  | cons {w : Window Node} {node : Node} {ws vs : List (Window Node)} (first : R w.node node)
      (others : Window.Swapped R ws vs) : Window.Swapped R (w :: ws) ({ w with node } :: vs)

namespace Node

variable {d : Dataset} {V : List Variable} {K : Row} {n n' m m' : Node}

/-- The nodes agree in all that does not change while rows are drawn and in where they are, and the
scan of the second never refuses to be moved. -/
structure Twin (n m : Node) : Prop where
  scan : m.scan = n.scan.lenient
  capacity : m.capacity = n.capacity
  attributes : m.attributes = n.attributes
  preFilters : m.preFilters = n.preFilters
  postFilters : m.postFilters = n.postFilters
  never : m.neverMatches = n.neverMatches
  context : m.context = n.context

/-- A node below the root: it knows the variables of the root from further up, and it scans the
dataset if it has children. -/
structure Below (V : List Variable) (m : Node) : Prop where
  longer : V <+: m.scan.order.vars
  inherits : ∀ s, m.scan = .index s → ∀ v ∈ V, v ∈ s.attributes → v ∈ s.inheritedAttributes
  inner : m.scan.needsPlace = true ∨ m.children = []

/-- What is remembered for the children comes from a row that is not later than those where they
are, and these are not later than the row `K`. -/
def Dated (V : List Variable) (K : Row) (m : Node) (remembered : Option Binding) : Prop :=
  ∀ old, remembered = some old → ∀ w ∈ m.children, w.node.neverMatches = false →
    ∃ first last, old.Shows V first ∧ w.node.context.Shows V last ∧ first ≤ last ∧ last ≤ K

/-- Hints made from what is remembered for the children are right for contexts of the row `K`. -/
def Hinted (V : List Variable) (K : Row) (m : Node) (remembered : Option Binding) : Prop :=
  ∀ new : Binding, new.Shows V K → ∀ w ∈ m.children, w.node.neverMatches = false →
    w.node.scan.Positioned → w.node.scan.Unmoved w.node.context new
      (m.scan.order.firstChanged remembered new)

/-- Throughout the two trees the nodes are twins, and what the nodes of the first remember comes
from rows up to `K`. As long as no step has failed at this row, its hints are right. -/
inductive Shadows (V : List Variable) (K : Row) (right : Prop) : Node → Node → Prop
  | intro {n m : Node} (twin : Twin n m) (below : Below V m) (dated : Dated V K m n.childContext)
      (hinted : right → Hinted V K m n.childContext)
      (length : n.children.length = m.children.length)
      (others : ∀ w v, (w, v) ∈ n.children.zip m.children → Shadows V K right w.node v.node) :
      Shadows V K right n m

/-- Where the twin has been moved on, or is where it was. -/
structure Onward (d : Dataset) (V : List Variable) (K : Row) (m m' : Node) : Prop where
  valid : m'.Valid d
  alike : Alike d m m'
  place : m'.neverMatches = false → m'.context = m.context ∨ m'.context.Shows V K

/-- The nodes have put their children to the same own row. -/
structure SameRow (V : List Variable) (K : Row) (n m : Node) : Prop where
  own : m.own = n.own
  remembered : m.childContext = n.childContext
  shows : (m.own.extendAbsent m.context).Shows V K

/-- Nothing has failed since the two nodes were moved to a context of the row `K`, and they are
about to do the same. -/
inductive Mirrors (V : List Variable) (K : Row) : Node → Node → Prop
  | intro {n m : Node} (shadows : Shadows V K True n m) (state : m.state = n.state)
      (pending : ∀ phase, n.state = .ready phase → m.extended = n.extended)
      (shows : m.neverMatches = false → m.context.Shows V K)
      (row : n.state.combines → SameRow V K n m)
      (windows : n.state.combines → Window.Swapped (Mirrors V K) n.children m.children) :
      Mirrors V K n m

/-! ## Twins that go on -/

section Going

variable {ws vs : List (Window Node)} {own own' extended extended' : Binding}
  {state state' : NodeState} {remembered remembered' : Option Binding} {stats stats' : NodeStats}

/-- Whatever the twins do with their children, they are twins. -/
theorem Twin.stay (h : Twin n m) :
    Twin { n with children := ws, own, extended, state, childContext := remembered, stats }
      { m with
        children := vs, own := own', extended := extended', state := state'
        childContext := remembered', stats := stats' } :=
  ⟨h.scan, h.capacity, h.attributes, h.preFilters, h.postFilters, h.never, h.context⟩

/-- Twins that move their scans alike are twins. -/
theorem Twin.move (h : Twin n m) (scan : Scan) :
    Twin { n with scan, children := ws, own, extended, state, childContext := remembered, stats }
      { m with
        scan := scan.lenient, children := vs, own := own', extended := extended', state := state'
        childContext := remembered', stats := stats' } :=
  ⟨rfl, h.capacity, h.attributes, h.preFilters, h.postFilters, h.never, h.context⟩

end Going

/-! ## What nodes remember -/

variable {remembered : Option Binding} {right : Prop}

theorem Below.of_blank (h : Below V m) (blank : m'.scan.blank = m.scan.blank)
    (length : m'.children.length = m.children.length) : Below V m' where
  longer := by rw [Scan.order_of_blank blank]; exact h.longer
  inherits s' scan v member there := by
    rw [scan] at blank
    cases here : m.scan with
    | fixed s => rw [here] at blank; cases blank
    | index s =>
      rw [here] at blank
      have attributes : s'.attributes = s.attributes := congrArg Scan.attributes blank
      have inherited : s'.inherited = s.inherited := by
        injection blank with blank
        have same := congrArg IndexScan.inherited blank
        exact same
      have inherits := h.inherits s here v member
      unfold IndexScan.inheritedAttributes at inherits ⊢
      rw [attributes] at there
      rw [attributes, inherited]
      exact inherits there
  inner := by
    rw [Scan.needsPlace_of_blank blank]
    refine h.inner.imp_right fun none => List.eq_nil_of_length_eq_zero ?_
    rw [length, none]
    rfl

/-- What is remembered from a row that is over makes no hint for a later row that is not right. -/
theorem Dated.hinted {later : Row} (dated : Dated V K m remembered) (after : K < later)
    (longer : V <+: m.scan.order.vars) (settled : m.Valid d) : Hinted V later m remembered := by
  intro new shows w member possible _
  have sound := (settled.children w member).standing.sound
  have orders := settled.standing.orders w member
  cases scan : w.node.scan with
  | fixed s => trivial
  | index s =>
    rw [scan] at sound orders
    intro i p v place named before
    cases remembered with
    | none => exact absurd before (Nat.not_lt_zero p)
    | some old =>
      obtain ⟨first, last, showsFirst, showsLast, order, bound⟩ := dated old rfl w member possible
      have inside : p < m.scan.order.vars.length :=
        before.trans_le (AttributeOrder.firstChanged_le_size _ _ _)
      have here : m.scan.order.vars[p]? = some v := by
        have there := getElem?_of_isPrefix orders (List.getElem?_eq_getElem inside)
        have places := IndexScan.Initialized.places sound i p place
        rw [named] at places
        rw [List.getElem?_eq_getElem inside, ← there]
        exact places
      -- Up to this place the remembered row and the new one are the same, so the row where the
      -- child is lies between two rows that agree there.
      have upTo : first.take (p + 1) = later.take (p + 1) := by
        refine showsFirst.take_eq shows fun u known => ?_
        obtain ⟨q, bounded, named⟩ := List.mem_take_iff_getElem.1 known
        have placed := getElem?_of_isPrefix longer
          (List.getElem?_eq_some_iff.2 ⟨by omega, named⟩)
        exact AttributeOrder.get?_eq_of_lt_firstChanged (by omega) placed
      have between : last.take (p + 1) = later.take (p + 1) :=
        Row.take_eq_of_between order (bound.trans after.le) upTo
      have short : p < V.length := by
        by_contra long
        have whole (row : Row) (same : row.length = V.length) : row.take (p + 1) = row :=
          List.take_of_length_le (by omega)
        rw [whole _ showsFirst.length_eq, whole _ shows.length_eq] at upTo
        exact absurd (order.trans bound) (not_le.2 (upTo ▸ after))
      have named : V[p]? = some v := by
        have there := getElem?_of_isPrefix longer (List.getElem?_eq_getElem short)
        rw [List.getElem?_eq_getElem short, ← there, here]
      rw [showsLast.get?_eq named, shows.get?_eq named,
        ← List.getElem?_take_of_lt (Nat.lt_succ_self p), between,
        List.getElem?_take_of_lt (Nat.lt_succ_self p)]

theorem Dated.mono {later : Row} (dated : Dated V K m remembered) (after : K ≤ later) :
    Dated V later m remembered := by
  intro old same w member possible
  obtain ⟨first, last, showsFirst, showsLast, order, bound⟩ := dated old same w member possible
  exact ⟨first, last, showsFirst, showsLast, order, bound.trans after⟩

/-- A node that remembers where its children are gives right hints. -/
theorem hinted_remembered (settled : m.Valid d) : Hinted V K m m.childContext :=
  fun new _ w member possible placed =>
    unmoved_children settled.standing settled.children new w member possible placed

theorem dated_none (V : List Variable) (K : Row) (m : Node) : Dated V K m none :=
  fun _ impossible => absurd impossible (Option.some_ne_none _).symm

theorem hinted_none (V : List Variable) (K : Row) (m : Node) : Hinted V K m none :=
  fun _ _ w _ _ _ => w.node.scan.unmoved_zero _ _

theorem dated_remembered (settled : m.Valid d) {context : Binding}
    (here : m.childContext = some context) (shows : context.Shows V K) :
    Dated V K m m.childContext := by
  intro old same w member possible
  obtain rfl : context = old := Option.some.inj (here.symm.trans same)
  have place := (settled.standing.contexts context here w member).resolve_right
    (by simp [possible])
  exact ⟨K, K, shows, place ▸ shows, le_refl K, le_refl K⟩

/-! ## Moving on -/

theorem Onward.refl (settled : m.Valid d) : Onward d V K m m :=
  ⟨settled, .refl m, fun _ => .inl rfl⟩

theorem Kept.onward (h : Kept d m m') : Onward d V K m m' :=
  ⟨h.valid, h.alike, fun _ => .inl h.context⟩

theorem Onward.trans {m'' : Node} (h : Onward d V K m m') (h' : Onward d V K m' m'') :
    Onward d V K m m'' := by
  refine ⟨h'.valid, h.alike.trans h'.alike, fun possible => ?_⟩
  rcases h'.place possible with same | shows
  · rw [same]
    exact h.place (h'.alike.never ▸ possible)
  · exact .inr shows

theorem forall_mem_of_forall₂ {α β : Type} {R : α → β → Prop} {P : β → Prop} {l : List α}
    {l' : List β} (h : l.Forall₂ R l') (each : ∀ a ∈ l, ∀ b, R a b → P b) : ∀ b ∈ l', P b := by
  induction h with
  | nil => exact List.forall_mem_nil _
  | cons first _ ih =>
    obtain ⟨here, others⟩ := List.forall_mem_cons.1 each
    exact List.forall_mem_cons.2 ⟨here _ first, ih others⟩

/-- Children that are moved on to the row `K` are not moved back. -/
theorem Dated.onward (dated : Dated V K m remembered)
    (onward : m.children.Forall₂ (fun v v' => Onward d V K v.node v'.node) m'.children) :
    Dated V K m' remembered := by
  intro old same
  refine forall_mem_of_forall₂ onward fun v member v' moved possible => ?_
  obtain ⟨first, last, showsFirst, showsLast, order, bound⟩ :=
    dated old same v member (moved.alike.never ▸ possible)
  rcases moved.place possible with stays | shows
  · exact ⟨first, last, showsFirst, stays ▸ showsLast, order, bound⟩
  · exact ⟨first, K, showsFirst, shows, order.trans bound, le_refl K⟩

/-! ## Shadows -/

theorem Shadows.twin (h : Shadows V K right n m) : Twin n m := by
  cases h; assumption

theorem Shadows.beneath (h : Shadows V K right n m) : Below V m := by
  cases h; assumption

theorem Shadows.dated (h : Shadows V K right n m) : Dated V K m n.childContext := by
  cases h; assumption

theorem Shadows.hinted (h : Shadows V K True n m) : Hinted V K m n.childContext := by
  cases h with
  | intro _ _ _ hinted => exact hinted trivial

theorem Shadows.children (h : Shadows V K right n m) :
    n.children.Forall₂ (fun w v => Shadows V K right w.node v.node) m.children := by
  obtain ⟨_, _, _, _, length, others⟩ := h
  exact List.forall₂_iff_zip.2 ⟨length, fun member => others _ _ member⟩

theorem Shadows.of_children (twin : Twin n m) (below : Below V m)
    (dated : Dated V K m n.childContext) (hinted : right → Hinted V K m n.childContext)
    (children : n.children.Forall₂ (fun w v => Shadows V K right w.node v.node) m.children) :
    Shadows V K right n m := by
  obtain ⟨length, others⟩ := List.forall₂_iff_zip.1 children
  exact .intro twin below dated hinted length fun _ _ => others

/-- Without the hints the nodes are still where they are. -/
theorem Shadows.weaken (h : Shadows V K right n m) : Shadows V K False n m := by
  induction h with
  | intro twin below dated _ length _ ih => exact .intro twin below dated False.elim length ih

/-- At a later row of the root all hints are right, whatever has failed before. -/
theorem Shadows.renew {later : Row} (h : Shadows V K right n m) (settled : m.Valid d)
    (after : K < later) : Shadows V later True n m := by
  induction h with
  | intro twin below dated _ length _ ih =>
    refine .intro twin below (dated.mono after.le) (fun _ => ?_) length fun w v member => ?_
    · exact dated.hinted after below.longer settled
    · exact ih w v member (settled.children v (List.of_mem_zip member).2)

end Node

end QuadQuery
