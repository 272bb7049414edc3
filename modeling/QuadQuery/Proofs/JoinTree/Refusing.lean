import QuadQuery.Proofs.JoinTree.Twin

/-!
# Moving scans that refuse

Moving a node or the windows of its children does what it does in the twin, or it fails. What it
leaves then is out of step, but every node of it is where some row up to the current one has put it.
-/

namespace QuadQuery

/-- The node has nothing pending and is not in the midst of combinations. -/
def NodeState.Idle (state : NodeState) : Prop :=
  state = .active .find ∨ state = .exhausted

theorem NodeState.Idle.not_combines {state : NodeState} (h : state.Idle) : ¬ state.combines := by
  rcases h with rfl | rfl
  · exact NodeState.not_combines_find
  · exact NodeState.not_combines_exhausted

/-- A step that has come to something did not run out of steps. -/
theorem reached_of_ok {β : Type} {P : β → Prop} {step : Except Failure Unit × β} {b : β}
    (spec : step.1 = .error .outOfSteps ∨ ∃ b', step = (.ok (), b') ∧ P b')
    (came : step = (.ok (), b)) : P b := by
  rw [came] at spec
  rcases spec with stuck | ⟨b', same, holds⟩
  · cases stuck
  · cases same
    exact holds

namespace Node

variable {d : Dataset} {V : List Variable} {K : Row} {n n' m m' m'' : Node} {env : Env}
  {context : Binding} {firstChanged : Nat}

/-- What a failed step has left of a node whose twin is `m`. -/
def Broken (d : Dataset) (V : List Variable) (K : Row) (m n' : Node) : Prop :=
  ∃ m', Onward d V K m m' ∧ Shadows V K False n' m'

/-- A step fails or comes to the same as a step of the twin `m`. -/
def Follows (d : Dataset) (V : List Variable) (K : Row) (m : Node) {α : Type}
    (real twin : Except Failure α × Node) : Prop :=
  (∃ failure n', real = (.error failure, n') ∧ Broken d V K m n') ∨
    ∃ a n' m', real = (.ok a, n') ∧ twin = (.ok a, m') ∧ Mirrors V K n' m'

/-- A way to advance nodes that fails or comes to the same as for the twin. -/
def FollowsTwins (d : Dataset) (V : List Variable) (K : Row) (advance : Advance) : Prop :=
  ∀ n m : Node, m.Valid d → Mirrors V K n m → Follows d V K m (advance n) (advance m)

theorem Broken.of_onward (onward : Onward d V K m m') (h : Broken d V K m' n') :
    Broken d V K m n' := by
  obtain ⟨m'', further, shadows⟩ := h
  exact ⟨m'', onward.trans further, shadows⟩

theorem Shadows.broken {right : Prop} (h : Shadows V K right n m) (settled : m.Valid d) :
    Broken d V K m n :=
  ⟨m, .refl settled, h.weaken⟩

theorem Mirrors.shadows (h : Mirrors V K n m) : Shadows V K True n m := by
  cases h; assumption

theorem Mirrors.state (h : Mirrors V K n m) : m.state = n.state := by
  cases h; assumption

theorem Mirrors.shows (h : Mirrors V K n m) (possible : m.neverMatches = false) :
    m.context.Shows V K := by
  cases h with
  | intro _ _ _ shows => exact shows possible

theorem Mirrors.combined (h : Mirrors V K n m) (combines : n.state.combines) :
    SameRow V K n m ∧ Window.Swapped (Mirrors V K) n.children m.children := by
  cases h with
  | intro _ _ _ _ row windows => exact ⟨row combines, windows combines⟩

/-! ## Steps of one node -/

/-- Nothing but where the nodes are and what they remember matters. -/
theorem Shadows.of_same {right : Prop} (h : Shadows V K right n m) (twin : Twin n' m')
    (blank : m'.scan.blank = m.scan.blank) (remembered : n'.childContext = n.childContext)
    (ws : n'.children = n.children) (vs : m'.children = m.children) : Shadows V K right n' m' := by
  refine .of_children twin (h.beneath.of_blank blank (congrArg List.length vs)) ?_ ?_
    (ws ▸ vs ▸ h.children)
  · intro old same w member
    exact h.dated old (remembered ▸ same) w (vs ▸ member)
  · intro holds new shows w member
    obtain ⟨_, _, _, hinted⟩ := h
    rw [remembered, Scan.order_of_blank blank]
    exact hinted holds new shows w (vs ▸ member)

theorem Mirrors.take (h : Mirrors V K n m) {phase : Phase} (ready : n.state = .ready phase) :
    ∃ row n' m', n.take = (.ok row, n') ∧ m.take = (.ok row, m') ∧ Mirrors V K n' m' := by
  obtain ⟨shadows, state, pending, shows, row, windows⟩ := h
  have twin := shadows.twin
  refine ⟨n.extended, { n with state := .active phase, extended := ∅ },
    { m with state := .active phase, extended := ∅ }, ?_, ?_, ?_⟩
  · rw [Node.take, ready]
  · rw [Node.take, state, ready, pending phase ready]
  · refine .intro (shadows.of_same ?_ rfl rfl rfl rfl) rfl (fun other taken => ?_) shows
      (fun combines => ?_) fun combines => ?_
    · exact twin.stay
    · cases taken
    · obtain ⟨own, remembered, here⟩ := row (by rw [ready]; exact combines)
      exact ⟨own, remembered, here⟩
    · exact windows (by rw [ready]; exact combines)

theorem stateFor_idle (found : Bool) : (stateFor found).Idle := by
  cases found
  · exact .inr rfl
  · exact .inl rfl

/-- Idle nodes that are where they should be do the same from now on. -/
theorem Mirrors.of_idle (h : Shadows V K True n m) (state : m.state = n.state)
    (idle : n.state.Idle) (shows : m.neverMatches = false → m.context.Shows V K) :
    Mirrors V K n m := by
  refine .intro h state (fun phase ready => ?_) shows
    (fun combines => absurd combines idle.not_combines)
    fun combines => absurd combines idle.not_combines
  rcases idle with active | exhausted
  · cases active.symm.trans ready
  · cases exhausted.symm.trans ready

theorem Shadows.seek {firstChanged' : Nat} (h : Shadows V K True n m)
    (settled : m.Valid env.dataset) (shows : context.Shows V K)
    (right : m.neverMatches = false → m.scan.Positioned →
      m.scan.Unmoved m.context context firstChanged)
    (right' : m.neverMatches = false → m.scan.Positioned →
      m.scan.Unmoved m.context context firstChanged') :
    Follows env.dataset V K m (n.seek env context firstChanged)
      (m.seek env context firstChanged') := by
  have twin := h.twin
  obtain ⟨found, m', sought, spec⟩ := seek_spec settled right'
  have blank := spec.alike.blank
  unfold Node.seek at sought ⊢
  by_cases never : n.neverMatches = true
  · have never' : m.neverMatches = true := twin.never.trans never
    rw [if_pos never, if_pos never']
    refine .inr ⟨false, _, _, rfl, rfl, Mirrors.of_idle ?_ rfl (.inr rfl) fun possible => ?_⟩
    · exact h.of_same twin.stay rfl rfl rfl rfl
    · cases never'.symm.trans possible
  · have possible : m.neverMatches = false := by rw [twin.never]; simpa using never
    have own := settled.standing
    have opened : m.scan.openTerms = true := by simpa [own.never] using possible
    have hints : m.scan.seek env.dataset context firstChanged
        = m.scan.seek env.dataset context firstChanged' := by
      rw [Scan.seek_eq_of_unmoved own.sound (own.stands possible) opened (right possible),
        Scan.seek_eq_of_unmoved own.sound (own.stands possible) opened (right' possible)]
    obtain ⟨place, answer⟩ := n.scan.seek_lenient env.dataset context firstChanged
    rw [← twin.scan, hints] at place answer
    rw [if_neg (by simp [possible])] at sought
    rw [if_neg never, if_neg (by simp [possible])]
    rcases real : n.scan.seek env.dataset context firstChanged with ⟨result, scan⟩
    rw [real] at place answer
    rcases moved : m.scan.seek env.dataset context firstChanged' with ⟨result', scan'⟩
    rw [moved] at place answer sought
    obtain rfl : scan' = scan.lenient := place
    have twin' (state state' : NodeState) :
        Twin { n with context, scan, state }
          { m with context, scan := scan.lenient, state := state' } :=
      ⟨rfl, twin.capacity, twin.attributes, twin.preFilters, twin.postFilters, twin.never, rfl⟩
    cases result' with
    | error failure => cases sought
    | ok answered =>
      cases sought
      cases result with
      | error failure =>
        refine .inl ⟨failure, _, rfl, _, ⟨spec.valid, spec.alike, fun _ => .inr shows⟩, ?_⟩
        exact (h.of_same (twin' n.state _) blank rfl rfl rfl).weaken
      | ok answered' =>
        obtain rfl : found = answered' := Except.ok.inj (answer answered' rfl)
        have idle : (stateFor found).Idle := stateFor_idle found
        refine .inr ⟨found, _, _, rfl, rfl, Mirrors.of_idle ?_ rfl idle fun _ => shows⟩
        exact h.of_same (twin' _ _) blank rfl rfl rfl

theorem Mirrors.reset (h : Mirrors V K n m) : Mirrors V K n.reset.2 m.reset.2 := by
  have shadows := h.shadows
  have twin := shadows.twin
  have shows := h.shows
  unfold Node.reset
  by_cases never : n.neverMatches = true
  · rw [if_pos never, if_pos (twin.never.trans never)]
    refine Mirrors.of_idle ?_ rfl (.inr rfl) shows
    exact shadows.of_same twin.stay rfl rfl rfl rfl
  · have possible : ¬ m.neverMatches = true := by rw [twin.never]; exact never
    rw [if_neg never, if_neg possible, twin.scan, Scan.reset_lenient]
    refine Mirrors.of_idle ?_ rfl (stateFor_idle _) shows
    refine shadows.of_same (twin.move _) ?_ rfl rfl rfl
    rw [twin.scan]
    cases n.scan <;> rfl

end Node

/-! ## Windows -/

namespace Window

open Node (Mirrors Shadows Broken FollowsTwins Serves Kept Onward)

variable {d : Dataset} {V : List Variable} {K : Row} {n m : Node} {w v : Window Node}
  {ws vs : List (Window Node)} {env : Env} {advance : Advance} {capacity : Nat} {context : Binding}
  {firstChanged firstChanged' : Nat}

/-- A step of a window fails or comes to the same as a step of the window with the twin. -/
def Follows (d : Dataset) (V : List Variable) (K : Row) (m : Node) {α : Type}
    (real twin : Except Failure α × Window Node) : Prop :=
  (∃ failure w', real = (.error failure, w') ∧ Broken d V K m w'.node) ∨
    ∃ a w' node, real = (.ok a, w') ∧ twin = (.ok a, { w' with node }) ∧ Mirrors V K w'.node node

/-- What a failed step has left of the windows of all children. -/
def AllBroken (d : Dataset) (V : List Variable) (K : Row) (vs ws' : List (Window Node)) : Prop :=
  vs.Forall₂ (fun v w' => Broken d V K v.node w'.node) ws'

theorem draw_follows (follows : FollowsTwins d V K advance) (serves : Serves d advance)
    (count : Nat) (mirrors : Mirrors V K n m) (settled : m.Valid d) :
    (∃ failure rows n', draw advance count n = (.error failure, rows, n') ∧ Broken d V K m n') ∨
      ∃ rows n' m', draw advance count n = (.ok (), rows, n') ∧
        draw advance count m = (.ok (), rows, m') ∧ Mirrors V K n' m' ∧ Kept d m m' := by
  induction count generalizing n m with
  | zero => exact .inr ⟨[], n, m, rfl, rfl, mirrors, .refl settled⟩
  | succ count ih =>
    unfold draw
    have served := serves m settled
    rcases follows n m settled mirrors with
      ⟨failure, n', advanced, broken⟩ | ⟨found, n', m', advanced, advanced', mirrors'⟩
    · rw [advanced]
      exact .inl ⟨failure, [], n', rfl, broken⟩
    · rw [advanced'] at served
      obtain stuck | ⟨kept, _, _, ready⟩ := served
      · cases stuck
      rw [advanced, advanced']
      cases found with
      | false => exact .inr ⟨[], n', m', rfl, rfl, mirrors', kept⟩
      | true =>
        obtain ⟨phase, pending⟩ := ready rfl
        have pending' : n'.state = .ready phase := mirrors'.state ▸ pending
        obtain ⟨row, n'', next, taken, taken', mirrors''⟩ := mirrors'.take pending'
        obtain ⟨_, m'', take, kept', _⟩ := Node.take_spec kept.valid pending
        obtain rfl : m'' = next := congrArg Prod.snd (take.symm.trans taken')
        have onward : Onward d V K m m'' := (kept.trans kept').onward
        simp only [taken, taken']
        rcases ih mirrors'' kept'.valid with
          ⟨failure, rows, n₃, drawn, broken⟩ | ⟨rows, n₃, m₃, drawn, drawn', mirrors₃, kept₃⟩
        · rw [drawn]
          exact .inl ⟨failure, row :: rows, n₃, rfl, broken.of_onward onward⟩
        · rw [drawn, drawn']
          exact .inr ⟨row :: rows, n₃, m₃, rfl, rfl, mirrors₃, (kept.trans kept').trans kept₃⟩

theorem fill_follows (follows : FollowsTwins d V K advance) (serves : Serves d advance)
    (capacity : Nat) (chunk : v.chunk = w.chunk) (mirrors : Mirrors V K w.node v.node)
    (settled : v.node.Valid d) :
    Follows d V K v.node (w.fill advance capacity) (v.fill advance capacity) := by
  unfold fill
  rcases draw_follows follows serves capacity mirrors settled with
    ⟨failure, rows, n', drawn, broken⟩ | ⟨rows, n', m', drawn, drawn', mirrors', kept⟩
  · rw [drawn]
    exact .inl ⟨failure, _, rfl, broken⟩
  · rw [drawn, drawn']
    simp only
    split
    · rcases follows n' m' kept.valid mirrors' with
        ⟨failure, n'', advanced, broken⟩ | ⟨more, n'', m'', advanced, advanced', mirrors''⟩
      · rw [advanced]
        exact .inl ⟨failure, _, rfl, broken.of_onward kept.onward⟩
      · rw [advanced, advanced', chunk]
        exact .inr ⟨(), _, m'', rfl, rfl, mirrors''⟩
    · rw [chunk]
      exact .inr ⟨(), _, m', rfl, rfl, mirrors'⟩

theorem load_follows (follows : FollowsTwins env.dataset V K advance)
    (serves : Serves env.dataset advance) (capacity : Nat)
    (shadows : Shadows V K True w.node v.node) (settled : v.node.Valid env.dataset)
    (shows : context.Shows V K)
    (right : v.node.neverMatches = false → v.node.scan.Positioned →
      v.node.scan.Unmoved v.node.context context firstChanged)
    (right' : v.node.neverMatches = false → v.node.scan.Positioned →
      v.node.scan.Unmoved v.node.context context firstChanged') :
    Follows env.dataset V K v.node (w.load env advance context firstChanged capacity)
      (v.load env advance context firstChanged' capacity) := by
  obtain ⟨_, next, sought, spec⟩ := Node.seek_spec settled right'
  unfold load
  rcases shadows.seek settled shows right right' with
    ⟨failure, n', moved, broken⟩ | ⟨found, n', m', moved, moved', mirrors⟩
  · simp only [moved]
    exact .inl ⟨failure, _, rfl, broken⟩
  · obtain rfl : next = m' := congrArg Prod.snd (sought.symm.trans moved')
    have onward : Onward env.dataset V K v.node next :=
      ⟨spec.valid, spec.alike, fun possible =>
        .inr ((spec.place.resolve_right (by simp [possible])) ▸ shows)⟩
    simp only [moved, moved']
    cases found with
    | false => exact .inr ⟨(), _, _, rfl, rfl, mirrors⟩
    | true =>
      rcases fill_follows (w := { w with node := n', chunk := 0 })
        (v := { v with node := next, chunk := 0 }) follows serves capacity rfl mirrors spec.valid
        with ⟨failure, w', filled, broken⟩ | same
      · exact .inl ⟨failure, w', filled, broken.of_onward onward⟩
      · exact .inr same

theorem rewind_follows (follows : FollowsTwins d V K advance) (serves : Serves d advance)
    (capacity : Nat) (mirrors : Mirrors V K w.node n) (settled : n.Valid d)
    (stands : ({ w with node := n } : Window Node).Stands d context) :
    Follows d V K n (w.rewind advance capacity)
      (({ w with node := n } : Window Node).rewind advance capacity) := by
  unfold rewind
  dsimp only
  split
  · exact .inr ⟨(), _, n, rfl, rfl, mirrors⟩
  · have sought := Node.reset_spec settled stands.positioned
    have onward : Onward d V K n n.reset.2 := ⟨sought.valid, sought.alike, fun possible =>
      .inl (sought.place.resolve_right (by simp [possible]))⟩
    rcases fill_follows (w := { w with node := w.node.reset.2, chunk := 0 })
      (v := { w with node := n.reset.2, chunk := 0 }) follows serves capacity rfl mirrors.reset
      sought.valid with ⟨failure, w', filled, broken⟩ | same
    · exact .inl ⟨failure, w', filled, broken.of_onward onward⟩
    · exact .inr same

theorem refill_follows (follows : FollowsTwins d V K advance) (serves : Serves d advance)
    (capacity : Nat) (mirrors : Mirrors V K w.node n) (settled : n.Valid d) :
    Follows d V K n (w.refill advance capacity)
      (({ w with node := n } : Window Node).refill advance capacity) := by
  unfold refill
  dsimp only
  split
  · exact .inr ⟨false, w, n, rfl, rfl, mirrors⟩
  · rcases fill_follows (w := w) (v := { w with node := n }) follows serves capacity rfl mirrors
      settled with
      ⟨failure, w', filled, broken⟩ | ⟨_, w', n', filled, filled', mirrors'⟩
    · rw [filled]
      exact .inl ⟨failure, w', rfl, broken⟩
    · rw [filled, filled']
      exact .inr ⟨_, _, n', rfl, rfl, mirrors'⟩

/-! ## All windows -/

theorem AllBroken.of_shadows {right : Prop}
    (shadows : ws.Forall₂ (fun w v => Shadows V K right w.node v.node) vs)
    (settled : ∀ v ∈ vs, v.node.Valid d) : AllBroken d V K vs ws := by
  induction shadows with
  | nil => exact .nil
  | cons first _ ih =>
    obtain ⟨here, others⟩ := List.forall_mem_cons.1 settled
    exact .cons (first.broken here) (ih others)

theorem Swapped.shadows (h : Swapped (Mirrors V K) ws vs) :
    ws.Forall₂ (fun w v => Shadows V K True w.node v.node) vs := by
  induction h with
  | nil => exact .nil
  | cons first _ ih => exact .cons first.shadows ih

theorem Swapped.append {R : Node → Node → Prop} {ws' vs' : List (Window Node)}
    (h : Swapped R ws vs) (h' : Swapped R ws' vs') : Swapped R (ws ++ ws') (vs ++ vs') := by
  induction h with
  | nil => exact h'
  | cons first _ ih => exact .cons first ih

/-- The current rows of the windows do not depend on the children. -/
theorem Swapped.current {R : Node → Node → Prop} (h : Swapped R ws vs) :
    vs.map current? = ws.map current? := by
  induction h with
  | nil => rfl
  | cons _ _ ih =>
    rw [List.map_cons, List.map_cons, ih]
    rfl

theorem Swapped.phaseFor_eq {R : Node → Node → Prop} (h : Swapped R ws vs) :
    Node.phaseFor vs = Node.phaseFor ws := by
  have same : vs.any (!·.isEmpty) = ws.any (!·.isEmpty) := by
    induction h with
    | nil => rfl
    | cons _ _ ih =>
      rw [List.any_cons, List.any_cons, ih]
      rfl
  rw [Node.phaseFor, Node.phaseFor, same]

/-- Where a window of the twin stands after it was moved to a context of the row `K`. -/
theorem Stands.onward (stands : v.Stands d context) (settled : v.node.Valid d)
    (alike : Node.Alike d m v.node) (shows : context.Shows V K) : Onward d V K m v.node :=
  ⟨settled, alike, fun possible => .inr (stands.place.resolve_right (by simp [possible]) ▸ shows)⟩

/-- The twins of what a failed step has left of the children. -/
theorem AllBroken.exists_twins (h : AllBroken d V K vs ws) : ∃ vs' : List (Window Node),
      vs.Forall₂ (fun v v' => Onward d V K v.node v'.node) vs' ∧
      ws.Forall₂ (fun w v' => Shadows V K False w.node v'.node) vs' := by
  induction h with
  | nil => exact ⟨[], .nil, .nil⟩
  | @cons v w _ _ first _ ih =>
    obtain ⟨m', onward, shadows⟩ := first
    obtain ⟨vs', others, others'⟩ := ih
    exact ⟨{ node := m' } :: vs', .cons onward others, .cons shadows others'⟩

theorem onward_all {us : List (Window Node)} (stand : AllStand d context vs)
    (alike : us.Forall₂ (fun u v => Node.Alike d u.node v.node) vs) (shows : context.Shows V K) :
    us.Forall₂ (fun u v => Onward d V K u.node v.node) vs := by
  induction alike with
  | nil => exact .nil
  | cons first _ ih =>
    obtain ⟨⟨settled, stands⟩, others⟩ := List.forall_mem_cons.1 stand
    exact .cons (stands.onward settled first shows) (ih others)

/-- Windows that have been moved on before they broke. -/
theorem AllBroken.of_onward {us : List (Window Node)}
    (onward : us.Forall₂ (fun u v => Onward d V K u.node v.node) vs) (h : AllBroken d V K vs ws) :
    AllBroken d V K us ws := by
  induction onward generalizing ws with
  | nil => exact h
  | cons first _ ih =>
    obtain ⟨w, rest, here, others, rfl⟩ := List.forall₂_cons_left_iff.1 h
    exact .cons (here.of_onward first) (ih others)

theorem loadAll_follows (follows : FollowsTwins env.dataset V K advance)
    (serves : Serves env.dataset advance) (room : 0 < capacity)
    (shadows : ws.Forall₂ (fun w v => Shadows V K True w.node v.node) vs)
    (settled : ∀ v ∈ vs, v.node.Valid env.dataset) (shows : vs ≠ [] → context.Shows V K)
    (right : ∀ v ∈ vs, v.node.neverMatches = false → v.node.scan.Positioned →
      v.node.scan.Unmoved v.node.context context firstChanged)
    (right' : ∀ v ∈ vs, v.node.neverMatches = false → v.node.scan.Positioned →
      v.node.scan.Unmoved v.node.context context firstChanged') :
    (∃ failure ws', loadAll env advance context firstChanged capacity ws = (.error failure, ws') ∧
      AllBroken env.dataset V K vs ws') ∨
    ∃ ws' vs', loadAll env advance context firstChanged capacity ws = (.ok (), ws') ∧
      loadAll env advance context firstChanged' capacity vs = (.ok (), vs') ∧
      Swapped (Mirrors V K) ws' vs' := by
  induction shadows with
  | nil => exact .inr ⟨[], [], rfl, rfl, .nil⟩
  | @cons w v rest rest' first shadows ih =>
    obtain ⟨here, others⟩ := List.forall_mem_cons.1 settled
    obtain ⟨hint, hints⟩ := List.forall_mem_cons.1 right
    obtain ⟨hint', hints'⟩ := List.forall_mem_cons.1 right'
    have shows : context.Shows V K := shows (List.cons_ne_nil v rest')
    unfold loadAll
    rcases load_follows follows serves capacity first here shows hint hint' with
      ⟨failure, w', loaded, broken⟩ | ⟨_, w', n', loaded, loaded', mirrors⟩
    · rw [loaded]
      exact .inl ⟨failure, _, rfl, .cons broken (AllBroken.of_shadows shadows others)⟩
    · have started := reached_of_ok (load_spec serves room here hint') loaded'
      have onward := started.stands.onward started.valid started.alike shows
      rw [loaded, loaded']
      rcases ih others (fun _ => shows) hints hints' with
        ⟨failure, ws', all, broken⟩ | ⟨ws', vs', all, all', swapped⟩
      · simp only [all]
        exact .inl ⟨failure, _, rfl, .cons ⟨n', onward, mirrors.shadows.weaken⟩ broken⟩
      · simp only [all, all']
        exact .inr ⟨_, _, rfl, rfl, .cons mirrors swapped⟩

theorem rewindAll_follows (follows : FollowsTwins d V K advance) (serves : Serves d advance)
    (room : 0 < capacity) (swapped : Swapped (Mirrors V K) ws vs) (stand : AllStand d context vs)
    (shows : context.Shows V K) :
    (∃ failure ws', rewindAll advance capacity ws = (.error failure, ws') ∧
      AllBroken d V K vs ws') ∨
    ∃ ws' vs', rewindAll advance capacity ws = (.ok (), ws') ∧
      rewindAll advance capacity vs = (.ok (), vs') ∧ Swapped (Mirrors V K) ws' vs' := by
  induction swapped with
  | nil => exact .inr ⟨[], [], rfl, rfl, .nil⟩
  | @cons w n rest rest' first swapped ih =>
    obtain ⟨⟨settled, stands⟩, others⟩ := List.forall_mem_cons.1 stand
    unfold rewindAll
    by_cases empty : w.isEmpty = true
    · have empty' : ({ w with node := n } : Window Node).isEmpty = true := empty
      rw [if_pos empty, if_pos empty']
      rcases ih others with ⟨failure, ws', all, broken⟩ | ⟨ws', vs', all, all', swapped'⟩
      · simp only [all]
        exact .inl ⟨failure, _, rfl, .cons (first.shadows.broken settled) broken⟩
      · simp only [all, all']
        exact .inr ⟨_, _, rfl, rfl, .cons first swapped'⟩
    · have some' : ¬ ({ w with node := n } : Window Node).isEmpty = true := empty
      rw [if_neg empty, if_neg some']
      rcases rewind_follows follows serves capacity first settled stands with
        ⟨failure, w', rewound, broken⟩ | ⟨_, w', n', rewound, rewound', mirrors⟩
      · rw [rewound]
        exact .inl ⟨failure, _, rfl, .cons broken
          (AllBroken.of_shadows swapped.shadows fun v member => (others v member).1)⟩
      · have started := reached_of_ok (rewind_spec serves room settled stands) rewound'
        have onward := started.stands.onward started.valid started.alike shows
        rw [rewound, rewound']
        rcases ih others with ⟨failure, ws', all, broken⟩ | ⟨ws', vs', all, all', swapped'⟩
        · simp only [all]
          exact .inl ⟨failure, _, rfl, .cons ⟨n', onward, mirrors.shadows.weaken⟩ broken⟩
        · simp only [all, all']
          exact .inr ⟨_, _, rfl, rfl, .cons mirrors swapped'⟩

/-- Whether a window can move to a next row does not depend on the child. -/
theorem step?_swapped (w : Window Node) (n : Node) :
    ({ w with node := n } : Window Node).step? = w.step?.map ({ · with node := n }) := by
  unfold step?
  dsimp only
  split <;> rfl

/-- Turning the odometer fails or comes as far as with the windows of the twin. -/
def FollowsTurn (d : Dataset) (V : List Variable) (K : Row) (vs : List (Window Node))
    (turn turn' : Turn) : Prop :=
  (∃ failure, turn.moved = .error failure ∧ AllBroken d V K vs (turn.lower ++ turn.upper)) ∨
    ∃ found, turn.moved = .ok found ∧ turn'.moved = .ok found ∧
      Swapped (Mirrors V K) turn.lower turn'.lower ∧ Swapped (Mirrors V K) turn.upper turn'.upper

/-- A window in front of the one that moves is as it was. -/
theorem FollowsTurn.behind {turn turn' : Turn} (h : FollowsTurn d V K vs turn turn')
    (mirrors : Mirrors V K w.node n) (settled : n.Valid d) :
    FollowsTurn d V K ({ w with node := n } :: vs) { turn with lower := w :: turn.lower }
      { turn' with lower := { w with node := n } :: turn'.lower } := by
  rcases h with ⟨failure, moved, broken⟩ | ⟨found, moved, moved', lower, upper⟩
  · exact .inl ⟨failure, moved, .cons (mirrors.shadows.broken settled) broken⟩
  · exact .inr ⟨found, moved, moved', .cons mirrors lower, upper⟩

theorem moveFirst_follows (follows : FollowsTwins d V K advance) (serves : Serves d advance)
    (room : 0 < capacity) (swapped : Swapped (Mirrors V K) ws vs) (stand : AllStand d context vs) :
    FollowsTurn d V K vs (moveFirst advance capacity ws) (moveFirst advance capacity vs) := by
  induction swapped with
  | nil => exact .inr ⟨false, rfl, rfl, .nil, .nil⟩
  | @cons w n rest rest' first swapped ih =>
    obtain ⟨⟨settled, stands⟩, others⟩ := List.forall_mem_cons.1 stand
    have unmoved : AllBroken d V K rest' rest :=
      .of_shadows swapped.shadows fun v member => (others v member).1
    unfold moveFirst
    dsimp only
    by_cases empty : w.isEmpty = true
    · have empty' : ({ w with node := n } : Window Node).isEmpty = true := empty
      rw [if_pos empty, if_pos empty']
      exact (ih others).behind first settled
    · have some' : ¬ ({ w with node := n } : Window Node).isEmpty = true := empty
      rw [if_neg empty, if_neg some', step?_swapped w n]
      cases stepped : w.step? with
      | some w' =>
        obtain ⟨_, rfl⟩ := step?_eq_some stepped
        exact .inr ⟨true, rfl, rfl, .nil, .cons first swapped⟩
      | none =>
        have last : ({ w with node := n } : Window Node).step? = none := by
          rw [step?_swapped, stepped]
          rfl
        have spec := refill_spec serves room settled stands some' last
        simp only [Option.map_none]
        rcases refill_follows follows serves capacity first settled with
          ⟨failure, w', refilled, broken⟩ | ⟨found, w', n', refilled, refilled', mirrors⟩
        · rw [refilled]
          exact .inl ⟨failure, rfl, .cons broken unmoved⟩
        · rw [refilled'] at spec
          rw [refilled, refilled']
          cases found with
          | true => exact .inr ⟨true, rfl, rfl, .nil, .cons mirrors swapped⟩
          | false =>
            -- The twin was not asked for more rows, so its window is the one it was.
            rcases spec with stuck | ⟨same, _⟩ | ⟨_, impossible, _⟩
            · cases stuck
            · obtain ⟨node, entries, cursor, more, chunk⟩ := w'
              cases same
              exact FollowsTurn.behind (w := { w with node }) (ih others) mirrors settled
            · cases impossible

end Window

end QuadQuery
