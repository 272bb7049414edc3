import QuadQuery.Proofs.JoinTree.Building
import QuadQuery.Proofs.JoinTree.Serving

/-!
# Histories of a join tree

The root of a join tree may be opened, moved, reset, advanced and taken from in any order. What it
replies is what a reader of the list `Node.rows` replies who remembers nothing but the context and
how many rows were taken since (`Node.replies_eq_reading`).
-/

namespace QuadQuery

namespace Node

/-- What can be done to the root of a join tree. -/
inductive Step where
  | «open»
  | seek (context : Binding) (firstChanged : Nat)
  | reset
  | advance
  | take

/-- What comes of it. -/
inductive Reply where
  | done
  | found (some : Bool)
  | row (row : Binding)
  | failed
deriving DecidableEq

/-- Does one step with the root. -/
def perform (env : Env) (n : Node) : Step → Reply × Node
  | .open =>
    match n.open env with
    | (.ok (), n) => (.done, n)
    | (.error _, n) => (.failed, n)
  | .seek context firstChanged =>
    match n.seek env context firstChanged with
    | (.ok found, n) => (.found found, n)
    | (.error _, n) => (.failed, n)
  | .reset => (.found n.reset.1, n.reset.2)
  | .advance =>
    match n.advance env with
    | (.ok found, n) => (.found found, n)
    | (.error _, n) => (.failed, n)
  | .take =>
    match n.take with
    | (.ok row, n) => (.row row, n)
    | (.error _, n) => (.failed, n)

/-- The replies to steps that are done in turn. -/
def replies (env : Env) (n : Node) : List Step → List Reply
  | [] => []
  | step :: rest => (n.perform env step).1 :: (n.perform env step).2.replies env rest

/-- Every context that is sought agrees with the last one at all places of the order before the
hint. Before the first context any hint will do. -/
def Truthful (order : AttributeOrder) : Option Binding → List Step → Prop
  | _, [] => True
  | _, .open :: rest => Truthful order (some ∅) rest
  | last, .seek context firstChanged :: rest =>
    (∀ old, last = some old → order.Unchanged old context firstChanged) ∧
      Truthful order (some context) rest
  | last, .reset :: rest | last, .advance :: rest | last, .take :: rest => Truthful order last rest

end Node

/-! ## Reading rows off a list -/

/-- A scan of the dataset has no rows before it is moved; one of given rows need not be moved. -/
def Scan.needsPlace : Scan → Bool
  | .index _ => true
  | .fixed _ => false

theorem Scan.unmoved_of_free {s : Scan} (free : s.needsPlace = false) {old new : Binding}
    {firstChanged : Nat} : s.Unmoved old new firstChanged := by
  cases s with
  | index s => cases free
  | fixed s => trivial

/-- An unused scan of the dataset is nowhere. -/
theorem Scan.Unused.nowhere_init {s : Scan} (h : s.Unused) (d : Dataset) (incoming : AttributeOrder)
    (needs : (s.init d incoming).2.needsPlace = true) :
    (s.init d incoming).2.rest = [] ∧ ¬ (s.init d incoming).2.Positioned := by
  cases s with
  | fixed s => cases needs
  | index s =>
    rw [show s = { pattern := s.pattern } from h]
    exact ⟨rfl, fun placed => placed rfl⟩

/-- Where a reader of the rows of a join tree is. -/
structure Reading where
  /-- The context that the root was last moved to. -/
  place : Option Binding
  /-- How many rows were taken since. -/
  taken : Nat := 0
  /-- The next row was asked for but not taken. -/
  pending : Bool := false

namespace Reading

/-- Where a reader begins. -/
def start (root : Node) : Reading :=
  { place := if root.scan.needsPlace then none else some ∅ }

/-- The rows to be read. -/
def rows (d : Dataset) (root : Node) (r : Reading) : List Binding :=
  match r.place with
  | some context => root.rows d context
  | none => []

/-- The root itself has rows, whatever its children and filters make of them. -/
def hasOwn (d : Dataset) (root : Node) (r : Reading) : Bool :=
  match r.place with
  | some context => root.scan.openTerms && !(root.scan.rowsAt d context).isEmpty
  | none => false

/-- What a reader of the rows replies to one step. -/
def perform (d : Dataset) (root : Node) (r : Reading) : Node.Step → Node.Reply × Reading
  | .open => (.done, { place := some ∅ })
  | .seek context _ =>
    let r := { place := some context }
    (.found (r.hasOwn d root), r)
  | .reset => (.found (r.hasOwn d root), { place := r.place })
  | .advance =>
    let more := decide (r.taken < (r.rows d root).length)
    (.found more, { r with pending := more })
  | .take =>
    match r.pending, (r.rows d root)[r.taken]? with
    | true, some row => (.row row, { r with taken := r.taken + 1, pending := false })
    | _, _ => (.failed, r)

/-- The replies of a reader to steps that are done in turn. -/
def replies (d : Dataset) (root : Node) (r : Reading) : List Node.Step → List Node.Reply
  | [] => []
  | step :: rest => (r.perform d root step).1 :: (r.perform d root step).2.replies d root rest

end Reading

/-! ## Agreement -/

theorem Node.not_ready {n : Node} (idle : n.state = .exhausted ∨ n.state = .active .find) :
    ¬ ∃ phase, n.state = .ready phase := by
  rintro ⟨phase, ready⟩
  rcases idle with state | state <;> cases state.symm.trans ready

/-- The node has left what the reader has not taken yet. -/
structure Follows (d : Dataset) (root n : Node) (r : Reading) : Prop where
  valid : n.Valid d
  alike : Node.Alike d root n
  remaining : n.remaining d = (r.rows d root).drop r.taken
  pending : r.pending = true ↔ ∃ phase, n.state = .ready phase
  here : ∀ context, r.place = some context → n.neverMatches = false →
    n.context = context ∧ n.scan.Positioned
  nowhere : r.place = none → ¬ n.scan.Positioned

namespace Follows

variable {d : Dataset} {root n n' : Node} {r : Reading} {context : Binding} {firstChanged : Nat}

theorem possible_iff (h : Follows d root n r) : root.scan.openTerms = !n.neverMatches := by
  rw [h.valid.standing.never, Scan.openTerms_of_blank h.alike.blank, Bool.not_not]

/-- A node that was moved to a context has all rows left. -/
theorem of_sought (h : Follows d root n r) {found : Bool}
    (sought : Node.Sought d context n found n') :
    found = ({ place := some context } : Reading).hasOwn d root ∧
      Follows d root n' { place := some context } := by
  have place : n'.neverMatches = false → n'.context = context := fun possible =>
    sought.place.resolve_right (by simp [possible])
  refine ⟨?_, sought.valid, h.alike.trans sought.alike, ?_, ?_, fun c same possible => ?_, nofun⟩
  · rw [sought.found, Scan.rowsAt_of_blank h.alike.blank, Reading.hasOwn, h.possible_iff]
  · rw [sought.remaining, h.alike.rows]
    rfl
  · exact ⟨nofun, fun ⟨phase, ready⟩ => absurd ready (sought.idle phase)⟩
  · cases same
    exact ⟨place possible, sought.positioned possible⟩

/-- A node that was never moved has nothing to start over with. -/
theorem of_reset_nowhere (h : Follows d root n r) (nowhere : r.place = none) :
    n.reset.1 = false ∧ Follows d root n.reset.2 { place := none } := by
  have own := h.valid.standing
  have away := h.nowhere nowhere
  have moved : n.reset.1 = false ∧ ∃ scan, n.reset.2 = { n with scan, state := .exhausted } ∧
      scan.blank = n.scan.blank ∧ (n.neverMatches = false → scan.At d n.context) ∧
      scan.rest <:+ scan.rows ∧ ¬ scan.Positioned := by
    unfold Node.reset
    split
    · exact ⟨rfl, n.scan, rfl, rfl, own.stands, own.rest, away⟩
    · next possible =>
      have stands := own.stands (by simpa using possible)
      cases here : n.scan with
      | fixed s => exact absurd (by rw [here]; trivial) away
      | index s =>
        rw [here] at stands away
        have rows : s.rows = [] := (stands.resolve_right fun placed => away (by
          simp [Scan.Positioned, placed.1])).2
        have none : s.reset.1 = false := by simp [IndexScan.reset, rows]
        refine ⟨none, .index s.reset.2, ?_, rfl, fun _ => stands, List.suffix_rfl, away⟩
        simp only [Scan.reset, Prod.map_fst, Prod.map_snd, id_eq, none]
        rfl
  obtain ⟨answer, scan, same, blank, stands, rest, away⟩ := moved
  rw [same]
  have alike : Node.Alike d n { n with scan, state := .exhausted } :=
    .of_children blank rfl rfl rfl (Node.alike_all _)
  have standing : Node.Standing d { n with scan, state := .exhausted } :=
    own.of_blank blank stands rest ⟨rfl, rfl, rfl, rfl⟩ (fun _ => rfl) own.orders own.contexts
      fun combines => absurd combines NodeState.not_combines_exhausted
  refine ⟨answer, .intro standing h.valid.children, h.alike.trans alike,
    Node.remaining_of_exhausted rfl, iff_of_false Bool.false_ne_true (Node.not_ready (.inl rfl)),
    fun _ same => ?_, fun _ => away⟩
  cases same

/-- Only a node that has rows left has one pending. -/
theorem some_of_ready {phase : Phase} (ready : n.state = .ready phase) : n.remaining d ≠ [] := by
  rw [Node.remaining_eq, ready]
  cases phase <;> exact List.cons_ne_nil _ _

/-- Advancing the node shows whether the reader has rows left. -/
theorem of_served (h : Follows d root n r) {result : Except Failure Bool}
    (served : Node.Served d n result n') :
    result = .ok (decide (r.taken < (r.rows d root).length)) ∧
      Follows d root n' { r with pending := decide (r.taken < (r.rows d root).length) } := by
  have found : (!(n.remaining d).isEmpty) = decide (r.taken < (r.rows d root).length) := by
    rw [h.remaining, Bool.eq_iff_iff]
    simp
  have answer := served.found
  rw [found] at answer
  refine ⟨answer, served.kept.valid, h.alike.trans served.kept.alike,
    served.remaining.trans h.remaining, ⟨fun more => ?_, fun ⟨phase, ready⟩ => ?_⟩,
    fun context place possible => ?_, fun nowhere => ?_⟩
  · exact served.ready (answer.trans (congrArg _ more))
  · rw [← found, ← served.remaining]
    simpa using some_of_ready ready
  · have here := h.here context place (served.kept.alike.never ▸ possible)
    exact ⟨served.kept.context.trans here.1, served.kept.positioned.2 here.2⟩
  · exact fun placed => h.nowhere nowhere (served.kept.positioned.1 placed)

section Together

variable {env : Env}

/-- The node and the reader come to the same with a step, and the node still follows. -/
def Together (env : Env) (root n : Node) (r : Reading) (step : Node.Step) : Prop :=
  (n.perform env step).1 = (r.perform env.dataset root step).1 ∧
    Follows env.dataset root (n.perform env step).2 (r.perform env.dataset root step).2

theorem of_open (h : Follows env.dataset root n r) : Together env root n r .open := by
  obtain ⟨found, n', opened, sought⟩ := Node.open_spec h.valid
  simp only [Together, Node.perform, opened]
  exact ⟨rfl, (h.of_sought sought).2⟩

/-- A seek is answered rightly if the hint is right about the last context. -/
theorem of_seek (h : Follows env.dataset root n r)
    (hint : n.neverMatches = false → n.scan.Positioned →
      n.scan.Unmoved n.context context firstChanged) :
    Together env root n r (.seek context firstChanged) := by
  obtain ⟨found, n', moved, sought⟩ := Node.seek_spec h.valid hint
  obtain ⟨answer, follows⟩ := h.of_sought sought
  simp only [Together, Node.perform, moved, answer]
  exact ⟨rfl, follows⟩

theorem of_reset (h : Follows env.dataset root n r) : Together env root n r .reset := by
  cases place : r.place with
  | none =>
    obtain ⟨answer, follows⟩ := h.of_reset_nowhere place
    have own : r.hasOwn env.dataset root = false := by rw [Reading.hasOwn, place]
    simp only [Together, Node.perform, Reading.perform, answer, own, place]
    exact ⟨trivial, follows⟩
  | some context =>
    have here := h.here context place
    have placed : n.context = context ∨ n.neverMatches = true := by
      by_cases never : n.neverMatches = true
      · exact .inr never
      · exact .inl (here (by simpa using never)).1
    have sought :=
      (Node.reset_spec h.valid fun possible => (here possible).2).of_place h.valid placed
    obtain ⟨answer, follows⟩ := h.of_sought sought
    have own : r.hasOwn env.dataset root
        = ({ place := some context } : Reading).hasOwn env.dataset root := by
      rw [Reading.hasOwn, Reading.hasOwn, place]
    simp only [Together, Node.perform, Reading.perform, answer, own, place]
    exact ⟨trivial, follows⟩

theorem of_advance (valid : env.dataset.Valid) (live : env.cancelled = false)
    (h : Follows env.dataset root n r) : Together env root n r .advance := by
  obtain ⟨answer, follows⟩ := h.of_served (Node.advance_spec valid live h.valid)
  rcases advanced : n.advance env with ⟨result, n'⟩
  rw [advanced] at answer follows
  subst answer
  simp only [Together, Node.perform, advanced]
  exact ⟨rfl, follows⟩

/-- Taking a row hands out the first that the reader has left, if it was asked for. -/
theorem of_take (h : Follows env.dataset root n r) : Together env root n r .take := by
  by_cases pending : ∃ phase, n.state = .ready phase
  · obtain ⟨phase, ready⟩ := pending
    obtain ⟨row, n', take, kept, split, active⟩ := Node.take_spec h.valid ready
    have asked : r.pending = true := h.pending.2 ⟨phase, ready⟩
    have front : (r.rows env.dataset root).drop r.taken = row :: n'.remaining env.dataset :=
      h.remaining.symm.trans split
    have row' : (r.rows env.dataset root)[r.taken]? = some row := by
      rw [← List.head?_drop, front]
      rfl
    simp only [Together, Node.perform, take, Reading.perform, asked, row', true_and]
    refine ⟨kept.valid, h.alike.trans kept.alike, ?_, ⟨nofun, fun ⟨phase, ready⟩ => ?_⟩,
      fun context place possible => ?_, fun nowhere => ?_⟩
    · change n'.remaining env.dataset = (r.rows env.dataset root).drop (r.taken + 1)
      rw [← List.tail_drop, front]
      rfl
    · exact absurd (active.symm.trans ready) nofun
    · have here := h.here context place (kept.alike.never ▸ possible)
      exact ⟨kept.context.trans here.1, kept.positioned.2 here.2⟩
    · exact fun placed => h.nowhere nowhere (kept.positioned.1 placed)
  · have idle : r.pending = false := by
      rw [← Bool.not_eq_true, h.pending]
      exact pending
    have refused : n.take = (.error (.noPendingRow n.state), n) := by
      unfold Node.take
      split
      · next phase ready => exact absurd ⟨phase, ready⟩ pending
      · rfl
    simp only [Together, Node.perform, refused, Reading.perform, idle, true_and]
    exact h

end Together

end Follows

namespace Node

variable {root n : Node} {r : Reading} {env : Env} {order : AttributeOrder}

/-- One step comes to what the reader replies, and the hints after it are as good as before. -/
theorem perform_spec (valid : env.dataset.Valid) (live : env.cancelled = false)
    (heeds : root.scan.Heeds order) (h : Follows env.dataset root n r) {last : Option Binding}
    (known : ∀ context, r.place = some context → last = some context ∨ root.scan.needsPlace = false)
    {step : Step} {rest : List Step} (truthful : Truthful order last (step :: rest)) :
    Follows.Together env root n r step ∧
      ∃ last', (∀ context, (r.perform env.dataset root step).2.place = some context →
          last' = some context ∨ root.scan.needsPlace = false) ∧
        Truthful order last' rest := by
  cases step with
  | «open» => exact ⟨h.of_open, some ∅, fun _ same => .inl same, truthful⟩
  | seek context firstChanged =>
    refine ⟨h.of_seek fun possible placed => ?_, some context, fun _ same => .inl same, truthful.2⟩
    refine Scan.Unmoved.of_blank ?_ h.alike.blank
    by_cases free : root.scan.needsPlace = false
    · exact Scan.unmoved_of_free free
    · obtain ⟨old, place⟩ := Option.ne_none_iff_exists'.1 fun nowhere => h.nowhere nowhere placed
      obtain ⟨here, _⟩ := h.here old place possible
      have before := (known old place).resolve_right free
      exact here ▸ heeds old context firstChanged (truthful.1 old before)
  | reset => exact ⟨h.of_reset, last, known, truthful⟩
  | advance => exact ⟨h.of_advance valid live, last, known, truthful⟩
  | take =>
    refine ⟨h.of_take, last, ?_, truthful⟩
    simp only [Reading.perform]
    split <;> exact known

/-- What holds after every step holds of all replies. -/
theorem replies_spec (valid : env.dataset.Valid) (live : env.cancelled = false)
    (heeds : root.scan.Heeds order) (h : Follows env.dataset root n r) {last : Option Binding}
    (known : ∀ context, r.place = some context → last = some context ∨ root.scan.needsPlace = false)
    (steps : List Step) (truthful : Truthful order last steps) :
    n.replies env steps = r.replies env.dataset root steps := by
  induction steps generalizing n r last with
  | nil => rfl
  | cons step rest ih =>
    obtain ⟨⟨answer, follows⟩, last', known', truthful'⟩ :=
      perform_spec valid live heeds h known truthful
    rw [replies, Reading.replies, answer, ih follows known' truthful']

/-- A node that has nothing pending and was never moved, for a reader who is nowhere yet. -/
theorem follows_nowhere {d : Dataset} (valid : n.Valid d)
    (idle : n.state = .exhausted ∨ n.state = .active .find) (none : n.scan.rest = [])
    (away : ¬ n.scan.Positioned) : Follows d n n { place := .none } := by
  have left : n.remaining d = [] := by
    rcases idle with exhausted | active
    · exact remaining_of_exhausted exhausted
    · rw [remaining_eq_fresh (.inl active), fresh, none]
      rfl
  refine ⟨valid, .refl n, left, iff_of_false Bool.false_ne_true (not_ready idle),
    fun _ same => ?_, fun _ => away⟩
  cases same

/-- A node that has nothing pending and that need not be moved, for a reader without a context. -/
theorem follows_everywhere {d : Dataset} (valid : n.Valid d)
    (idle : n.state = .exhausted ∧ n.neverMatches = true ∨
      n.state = .active .find ∧ n.neverMatches = false)
    (free : n.scan.needsPlace = false) (all : n.scan.rest = n.scan.rows) (context : n.context = ∅) :
    Follows d n n { place := some ∅ } := by
  have placed : n.scan.Positioned ∧ n.scan.rows = n.scan.rowsAt d ∅ := by
    generalize n.scan = scan at free
    cases scan with
    | index s => cases free
    | fixed s => exact ⟨trivial, rfl⟩
  have left : n.remaining d = n.rows d ∅ := by
    rcases idle with ⟨exhausted, never⟩ | ⟨active, possible⟩
    · rw [remaining_of_exhausted exhausted, valid.standing.rows_eq_nil never]
    · rw [remaining_eq_fresh (.inl active), fresh, all, placed.2, context,
        valid.standing.rows_eq possible]
  have idle := not_ready (idle.imp And.left And.left)
  refine ⟨valid, .refl n, left, iff_of_false Bool.false_ne_true idle, fun _ same _ => ?_,
    fun nowhere => absurd nowhere (Option.some_ne_none _)⟩
  cases same
  exact ⟨context, placed.1⟩

/-- A tree whose order was just settled is where a reader begins. -/
theorem follows_start (built : n.Built) (d : Dataset) (order : AttributeOrder) :
    Follows d (n.init d order).2 (n.init d order).2 (.start (n.init d order).2) := by
  have valid := valid_init built d order
  have idle := built.unused.idle_init d order
  obtain ⟨scan, _, _, _, context, _, _⟩ := built.unused
  have start : (n.init d order).2.context = ∅ := by rw [init_eq]; exact context
  have rest : (n.init d order).2.scan.rest = (n.init d order).2.scan.rows := by
    rw [init_eq]
    exact scan.rest_init d order
  have nowhere : (n.init d order).2.scan.needsPlace = true →
      (n.init d order).2.scan.rest = [] ∧ ¬ (n.init d order).2.scan.Positioned := by
    rw [init_eq]
    exact scan.nowhere_init d order
  unfold Reading.start
  split
  · next needs =>
    obtain ⟨none, away⟩ := nowhere needs
    exact follows_nowhere valid (idle.imp And.left And.left) none away
  · next free => exact follows_everywhere valid idle (eq_false_of_ne_true free) rest start

/-- The steps of a built tree, in any order, come to what reading off the nested loops comes to. -/
theorem replies_eq_reading {d : Dataset} (reachable : d.Reachable) (built : n.Built)
    (incoming : AttributeOrder) (steps : List Step) (truthful : Truthful incoming none steps) :
    (n.init d incoming).2.replies { dataset := d } steps
      = (Reading.start (n.init d incoming).2).replies d (n.init d incoming).2 steps := by
  have heeds : (n.init d incoming).2.scan.Heeds incoming := by
    rw [init_eq]
    exact n.scan.heeds_init d incoming
  refine replies_spec reachable.valid rfl heeds (follows_start built d incoming)
    (fun context place => ?_) steps truthful
  unfold Reading.start at place
  split at place
  · cases place
  · next free => exact .inr (by simpa using free)

/-- Two optional children with more rows than a window holds. For the second own row the first child is not
moved, since it does not depend on what has changed, and the second one has no rows. -/
theorem replies_optional :
    let d := (Dataset.empty.addAll [⟨.iri "a", .iri "p", .iri "b", none⟩,
      ⟨.iri "a", .iri "p", .iri "c", none⟩, ⟨.iri "a", .iri "q", .iri "e", none⟩,
      ⟨.iri "a", .iri "q", .iri "f", none⟩, ⟨.iri "b", .iri "r", .iri "g", none⟩,
      ⟨.iri "b", .iri "r", .iri "h", none⟩]).2
    let node (s p o : String) : Node := ofScan (.index
      { pattern := ⟨[.triple (.var ⟨s⟩) (.term (.iri p)) (.var ⟨o⟩)]⟩ }) 1
    let n := ((node "s" "p" "o").addChild (node "s" "q" "x")).addChild (node "o" "r" "y")
    let context := Binding.ofRow [⟨"s"⟩] [1]
    let draws (count : Nat) : List Step := (List.replicate count [.advance, .take]).flatten
    let steps : List Step := .open :: (draws 3 ++ .seek context 0 :: (draws 6 ++ [.advance] ++
      .seek context 1 :: (draws 1 ++ .reset :: draws 1)))
    let rows := [[1, 3, 6, 9], [1, 3, 7, 9], [1, 3, 6, 10], [1, 3, 7, 10], [1, 4, 6], [1, 4, 7]].map
      (Binding.ofRow [⟨"s"⟩, ⟨"o"⟩, ⟨"x"⟩, ⟨"y"⟩])
    let drawn (count : Nat) : List Reply :=
      (rows.take count).flatMap fun row => [.found true, .row row]
    (n.init d ⟨[⟨"s"⟩]⟩).2.replies { dataset := d } steps
      = .done :: (drawn 3 ++ .found true :: (drawn 6 ++ [.found false] ++
        .found true :: (drawn 1 ++ .found true :: drawn 1))) := by
  intro d node n context draws steps rows drawn
  have leaf (s p o : String) : (node s p o).Built := .ofScan (Scan.unused_index _) 1
  have built : n.Built := .addChild (.addChild (leaf ..) (leaf ..)) (leaf ..)
  have truthful : Truthful ⟨[⟨"s"⟩]⟩ none steps := by
    refine ⟨fun old same p before v _ => absurd before (Nat.not_lt_zero p), ?_, trivial⟩
    rintro _ ⟨⟩ p _ v _
    rfl
  refine (replies_eq_reading (.addAll .empty _) built ⟨[⟨"s"⟩]⟩ steps truthful).trans ?_
  decide +kernel

end Node

end QuadQuery
