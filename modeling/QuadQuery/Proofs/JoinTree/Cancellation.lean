import QuadQuery.Proofs.JoinTree.Answers
import QuadQuery.Proofs.JoinTree.Fading
import QuadQuery.Proofs.JoinTree.Shape

/-!
# Cancelled runs of a join tree

A run of a join tree that is cancelled half-way hands out a beginning of the rows that the tree
hands out otherwise, as long as no window in front of another one has to be filled anew
(`Node.cancelled_isPrefix`). Where nodes have one child at most there is no such window
(`Node.OnlyChildren.taken_isPrefix`). Where such a window has to be filled anew it comes out empty,
and then rows are handed out in which its child looks unmatched (`Node.cancelled_not_isPrefix`).
-/

namespace QuadQuery

namespace Node

variable {d : Dataset} {n n' : Node} {env : Env} {rows : List Binding} {steps : List Step}
  {incoming : AttributeOrder}

/-! ## Runs -/

/-- The row that is handed out, if there is one. -/
def Reply.row? : Reply → Option Binding
  | .row taken => some taken
  | .done | .found _ | .failed => none

/-- The rows that are handed out in some steps. -/
def taken (env : Env) (n : Node) (steps : List Step) : List Binding :=
  (n.replies env steps).filterMap Reply.row?

/-- Where some steps lead to. -/
def after (env : Env) (n : Node) (steps : List Step) : Node :=
  steps.foldl (fun n step => (n.perform env step).2) n

/-- The step asks for a row or takes it. -/
def Step.Draws : Step → Prop
  | .advance | .take => True
  | .open | .seek .. | .reset => False

/-- Asked for one row after the other, the node hands out these and then has no more. -/
def HandsOut (env : Env) (n : Node) (rows : List Binding) : Prop :=
  n.replies env (rows.flatMap (fun _ => [.advance, .take]) ++ [.advance])
    = rows.flatMap (fun row => [.found true, .row row]) ++ [.found false]

instance (env : Env) (n : Node) (rows : List Binding) : Decidable (n.HandsOut env rows) :=
  inferInstanceAs (Decidable (_ = _))

theorem taken_cons (step : Step) :
    n.taken env (step :: steps)
      = (n.perform env step).1.row?.toList ++ (n.perform env step).2.taken env steps := by
  rw [taken, replies, List.filterMap_cons, taken]
  cases (n.perform env step).1.row? <;> rfl

theorem perform_advance {found : Bool} (advanced : n.advance env = (.ok found, n')) :
    n.perform env .advance = (.found found, n') := by
  rw [perform, advanced]

theorem perform_take {row : Binding} (taken : n.take = (.ok row, n')) :
    n.perform env .take = (.row row, n') := by
  rw [perform, taken]

/-- Without a pending row taking fails and changes nothing. -/
theorem perform_take_of_none (none : ∀ phase, n.state ≠ .ready phase) :
    n.perform env .take = (.failed, n) := by
  have refused : n.take = (.error (.noPendingRow n.state), n) := by
    unfold take
    split
    · next phase ready => exact absurd ready (none phase)
    · rfl
  rw [perform, refused]

/-! ## Before cancellation -/

/-- A node that stands as it should hands out the rows that it has left. -/
theorem handsOut_remaining (valid : env.dataset.Valid) (live : env.cancelled = false)
    (settled : n.Valid env.dataset) : n.HandsOut env (n.remaining env.dataset) := by
  generalize left : n.remaining env.dataset = rows
  induction rows generalizing n with
  | nil =>
    obtain ⟨_, found, _, _⟩ := advance_spec valid live settled
    obtain ⟨n', advanced⟩ := exists_of_fst_eq found
    simp only [HandsOut, List.flatMap_nil, List.nil_append, replies, perform_advance advanced, left]
    rfl
  | cons row later ih =>
    obtain ⟨kept, found, remaining, ready⟩ := advance_spec valid live settled
    obtain ⟨n', advanced⟩ := exists_of_fst_eq found
    rw [advanced] at kept remaining ready
    rw [left] at advanced ready remaining
    obtain ⟨phase, pending⟩ := ready rfl
    obtain ⟨row', last, take, kept', split, _⟩ := take_spec kept.valid pending
    rw [remaining, List.cons.injEq] at split
    obtain ⟨rfl, rest⟩ := split
    have others := ih kept'.valid rest.symm
    simp only [HandsOut, List.flatMap_cons, List.cons_append, List.nil_append, replies,
      perform_advance advanced, perform_take take] at others ⊢
    rw [others]
    rfl

/-- Whatever is drawn, the rows that were handed out and those that are left are the rows that were
left before. -/
theorem taken_append_remaining (valid : env.dataset.Valid) (live : env.cancelled = false)
    (settled : n.Valid env.dataset) (draws : ∀ step ∈ steps, step.Draws) :
    (n.after env steps).Valid env.dataset ∧
      n.taken env steps ++ (n.after env steps).remaining env.dataset = n.remaining env.dataset := by
  induction steps generalizing n with
  | nil => exact ⟨settled, rfl⟩
  | cons step rest ih =>
    obtain ⟨first, others⟩ := List.forall_mem_cons.1 draws
    -- It is enough that one step moves rows from what is left to what was taken.
    suffices one : (n.perform env step).2.Valid env.dataset ∧
        (n.perform env step).1.row?.toList ++ (n.perform env step).2.remaining env.dataset
          = n.remaining env.dataset by
      obtain ⟨settled', split⟩ := ih one.1 others
      refine ⟨settled', ?_⟩
      rw [taken_cons, List.append_assoc]
      exact (congrArg _ split).trans one.2
    cases step with
    | advance =>
      obtain ⟨kept, found, remaining, _⟩ := advance_spec valid live settled
      obtain ⟨n', advanced⟩ := exists_of_fst_eq found
      rw [advanced] at kept remaining
      rw [perform_advance advanced]
      exact ⟨kept.valid, remaining⟩
    | take =>
      by_cases ready : ∃ phase, n.state = .ready phase
      · obtain ⟨phase, pending⟩ := ready
        obtain ⟨row, n', take, kept, split, _⟩ := take_spec settled pending
        rw [perform_take take]
        exact ⟨kept.valid, split.symm⟩
      · rw [perform_take_of_none (not_exists.1 ready)]
        exact ⟨settled, rfl⟩
    | «open» => cases first
    | seek => cases first
    | reset => cases first

/-! ## After cancellation -/

/-- A cancelled node hands out a beginning of the rows that are due. -/
theorem Fades.taken_isPrefix (cancelled : env.cancelled = true) (bounded : n.Bounded env.dataset)
    (h : Fades env.dataset n rows) (draws : ∀ step ∈ steps, step.Draws) :
    n.taken env steps <+: rows := by
  induction steps generalizing n rows with
  | nil => exact List.nil_prefix
  | cons step rest ih =>
    obtain ⟨first, others⟩ := List.forall_mem_cons.1 draws
    rw [taken_cons]
    cases step with
    | advance =>
      obtain ⟨found, n', advanced, kept, _⟩ := advance_fades cancelled bounded h
      have settled : Settled env.dataset n (n.advance env).1 (n.advance env).2 :=
        advance_bounds bounded
      rw [advanced] at settled
      rw [perform_advance advanced]
      exact ih settled.bounded kept others
    | take =>
      by_cases ready : ∃ phase, n.state = .ready phase
      · obtain ⟨phase, pending⟩ := ready
        obtain ⟨row, n', later, take, rfl, kept⟩ := h.take pending
        obtain ⟨_, _, take', noMore, _⟩ := take_bounds bounded pending
        obtain ⟨_, rfl⟩ := Prod.mk.inj (take.symm.trans take')
        rw [perform_take take]
        exact List.cons_prefix_cons.2 ⟨rfl, ih noMore.bounded kept others⟩
      · rw [perform_take_of_none (not_exists.1 ready)]
        exact ih bounded h others
    | «open» => cases first
    | seek => cases first
    | reset => cases first

/-- Every window with another one behind it holds all rows of its child, here and in the last child
as long as that has more rows than its window. -/
inductive Calm : Node → Prop
  | intro {n : Node}
      (fronts : n.state.combines → ∀ w ∈ n.children.dropLast, w.chunk = 0 ∧ w.more = false)
      (last : n.state.combines → ∀ w ∈ n.children.getLast?, w.more = true → Calm w.node) : Calm n

/-- All scans of the tree are scans of the dataset, whether it was settled or not. -/
def OfDataset (n : Node) : Prop :=
  n.Throughout fun dataset _ => dataset = true

theorem Indexed.ofDataset (h : n.Indexed) : n.OfDataset := by
  induction h with
  | intro scan _ ih => exact .intro (by rw [scan]; rfl) ih

theorem OfDataset.silent (h : n.OfDataset) : n.scan.next? true = none := by
  have own := h.own
  cases scan : n.scan with
  | index s => rfl
  | fixed s => rw [scan] at own; cases own

/-- Windows that stand fade with the rows that their children have left. -/
theorem fade_of_stands {P : Node → List Binding → Prop} {context : Binding}
    {ws : List (Window Node)} (stand : ∀ w ∈ ws, w.Stands d context)
    (fronts : ∀ w ∈ ws.dropLast, w.chunk = 0 ∧ w.more = false)
    (last : ∀ w ∈ ws.getLast?, w.more = true → P w.node (w.node.remaining d)) :
    Window.Fade P ws (ws.map (Window.wheel d context)) := by
  induction ws with
  | nil => exact .nil
  | cons w rest ih =>
    obtain ⟨stands, others⟩ := List.forall_mem_cons.1 stand
    obtain ⟨gone, start, parts⟩ := stands.parts
    cases rest with
    | nil =>
      refine .last (last w rfl) (stands.current.imp_right fun none => ?_) rfl
      rw [none] at parts
      exact List.append_eq_nil_iff.1 (List.append_eq_nil_iff.1 parts.symm).2
    | cons next rest =>
      rw [List.dropLast_cons_cons] at fronts
      obtain ⟨⟨chunk, more⟩, fronts⟩ := List.forall_mem_cons.1 fronts
      rw [List.getLast?_cons_cons] at last
      -- The first chunk with nothing after it is all that the child has.
      have left : w.node.remaining d = [] := by simpa [more] using stands.more
      rw [start chunk, left, List.nil_append, List.append_nil] at parts
      have shows : w.wheel d context = ⟨column (w.entries.drop w.cursor), column w.entries⟩ := by
        rw [Window.wheel, left, List.append_nil, parts]
      rw [List.map_cons, shows]
      exact .front ⟨chunk, more, parts ▸ stands.current⟩ (ih others fronts last)

/-- If a node is calm when it is cancelled, it comes to a beginning of the rows that it has left. -/
theorem Calm.fades (calm : n.Calm) (settled : n.Valid d) (dataset : n.OfDataset) :
    Fades d n (n.remaining d) := by
  induction calm with
  | @intro n fronts _ ih =>
    have windows (combines : n.state.combines) : Window.Fade (Fades d) n.children
        (n.children.map (Window.wheel d (n.own.extendAbsent n.context))) := by
      refine fade_of_stands (settled.standing.windows combines).2 (fronts combines)
        fun w member more => ?_
      have there : w ∈ n.children := List.mem_of_mem_getLast? member
      exact ih combines w member more (settled.children w there) (dataset.children w there)
    by_cases exhausted : n.state = .exhausted
    · exact fades_of_idle dataset.silent (.inl exhausted) _
    · have left : n.remaining d = n.due d
          (n.children.map (Window.wheel d (n.own.extendAbsent n.context))) (n.fresh d) := by
        rw [remaining_eq, due]
        cases state : n.state with
        | exhausted => exact absurd state exhausted
        | active phase => cases phase <;> rfl
        | ready phase => cases phase <;> rfl
      exact .intro dataset.silent windows left

/-! ## Main statements -/

theorem Throughout.after {Q : Bool → Nat → Prop} (h : n.Throughout Q) (env : Env)
    (steps : List Step) : (n.after env steps).Throughout Q := by
  induction steps generalizing n with
  | nil => exact h
  | cons step rest ih => exact ih (h.perform env step)

/-- A tree that was settled and opened stands as it should. -/
theorem opened_spec (built : n.Built) (env : Env) (incoming : AttributeOrder) :
    ((n.init env.dataset incoming).2.perform env .open).2.Valid env.dataset := by
  obtain ⟨_, root, opened, sought⟩ := open_spec (valid_init built env.dataset incoming)
  have same : (n.init env.dataset incoming).2.perform env .open = (.done, root) := by
    rw [perform, opened]
  rw [same]
  exact sought.valid

/-- What was handed out before and what is handed out after a calm node is cancelled is a beginning
of the rows that were left. -/
theorem taken_append_isPrefix (valid : d.Valid) (settled : n.Valid d) (dataset : n.OfDataset)
    (first : ∀ step ∈ steps, step.Draws) {later : List Step} (second : ∀ step ∈ later, step.Draws)
    (calm : (n.after { dataset := d } steps).Calm) :
    n.taken { dataset := d } steps
      ++ (n.after { dataset := d } steps).taken { dataset := d, cancelled := true } later
        <+: n.remaining d := by
  let live : Env := { dataset := d }
  let cancelled : Env := { dataset := d, cancelled := true }
  have valid : live.dataset.Valid := valid
  obtain ⟨settled', split⟩ := taken_append_remaining valid rfl settled first
  have fades : Fades cancelled.dataset (n.after live steps) _ :=
    calm.fades settled' (dataset.after live steps)
  rw [← split]
  exact (List.prefix_append_right_inj _).2
    (fades.taken_isPrefix rfl (settled'.bounded valid) second)

/-- A tree of scans of the dataset that is calm when it is cancelled hands out, before and after, a
beginning of the rows that it hands out otherwise. -/
theorem cancelled_isPrefix (reachable : d.Reachable) (built : n.Built) (indexed : n.Indexed)
    (incoming : AttributeOrder) (first : ∀ step ∈ steps, step.Draws) {later : List Step}
    (second : ∀ step ∈ later, step.Draws) :
    let live : Env := { dataset := d }
    let cancelled : Env := { dataset := d, cancelled := true }
    let root := ((n.init d incoming).2.perform live .open).2
    (root.after live steps).Calm →
      ∃ rows, root.HandsOut live rows ∧
        root.taken live steps ++ (root.after live steps).taken cancelled later <+: rows := by
  intro live cancelled root calm
  have valid : live.dataset.Valid := reachable.valid
  have settled : root.Valid live.dataset := opened_spec built live incoming
  have dataset : root.OfDataset := (indexed.ofDataset.init d incoming).perform live .open
  exact ⟨_, handsOut_remaining valid rfl settled,
    taken_append_isPrefix valid settled dataset first second calm⟩

/-- The first child has all of its rows in its window, and the second one has a row pending. -/
theorem cancelled_isPrefix_pending :
    let d := (Dataset.empty.addAll [⟨.iri "a", .iri "p", .iri "b", none⟩,
      ⟨.iri "b", .iri "q", .iri "c", none⟩, ⟨.iri "b", .iri "r", .iri "d", none⟩,
      ⟨.iri "b", .iri "r", .iri "e", none⟩, ⟨.iri "b", .iri "r", .iri "f", none⟩]).2
    let node (s p o : String) : Node := ofScan (.index
      { pattern := ⟨[.triple (.var ⟨s⟩) (.term (.iri p)) (.var ⟨o⟩)]⟩ }) 2
    let n := ((node "s" "p" "o").addChild (node "o" "q" "x")).addChild (node "o" "r" "y")
    let live : Env := { dataset := d }
    let cancelled : Env := { dataset := d, cancelled := true }
    let root := ((n.init d ∅).2.perform live .open).2
    let first : List Step := [.advance, .take]
    (root.after live first).Calm ∧ ∃ rows, root.HandsOut live rows ∧
      root.taken live first ++ (root.after live first).taken cancelled
        [.advance, .take, .advance, .take, .advance, .take] <+: rows := by
  intro d node n live cancelled root first
  have built : n.Built := .addChild (.addChild (.ofScan (Scan.unused_index _) 2)
    (.ofScan (Scan.unused_index _) 2)) (.ofScan (Scan.unused_index _) 2)
  have indexed : n.Indexed := by
    refine .intro rfl (List.forall_mem_cons.2 ⟨?_, List.forall_mem_singleton.2 ?_⟩) <;>
      exact .intro rfl nofun
  have calm : (root.after live first).Calm := by
    have leaves : ∀ w ∈ (root.after live first).children.getLast?, w.node.children.length = 0 := by
      decide +kernel
    refine .intro (fun _ => by decide +kernel) fun _ w member _ => ?_
    have none := List.eq_nil_of_length_eq_zero (leaves w member)
    exact .intro (fun _ => by simp [none]) fun _ => by simp [none]
  exact ⟨calm, cancelled_isPrefix (.addAll .empty _) built indexed ∅ (by simp [first, Step.Draws])
    (by simp [Step.Draws]) calm⟩

/-- No node has more than one child. -/
def OnlyChildren (n : Node) : Prop :=
  n.Throughout fun _ count => count ≤ 1

/-- An only child has no window in front of it. -/
theorem OnlyChildren.calm (h : n.OnlyChildren) : n.Calm := by
  induction h with
  | @intro n few _ ih =>
    refine .intro (fun _ w member => ?_) fun _ w member _ => ih w (List.mem_of_mem_getLast? member)
    have none : n.children.dropLast = [] := List.eq_nil_of_length_eq_zero (by simp; omega)
    rw [none] at member
    cases member

/-- Whatever the capacities and wherever it is cancelled, a tree without siblings hands out a
beginning of its rows. -/
theorem OnlyChildren.taken_isPrefix (reachable : d.Reachable) (built : n.Built)
    (indexed : n.Indexed) (alone : n.OnlyChildren) (incoming : AttributeOrder)
    (first : ∀ step ∈ steps, step.Draws) {later : List Step} (second : ∀ step ∈ later, step.Draws) :
    let live : Env := { dataset := d }
    let cancelled : Env := { dataset := d, cancelled := true }
    let root := ((n.init d incoming).2.perform live .open).2
    ∃ rows, root.HandsOut live rows ∧
      root.taken live steps ++ (root.after live steps).taken cancelled later <+: rows := by
  intro live cancelled root
  have valid : live.dataset.Valid := reachable.valid
  have settled : root.Valid live.dataset := opened_spec built live incoming
  have dataset : root.OfDataset := (indexed.ofDataset.init d incoming).perform live .open
  have opened : root.OnlyChildren := (alone.init d incoming).perform live .open
  have calm : (root.after live steps).Calm := OnlyChildren.calm (opened.after live steps)
  exact ⟨_, handsOut_remaining valid rfl settled,
    taken_append_isPrefix valid settled dataset first second calm⟩

/-- The first of two optional children is filled anew after it was cancelled. A row without its
variable is handed out that does not come up otherwise. -/
theorem cancelled_not_isPrefix :
    let d := (Dataset.empty.addAll [⟨.iri "a", .iri "p", .iri "b", none⟩,
      ⟨.iri "b", .iri "q", .iri "c", none⟩, ⟨.iri "b", .iri "q", .iri "d", none⟩,
      ⟨.iri "b", .iri "r", .iri "e", none⟩, ⟨.iri "b", .iri "r", .iri "f", none⟩]).2
    let node (s p o : String) : Node := ofScan (.index
      { pattern := ⟨[.triple (.var ⟨s⟩) (.term (.iri p)) (.var ⟨o⟩)]⟩ }) 1
    let n := ((node "s" "p" "o").addChild (node "o" "q" "x")).addChild (node "o" "r" "y")
    let live : Env := { dataset := d }
    let cancelled : Env := { dataset := d, cancelled := true }
    let root := ((n.init d ∅).2.perform live .open).2
    let first : List Step := [.advance, .take, .advance, .take]
    ∃ rows, n.Built ∧ n.Indexed ∧ root.HandsOut live rows ∧
      (root.after live first).taken cancelled [.advance, .take]
        = [Binding.ofRow [⟨"s"⟩, ⟨"o"⟩, ⟨"y"⟩] [1, 3, 9]] ∧
      ¬ root.taken live first ++ (root.after live first).taken cancelled [.advance, .take]
        <+: rows := by
  intro d node n live cancelled root first
  let row (x y : TermId) : Binding :=
    .ofRow [⟨"s"⟩, ⟨"o"⟩, ⟨"x"⟩, ⟨"y"⟩] [1, 3, x, y]
  have built : n.Built := .addChild (.addChild (.ofScan (Scan.unused_index _) 1)
    (.ofScan (Scan.unused_index _) 1)) (.ofScan (Scan.unused_index _) 1)
  have indexed : n.Indexed := by
    refine .intro rfl (List.forall_mem_cons.2 ⟨?_, List.forall_mem_singleton.2 ?_⟩) <;>
      exact .intro rfl nofun
  exact ⟨[row 5 8, row 6 8, row 5 9, row 6 9], built, indexed, by decide +kernel, by decide +kernel,
    by decide +kernel⟩

end Node

end QuadQuery
