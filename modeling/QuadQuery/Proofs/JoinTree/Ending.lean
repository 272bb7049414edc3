import QuadQuery.Proofs.JoinTree.Budgets
import QuadQuery.Proofs.JoinTree.Cancellation

/-!
# Every advance ends

Whatever has happened to the root of a join tree, also when contexts were sought with wrong hints,
scans have refused or the query was cancelled in between, the next row is found or not after as many
turns as the tree shows, and there are only so many rows to come (`Node.advance_ends`).
-/

namespace QuadQuery

/-! ## Scans -/

namespace Scan

variable {d : Dataset} {s s' : Scan}

theorem open_bounds (bounded : s.Bounded d) {result : Except Failure Unit}
    (opened : s.open d = (result, s')) : s'.Bounded d := by
  cases s with
  | fixed s =>
    cases opened
    trivial
  | index s =>
    simp only [Scan.open, IndexScan.open] at opened
    split at opened
    · next s' derived =>
      cases opened
      split at derived <;> cases derived
      exact bounded
    · cases opened
      exact bounded

theorem bounded_init (valid : d.Valid) (s : Scan) (incoming : AttributeOrder) :
    (s.init d incoming).2.Bounded d := by
  cases s with
  | fixed s => trivial
  | index s => exact bounded_index valid (IndexScan.initialized_init s d incoming)

end Scan

namespace Node

variable {d : Dataset} {n n' : Node} {env : Env}

/-! ## Histories -/

mutual

/-- Once the order of variables is settled all scans keep to their limits. -/
theorem bounded_init (valid : d.Valid) (incoming : AttributeOrder) :
    (n : Node) → (n.init d incoming).2.Bounded d
  | ⟨scan, _, _, children, _, _, _, _, _, _, _, _, _⟩ =>
    .intro (scan.bounded_init valid incoming) (bounded_initAll valid _ children)

theorem bounded_initAll (valid : d.Valid) (incoming : AttributeOrder) :
    (ws : List (Window Node)) → ∀ w ∈ (initAll d incoming ws).2, w.node.Bounded d
  | [] => nofun
  | ⟨node, _, _, _, _⟩ :: rest =>
    List.forall_mem_cons.2 ⟨bounded_init valid incoming node, bounded_initAll valid _ rest⟩

end

theorem open_bounds (bounded : n.Bounded env.dataset) : (n.open env).2.Bounded env.dataset := by
  unfold Node.open
  dsimp only
  split
  · exact ⟨bounded.scan, bounded.children⟩
  · split <;>
    · next opened => exact ⟨Scan.open_bounds bounded.scan opened, bounded.children⟩

/-- Whatever is done to a node, its scans keep to their limits. -/
theorem Bounded.perform (bounded : n.Bounded env.dataset) (step : Step) :
    (n.perform env step).2.Bounded env.dataset := by
  cases step with
  | «open» =>
    have opened := open_bounds bounded
    simp only [Node.perform]
    split <;> (next same => rw [same] at opened; exact opened)
  | seek context firstChanged =>
    simp only [Node.perform]
    split <;> (next same => exact (seek_bounds bounded rfl same).2.1)
  | reset => exact (reset_bounds bounded).1.bounded
  | advance =>
    have advanced := (advance_bounds bounded).bounded
    simp only [Node.perform]
    split <;> (next same => rw [same] at advanced; exact advanced)
  | take =>
    by_cases ready : ∃ phase, n.state = .ready phase
    · obtain ⟨phase, pending⟩ := ready
      obtain ⟨row, n', taken, noMore, _⟩ := take_bounds bounded pending
      rw [perform_take taken]
      exact noMore.bounded
    · rwa [perform_take_of_none (not_exists.1 ready)]

/-- What can happen to the root of a join tree while its query runs. -/
inductive Event where
  | step (step : Step)
  /-- The query is cancelled. -/
  | cancel

/-- The surroundings and the root after an event. -/
def occur : Env × Node → Event → Env × Node
  | (env, n), .step step => (env, (n.perform env step).2)
  | (env, n), .cancel => ({ env with cancelled := true }, n)

/-- No event changes the dataset or makes a scan exceed its limit. -/
theorem Bounded.occur {events : List Event} {now : Env × Node} (here : now.1.dataset = d)
    (bounded : now.2.Bounded d) :
    (events.foldl Node.occur now).1.dataset = d ∧ (events.foldl Node.occur now).2.Bounded d := by
  induction events generalizing now with
  | nil => exact ⟨here, bounded⟩
  | cons event rest ih =>
    subst here
    cases event with
    | step step => exact ih rfl (bounded.perform step)
    | cancel => exact ih rfl bounded

/-! ## The rows to come -/

/-- Asked for one row after the other, the node hands out these, and then the reply is another. -/
def Drains (env : Env) (n : Node) (rows : List Binding) (last : Reply) : Prop :=
  n.replies env (rows.flatMap (fun _ => [.advance, .take]) ++ [.advance])
    = rows.flatMap (fun row => [.found true, .row row]) ++ [last]

/-- Each row that is taken lowers the work ahead, so there is a last one. -/
theorem exists_drains (bounded : n.Bounded env.dataset) :
    ∃ rows last, (last = .found false ∨ last = .failed) ∧
      rows.length ≤ (n.work env.dataset).ahead ∧ n.Drains env rows last := by
  induction ahead : (n.work env.dataset).ahead using Nat.strong_induction_on generalizing n with
  | _ ahead ih =>
    subst ahead
    obtain ⟨_, kept, less, ready⟩ := advance_bounds bounded
    rcases advanced : n.advance env with ⟨failure | _ | _, n'⟩ <;>
      simp only [advanced] at kept less ready
    · refine ⟨[], .failed, .inr rfl, Nat.zero_le _, ?_⟩
      simp only [Drains, List.flatMap_nil, List.nil_append, replies, perform, advanced]
    · refine ⟨[], .found false, .inl rfl, Nat.zero_le _, ?_⟩
      simp only [Drains, List.flatMap_nil, List.nil_append, replies, perform_advance advanced]
    · obtain ⟨phase, pending⟩ := ready trivial
      obtain ⟨row, n'', taken, noMore, one⟩ := take_bounds kept pending
      have fewer := (less true rfl).2
      obtain ⟨rows, last, ends, few, drains⟩ := ih _ (by omega) noMore.bounded rfl
      refine ⟨row :: rows, last, ends, by simp only [List.length_cons]; omega, ?_⟩
      simp only [Drains] at drains
      simp only [Drains, List.flatMap_cons, List.cons_append, List.nil_append, replies,
        perform_advance advanced, perform_take taken, drains]

/-- After any events the next attempt to advance the root ends: no larger budget changes what it
comes to. Asked for row after row from there, the root comes to its end or to a failure after as
many rows as it has work ahead. -/
theorem advance_ends (reachable : d.Reachable) (n : Node) (incoming : AttributeOrder)
    (events : List Event) :
    let now := events.foldl occur ({ dataset := d }, (n.init d incoming).2)
    (now.2.advance now.1).1 ≠ .error .outOfSteps ∧
      (∀ budget, now.2.budget d ≤ budget →
        now.2.advanceWithin now.1 budget = now.2.advance now.1) ∧
      ∃ rows last, (last = .found false ∨ last = .failed) ∧
        rows.length ≤ (now.2.work d).ahead ∧ now.2.Drains now.1 rows last := by
  intro now
  obtain ⟨here, bounded⟩ : now.1.dataset = d ∧ now.2.Bounded d :=
    Bounded.occur rfl (bounded_init reachable.valid incoming n)
  rw [← here] at bounded ⊢
  have steps := (advance_bounds bounded).steps
  exact ⟨steps, fun _ more => advanceWithin_extends now.1 more now.2 steps, exists_drains bounded⟩

/-- A wrong hint, and a second child that refuses to be moved: the failure is found in the end, with
any budget above the one that the tree shows. -/
theorem advance_ends_refused :
    let d := (Dataset.empty.addAll [⟨.iri "a", .iri "p", .iri "b", none⟩,
      ⟨.iri "b", .iri "q", .iri "c", none⟩, ⟨.iri "b", .iri "q", .iri "d", none⟩]).2
    let node (s p o : String) : Node := ofScan (.index
      { pattern := ⟨[.triple (.var ⟨s⟩) (.term (.iri p)) (.var ⟨o⟩)]⟩ }) 1
    let refusing : Node := ofScan (.fixed { vars := [⟨"y"⟩], rows := [[1]], seekRefusal := "no" }) 1
    let n := ((node "s" "p" "o").addChild (node "o" "q" "x")).addChild refusing
    let events : List Event := [.step .open, .step .advance, .step .take,
      .step (.seek (.ofRow [⟨"s"⟩] [1]) 0), .step (.seek (.ofRow [⟨"s"⟩] [7]) 5), .step .reset]
    let now := events.foldl occur ({ dataset := d }, (n.init d ⟨[⟨"s"⟩]⟩).2)
    d.Reachable ∧ (now.2.advance now.1).1 = .error (.scan (.refused "no")) ∧
      ∀ budget, now.2.budget d ≤ budget →
        (now.2.advanceWithin now.1 budget).1 = .error (.scan (.refused "no")) := by
  intro d node refusing n events now
  have reachable : d.Reachable := .addAll .empty _
  obtain ⟨_, same, _⟩ := advance_ends reachable n ⟨[⟨"s"⟩]⟩ events
  have refused : (now.2.advance now.1).1 = .error (.scan (.refused "no")) := by decide +kernel
  exact ⟨reachable, refused, fun budget more => (congrArg Prod.fst (same budget more)).trans refused⟩

end Node

end QuadQuery
