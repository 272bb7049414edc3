import QuadQuery.Proofs.JoinTree.Ordering
import QuadQuery.Proofs.JoinTree.Retrying

/-!
# Opening the root after a failure

A root that is opened forgets where it moved its children, and so the first hint that it gives them
says nothing. The nodes below the root are not opened and forget nothing. As long as they have nothing
to remember, opening the root undoes a failure (`Node.reopened_sublist`). Otherwise it may not: what a
child remembers can be out of date after a failure further down, and the child acts on it once it is
moved again (`Node.reopen_after_failure_not_mem`).
-/

namespace QuadQuery

namespace Node

variable {d : Dataset} {V : List Variable} {K : Row} {n m : Node} {env : Env}
  {earlier later steps : List Step}

/-! ## Nodes that remember nothing -/

/-- Whenever the node is opened in the steps, no node below it remembers where it moved its
children. -/
def OpensForgetful (env : Env) : Node → List Step → Prop
  | _, [] => True
  | n, step :: rest =>
    (step = .open → ∀ c ∈ childNodes n.children, c.childContext = none) ∧
    OpensForgetful env (n.perform env step).2 rest

theorem opensForgetful_append : OpensForgetful env n (earlier ++ later) ↔
    OpensForgetful env n earlier ∧ OpensForgetful env (n.after env earlier) later := by
  induction earlier generalizing n with
  | nil => exact (iff_of_eq (true_and _)).symm
  | cons step rest ih =>
    rw [List.cons_append, OpensForgetful, OpensForgetful, ih, and_assoc]
    rfl

/-- Where nothing is remembered nothing is out of date, at whatever row of the root. -/
theorem Shadows.forget {right : Prop} {row : Row} (h : Shadows V K right n m)
    (forgetful : ∀ c ∈ n.nodes, c.childContext = none) : Shadows V row True n m := by
  induction h with
  | intro twin below _ _ length _ ih =>
    rw [nodes_eq] at forgetful
    obtain ⟨none, others⟩ := List.forall_mem_cons.1 forgetful
    refine .intro twin below (none ▸ dated_none V row _) (fun _ => none ▸ hinted_none V row _) length
      fun w v member => ih w v member fun c inside => others c ?_
    exact nodes_subset_childNodes (List.of_mem_zip member).1 inside

/-! ## Runs -/

/-- The root has all of its rows left again. -/
theorem Paired.open (h : Paired env.dataset V n m)
    (forgetful : ∀ c ∈ childNodes n.children, c.childContext = none) :
    ∃ m', Paired env.dataset V (n.perform env .open).2 m' ∧ Alike env.dataset m m' ∧
      m'.remaining env.dataset = m.rows env.dataset ∅ := by
  obtain ⟨K, shadows⟩ := h.shadows
  obtain ⟨length, each⟩ := List.forall₂_iff_zip.1 shadows
  refine h.apex.open env h.twin h.settled fun row => List.forall₂_iff_zip.2 ⟨length, fun member => ?_⟩
  exact (each member).forget fun c inside =>
    forgetful c (nodes_subset_childNodes (List.of_mem_zip member).1 inside)

theorem Paired.after (valid : env.dataset.Valid) (live : env.cancelled = false)
    (h : Paired env.dataset V n m) (goes : ∀ step ∈ steps, step.Draws ∨ step = .open)
    (drawing : FailsDrawing env n steps) (forgetful : OpensForgetful env n steps) :
    ∃ m', Paired env.dataset V (n.after env steps) m' ∧ Alike env.dataset m m' := by
  induction steps generalizing n m with
  | nil => exact ⟨m, h, .refl m⟩
  | cons step rest ih =>
    obtain ⟨first, others⟩ := List.forall_mem_cons.1 goes
    obtain ⟨between, drawing'⟩ := drawing
    obtain ⟨empty, forgetful'⟩ := forgetful
    obtain ⟨m', paired, alike⟩ : ∃ m', Paired env.dataset V (n.perform env step).2 m' ∧
        Alike env.dataset m m' := by
      rcases first with draws | rfl
      · obtain ⟨m', paired, alike, _⟩ := h.draw valid live draws between
        exact ⟨m', paired, alike⟩
      · obtain ⟨m', paired, alike, _⟩ := h.open (empty rfl)
        exact ⟨m', paired, alike⟩
    obtain ⟨m'', paired', alike'⟩ := ih paired others drawing' forgetful'
    exact ⟨m'', paired', alike.trans alike'⟩

/-! ## Main statements -/

/-- A root that scans the dataset may also be opened again after it has failed, as long as no node
below it remembers anything then: what is handed out from there on are rows of the tree, each of them
once and in their order. -/
theorem reopened_sublist (reachable : d.Reachable) (built : n.lenient.Built)
    (dataset : n.scan.needsPlace = true) (inner : n.InnerOfDataset)
    (goes : ∀ step ∈ earlier, step.Draws ∨ step = .open) (draws : ∀ step ∈ later, step.Draws) :
    let env : Env := { dataset := d }
    let root := ((n.init d ∅).2.perform env .open).2
    let again := ((root.after env earlier).perform env .open).2
    FailsDrawing env root earlier → OpensForgetful env root (earlier ++ [.open]) →
      FailsDrawing env again later → (again.taken env later).Sublist ((n.init d ∅).2.rows d ∅) := by
  intro env root again drawing forgetful drawing'
  have valid : env.dataset.Valid := reachable.valid
  obtain ⟨V, m, paired, _, rows⟩ := inner.paired_open built dataset env
  obtain ⟨before, empty, _⟩ := opensForgetful_append.1 forgetful
  obtain ⟨m', paired', alike⟩ := paired.after valid rfl goes drawing before
  obtain ⟨m'', paired'', _, left⟩ := paired'.open (empty rfl)
  rw [← rows, ← alike.rows, ← left]
  exact paired''.taken_sublist valid rfl draws drawing'

/-- The second of three own rows is lost. Opened again, the root hands out the first one anew and then
the third one. -/
theorem reopened_sublist_first_anew :
    let d := (Dataset.empty.addAll [⟨.iri "a", .iri "p", .iri "b", none⟩,
      ⟨.iri "c", .iri "p", .iri "d", none⟩, ⟨.iri "d", .iri "q", .iri "e", none⟩,
      ⟨.iri "f", .iri "p", .iri "g", none⟩]).2
    let node (s p o : String) : Node := ofScan (.index
      { pattern := ⟨[.triple (.var ⟨s⟩) (.term (.iri p)) (.var ⟨o⟩)]⟩ }) 1
    let refusing : Node := ofScan (.fixed
      { vars := [⟨"z"⟩], rows := [[1]], seekRefusal := some "refused" }) 1
    let n := (node "s" "p" "o").addChild ((node "o" "q" "x").addChild refusing)
    let env : Env := { dataset := d }
    let root := ((n.init d ∅).2.perform env .open).2
    let earlier : List Step := [.advance, .take, .advance]
    let later : List Step := [.advance, .take, .advance, .advance, .take]
    let again := ((root.after env earlier).perform env .open).2
    again.replies env later = [.found true, .row (.ofRow [⟨"s"⟩, ⟨"o"⟩] [1, 3]), .failed,
        .found true, .row (.ofRow [⟨"s"⟩, ⟨"o"⟩] [8, 9])] ∧
      (again.taken env later).Sublist ((n.init d ∅).2.rows d ∅) := by
  intro d node refusing n env root earlier later again
  have given : Scan.Unused (.fixed { vars := [⟨"z"⟩], rows := [[1]] }) :=
    ⟨rfl, rfl, rfl, by decide⟩
  have built : n.lenient.Built := .addChild (.ofScan (Scan.unused_index _) 1)
    (.addChild (.ofScan (Scan.unused_index _) 1) (.ofScan given 1))
  have inner : n.InnerOfDataset := by
    refine .intro (.inl rfl) (List.forall_mem_singleton.2 (.intro (.inl rfl) ?_))
    exact List.forall_mem_singleton.2 (.intro (.inr rfl) nofun)
  have goes : ∀ step ∈ earlier, step.Draws ∨ step = .open := by simp [earlier, Step.Draws]
  have draws : ∀ step ∈ later, step.Draws := by simp [later, Step.Draws]
  have drawing : FailsDrawing env root earlier := by
    simp only [earlier, FailsDrawing]
    refine ⟨fun _ => ?_, fun _ => ?_, fun _ => ?_, trivial⟩ <;> decide +kernel
  have forgetful : OpensForgetful env root (earlier ++ [.open]) := by
    simp only [earlier, OpensForgetful, List.cons_append, List.nil_append, reduceCtorEq, false_implies,
      forall_const, true_and, and_true]
    decide +kernel
  have drawing' : FailsDrawing env again later := by
    simp only [later, FailsDrawing]
    refine ⟨fun _ => ?_, fun _ => ?_, fun _ => ?_, fun _ => ?_, fun _ => ?_, trivial⟩ <;>
      decide +kernel
  exact ⟨by decide +kernel, reopened_sublist (.addAll .empty _) built rfl inner goes draws drawing
    forgetful drawing'⟩

/-- The child remembers the first own row, for which it has two rows. At the second own row its first
child is moved and the second one refuses to be. Opened again, the root moves the child to the first
own row. The child takes its first child to be there still, and its rows come with a row of the second
own row. -/
theorem reopen_after_failure_not_mem :
    let d := (Dataset.empty.addAll [⟨.iri "a", .iri "p", .iri "b", none⟩,
      ⟨.iri "b", .iri "q", .iri "c", none⟩, ⟨.iri "b", .iri "q", .iri "d", none⟩,
      ⟨.iri "e", .iri "p", .iri "f", none⟩, ⟨.iri "f", .iri "q", .iri "g", none⟩,
      ⟨.iri "e", .iri "r", .iri "h", none⟩, ⟨.iri "g", .iri "t", .iri "i", none⟩]).2
    let node (s p o : String) : Node := ofScan (.index
      { pattern := ⟨[.triple (.var ⟨s⟩) (.term (.iri p)) (.var ⟨o⟩)]⟩ }) 1
    let refusing : Node := ofScan (.fixed
      { vars := [⟨"z"⟩], rows := [[1]], seekRefusal := some "refused" }) 1
    let n := (node "s" "p" "o").addChild (((node "o" "q" "x").addChild (node "s" "r" "y")).addChild
      ((node "x" "t" "u").addChild refusing))
    let env : Env := { dataset := d }
    let root := ((n.init d ∅).2.perform env .open).2
    let row (x : TermId) := Binding.ofRow [⟨"s"⟩, ⟨"o"⟩, ⟨"x"⟩] [1, 3, x]
    let mixed := Binding.ofRow [⟨"s"⟩, ⟨"o"⟩, ⟨"x"⟩, ⟨"y"⟩] [1, 3, 5, 11]
    n.lenient.Built ∧ n.InnerOfDataset ∧
      root.replies env [.advance, .take, .advance, .take, .advance, .open, .advance, .take]
        = [.found true, .row (row 5), .found true, .row (row 6), .failed, .done, .found true,
          .row mixed] ∧
      mixed ∉ (n.init d ∅).2.rows d ∅ := by
  intro d node refusing n env root row mixed
  have given : Scan.Unused (.fixed { vars := [⟨"z"⟩], rows := [[1]] }) :=
    ⟨rfl, rfl, rfl, by decide⟩
  have leaf (s p o : String) : (node s p o).lenient.Built := .ofScan (Scan.unused_index _) 1
  have built : n.lenient.Built := .addChild (leaf ..)
    (.addChild (.addChild (leaf ..) (leaf ..)) (.addChild (leaf ..) (.ofScan given 1)))
  have inner : n.InnerOfDataset := by
    refine .intro (.inl rfl) (List.forall_mem_singleton.2 (.intro (.inl rfl) ?_))
    refine List.forall_mem_cons.2 ⟨.intro (.inl rfl) nofun, List.forall_mem_singleton.2 ?_⟩
    exact .intro (.inl rfl) (List.forall_mem_singleton.2 (.intro (.inr rfl) nofun))
  exact ⟨built, inner, by decide +kernel, by decide +kernel⟩

end Node

end QuadQuery
