import QuadQuery.Proofs.JoinTree.Shuffling

/-!
# Queries whose patterns are shuffled

The order in which the quad patterns of a basic pattern are written is of no account: whatever the
order, and however the session reorders patterns and bounds its windows, a query returns the same
rows as many times each (`Session.perm_rows_of_shuffled`).
-/

namespace QuadQuery

namespace Algebra

variable {settings settings' : Settings} {op op' : Algebra} {n : Node}

/-- The queries differ at most in the order of the quad patterns of each basic pattern. -/
inductive Shuffled : Algebra → Algebra → Prop
  | bgp {pattern pattern' : BasicPattern} (perm : pattern.patterns.Perm pattern'.patterns) :
    Shuffled (.bgp pattern) (.bgp pattern')
  | quadPattern (graph : Slot) {pattern pattern' : BasicPattern}
      (perm : pattern.patterns.Perm pattern'.patterns) :
    Shuffled (.quadPattern graph pattern) (.quadPattern graph pattern')
  | leftJoin {left left' right right' : Algebra} (first : Shuffled left left')
      (second : Shuffled right right') (exprs : List Expr) :
    Shuffled (.leftJoin left right exprs) (.leftJoin left' right' exprs)
  | conditional {left left' right right' : Algebra} (first : Shuffled left left')
      (second : Shuffled right right') :
    Shuffled (.conditional left right) (.conditional left' right')
  | filter (exprs : List Expr) {sub sub' : Algebra} (first : Shuffled sub sub') :
    Shuffled (.filter exprs sub) (.filter exprs sub')

theorem Shuffled.refl : (op : Algebra) → op.Supported → op.Shuffled op
  | .bgp _, _ => .bgp (.refl _)
  | .quadPattern graph _, _ => .quadPattern graph (.refl _)
  | .leftJoin left right exprs, ⟨first, second⟩ =>
    .leftJoin (refl left first) (refl right second) exprs
  | .conditional left right, ⟨first, second⟩ => .conditional (refl left first) (refl right second)
  | .filter exprs sub, supported => .filter exprs (refl sub supported)

theorem shuffled_leaf (settings settings' : Settings) {pattern pattern' : BasicPattern}
    (perm : pattern.patterns.Perm pattern'.patterns) :
    (leaf settings pattern).Shuffled (leaf settings' pattern') := by
  have reordered : (settings.reorder.apply pattern).patterns.Perm
      (settings'.reorder.apply pattern').patterns :=
    ((settings.reorder.perm_apply pattern).trans perm).trans
      (settings'.reorder.perm_apply pattern').symm
  exact .intro rfl rfl reordered rfl rfl rfl nofun

/-- Shuffled queries have shuffled plans, whatever settings they are planned with. -/
theorem Shuffled.exists_plans (settings' : Settings) (shuffled : op.Shuffled op')
    (plans : Plans settings op n) : ∃ n', Plans settings' op' n' ∧ n.Shuffled n' := by
  induction plans generalizing op' with
  | bgp pattern =>
    obtain ⟨perm⟩ := shuffled
    exact ⟨_, .bgp _, shuffled_leaf _ _ perm⟩
  | quadPattern graph pattern =>
    cases shuffled with
    | quadPattern graph perm =>
      exact ⟨_, .quadPattern graph _, shuffled_leaf _ _ (perm.map (QuadPattern.inGraph · graph))⟩
  | leftJoin _ _ exprs first second =>
    cases shuffled with
    | leftJoin left right exprs =>
      obtain ⟨root, plansRoot, sameRoot⟩ := first left
      obtain ⟨child, plansChild, sameChild⟩ := second right
      exact ⟨_, .leftJoin plansRoot plansChild exprs, sameRoot.addChild (sameChild.addFilters exprs)⟩
  | conditional _ _ first second =>
    cases shuffled with
    | conditional left right =>
      obtain ⟨root, plansRoot, sameRoot⟩ := first left
      obtain ⟨child, plansChild, sameChild⟩ := second right
      exact ⟨_, .conditional plansRoot plansChild, sameRoot.addChild sameChild⟩
  | filter exprs _ first =>
    cases shuffled with
    | filter exprs sub =>
      obtain ⟨node, plansNode, sameNode⟩ := first sub
      exact ⟨_, .filter exprs plansNode, sameNode.addFilters exprs⟩

end Algebra

namespace Session

variable {s s' : Session} {op op' : Algebra}

/-- Sessions whose datasets differ in the numbers of terms alone return what the same bindings
stand for in the one and in the other. -/
theorem exists_answers_of_shuffled (reachable : s.dataset.Reachable)
    (reachable' : s'.dataset.Reachable) (r : s.dataset.Renumbering s'.dataset)
    (supported : op.Supported) (shuffled : op.Shuffled op') :
    ∃ (answers : List Binding) (rows rows' : List Solution),
      (∀ b ∈ answers, b.Known s.dataset) ∧ s.runNow op = .ok rows ∧ s'.runNow op' = .ok rows' ∧
      (rows.map .ok).Perm (answers.map (Solution.ofBinding s.dataset.terms)) ∧
      (rows'.map .ok).Perm
        (answers.map fun b => Solution.ofBinding s'.dataset.terms (b.renumber r.forth)) := by
  obtain ⟨n, plans⟩ := Algebra.exists_plans s.settings op supported
  obtain ⟨n', plans', same⟩ := shuffled.exists_plans s'.settings plans
  obtain ⟨rows, returned, all⟩ := s.runNow_spec reachable plans
  obtain ⟨rows', returned', all'⟩ := s'.runNow_spec reachable' plans'
  have indexed := plans.built.2
  have known : (∅ : Binding).Known s.dataset := fun v id value => by simp at value
  have perm := same.perm_answers r reachable.valid reachable'.valid indexed known
  rw [Binding.renumber_empty] at perm
  refine ⟨n.answers s.dataset ∅, rows, rows', fun b member => indexed.known reachable.valid member,
    returned, returned', all, all'.trans ?_⟩
  have solutions := perm.symm.map (Solution.ofBinding s'.dataset.terms)
  rwa [List.map_map] at solutions

/-- Neither the order of quad patterns nor the settings have a bearing on which rows a query
returns, and how often each. -/
theorem perm_rows_of_shuffled (reachable : s.dataset.Reachable) (same : s'.dataset = s.dataset)
    (supported : op.Supported) (shuffled : op.Shuffled op') :
    ∃ rows rows', s.runNow op = .ok rows ∧ s'.runNow op' = .ok rows' ∧ rows.Perm rows' := by
  obtain ⟨r, unchanged⟩ : ∃ r : s.dataset.Renumbering s'.dataset, r.forth = id := by
    rw [same]
    exact ⟨.refl s.dataset, rfl⟩
  obtain ⟨answers, rows, rows', -, returned, returned', all, all'⟩ :=
    exists_answers_of_shuffled reachable (same ▸ reachable) r supported shuffled
  simp only [unchanged, Binding.renumber_id, same] at all'
  exact ⟨rows, rows', returned, returned',
    (List.map_perm_map_iff fun _ _ => Except.ok.inj).1 (all.trans all'.symm)⟩

/-- A required pattern of two quad patterns, an optional branch that shares variables with it and a
filter that sees both. -/
theorem perm_rows_of_shuffled_triangle :
    let triple (subject predicate object : String) : QuadPattern :=
      .triple (.var ⟨subject⟩) (.term (.iri predicate)) (.var ⟨object⟩)
    let query (pattern optional : List QuadPattern) : Algebra :=
      .filter [.compare .ne (.var ⟨"x"⟩) (.var ⟨"z"⟩)]
        (.leftJoin (.bgp ⟨pattern⟩) (.bgp ⟨optional⟩) [.bound ⟨"w"⟩])
    let op := query [triple "x" "p" "y", triple "y" "p" "z"] [triple "z" "p" "w", triple "x" "p" "w"]
    let op' := query [triple "y" "p" "z", triple "x" "p" "y"] [triple "x" "p" "w", triple "z" "p" "w"]
    let dataset := (Dataset.empty.addAll [⟨.iri "a", .iri "p", .iri "b", none⟩,
      ⟨.iri "b", .iri "p", .iri "c", none⟩, ⟨.iri "c", .iri "p", .iri "b", none⟩]).2
    let s : Session := { dataset, settings := {} }
    let s' : Session := { dataset, settings := { reorder := .asWritten, capacity := 1 } }
    ∃ rows rows', s.runNow op = .ok rows ∧ s'.runNow op' = .ok rows' ∧ rows.Perm rows' :=
  perm_rows_of_shuffled (.addAll .empty _) rfl ⟨trivial, trivial⟩
    (.filter _ (.leftJoin (.bgp (.swap ..)) (.bgp (.swap ..)) _))

end Session

end QuadQuery
