import QuadQuery.Proofs.Execution
import QuadQuery.Proofs.JoinTree.Joined

/-!
# Rows and the patterns they come from

A row that a session returns makes the required pattern hold, and with it the pattern of every
branch that contributed to the row, as long as none of its variables is shadowed
(`Session.runNow_contributions`). Where the operands of left joins share variables that are first
bound beside them, the value that came first is kept, and neither the later match nor those below it
need be found in the row.
-/

namespace QuadQuery

namespace Session

/-- The rows that a session returns are merged from matches, all of which but the shadowed ones
still match with the values of the row. -/
theorem runNow_contributions {s : Session} (reachable : s.dataset.Reachable) {op : Algebra}
    (supported : op.Supported) : ∃ n solutions, op.plan s.settings = .ok n ∧
      s.runNow op = .ok solutions ∧ (solutions.map .ok).Perm
        ((n.joins s.dataset ∅).map fun t => Solution.ofBinding s.dataset.terms t.row) ∧
      ∀ t ∈ n.joins s.dataset ∅, op.required.HoldsIn s.dataset t.row ∧
        ∀ c ∈ t.contributions [] [], c.Kept s.dataset t.row ∧
          ((∀ v ∈ c.pattern.vars, v ∉ c.shadowed) → c.pattern.HoldsIn s.dataset t.row) := by
  have valid := reachable.valid
  obtain ⟨n, plans⟩ := Algebra.exists_plans s.settings op supported
  obtain ⟨solutions, returned, all⟩ := s.runNow_spec reachable plans
  refine ⟨n, solutions, Algebra.plan_eq_ok plans, returned, ?_, fun t member => ?_⟩
  · rw [← Node.map_row_joins, List.map_map] at all
    exact all
  · have kept : ∀ c ∈ t.contributions [] [], c.Kept s.dataset t.row :=
      plans.built.2.contributions_spec valid member (List.forall_mem_nil _) fun v _ i value => value
    refine ⟨?_, fun c there => ⟨kept c there, (kept c there).holdsIn⟩⟩
    obtain ⟨own, first, branches, rfl, _⟩ := Node.mem_joins member
    have root := (kept _ List.mem_cons_self).holdsIn fun _ _ => List.not_mem_nil
    rw [plans.scan] at root
    exact (s.settings.reorder.holdsIn_apply _).1 root

/-- Two optional branches give a variable different values. It is shadowed for the second branch, and for
the branch below that as well, although the pattern in between has the variable. -/
theorem runNow_contributions_nested :
    let triple (subject predicate object : String) : Algebra :=
      .bgp ⟨[.triple (.var ⟨subject⟩) (.term (.iri predicate)) (.var ⟨object⟩)]⟩
    let op : Algebra := .conditional (.conditional (triple "s" "p" "o") (triple "o" "q" "v"))
      (.conditional (triple "o" "r" "v") (triple "v" "t" "w"))
    let s : Session := {
      dataset := (Dataset.empty.addAll [⟨.iri "a", .iri "p", .iri "b", none⟩,
        ⟨.iri "b", .iri "q", .iri "c", none⟩, ⟨.iri "b", .iri "r", .iri "d", none⟩,
        ⟨.iri "d", .iri "t", .iri "e", none⟩]).2
      settings := {} }
    ∃ n solutions, op.plan s.settings = .ok n ∧ s.runNow op = .ok solutions ∧
      (solutions.map .ok).Perm
        ((n.joins s.dataset ∅).map fun t => Solution.ofBinding s.dataset.terms t.row) ∧
      (∀ t ∈ n.joins s.dataset ∅, op.required.HoldsIn s.dataset t.row ∧
        ∀ c ∈ t.contributions [] [], c.Kept s.dataset t.row ∧
          ((∀ v ∈ c.pattern.vars, v ∉ c.shadowed) → c.pattern.HoldsIn s.dataset t.row)) ∧
      (n.joins s.dataset ∅).map (fun t => (t.contributions [] []).map (·.shadowed))
        = [[[], [], [⟨"v"⟩], [⟨"v"⟩]]] := by
  intro triple op s
  have reachable : s.dataset.Reachable := .addAll .empty _
  have supported : op.Supported := ⟨⟨trivial, trivial⟩, trivial, trivial⟩
  obtain ⟨n, solutions, planned, returned, all, kept⟩ := runNow_contributions reachable supported
  refine ⟨n, solutions, planned, returned, all, kept, ?_⟩
  cases planned
  decide +kernel

/-- An optional branch that starts from what an earlier one binds is matched without regard to it,
and its match is not to be found in the row. -/
theorem runNow_shadowed :
    let triple (subject predicate object : String) : Algebra :=
      .bgp ⟨[.triple (.var ⟨subject⟩) (.term (.iri predicate)) (.var ⟨object⟩)]⟩
    let op : Algebra := .leftJoin (.leftJoin (triple "s" "p" "o") (triple "o" "q" "x") [])
      (triple "x" "r" "y") []
    let s : Session := {
      dataset := (Dataset.empty.addAll [⟨.iri "a", .iri "p", .iri "b", none⟩,
        ⟨.iri "b", .iri "q", .iri "c", none⟩, ⟨.iri "d", .iri "r", .iri "e", none⟩]).2
      settings := {} }
    s.runNow op = .ok [⟨[(⟨"o"⟩, .iri "b"), (⟨"s"⟩, .iri "a"), (⟨"x"⟩, .iri "c"),
      (⟨"y"⟩, .iri "e")]⟩] ∧
    ∃ n, op.plan s.settings = .ok n ∧ ∃ t ∈ n.joins s.dataset ∅,
      ∃ c ∈ t.contributions [] [], ¬ c.pattern.HoldsIn s.dataset t.row :=
  ⟨by decide +kernel, _, rfl, by decide +kernel⟩

end Session

end QuadQuery
