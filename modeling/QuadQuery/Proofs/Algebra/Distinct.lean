import QuadQuery.Proofs.Algebra.LoadingOrder
import QuadQuery.Proofs.JoinTree.Distinct

/-!
# Queries whose rows are distinct

Two optional branches of one node may share variables of the pattern of that node and of those
further out. If they share no others, a session returns no solution twice, not even in different
spellings (`Session.nodup_runNow`).
-/

namespace QuadQuery

namespace Algebra

variable {settings : Settings} {op left right : Algebra} {n root child : Node}
  {outer : List Variable}

/-- The variables of the optional branches at the node of the required pattern. -/
def branchVars : Algebra → List Variable
  | .leftJoin left right _ | .conditional left right => left.branchVars ++ right.patternVars
  | .filter _ sub => sub.branchVars
  | .bgp _ | .quadPattern .. | .join .. | .union .. | .sequence _ | .project .. | .distinct _ => []

/-- What two optional branches of one node share is in the required pattern of that node or in one
further out, given the variables of those further out. -/
def Apart (outer : List Variable) : Algebra → Prop
  | .leftJoin left right _ | .conditional left right =>
    (∀ v ∈ left.branchVars, v ∈ right.patternVars → v ∈ left.required.vars ++ outer) ∧
    left.Apart outer ∧ right.Apart (left.required.vars ++ outer)
  | .filter _ sub => sub.Apart outer
  | .bgp _ | .quadPattern .. | .join .. | .union .. | .sequence _ | .project .. | .distinct _ => True

instance decidableApart : (op : Algebra) → (outer : List Variable) → Decidable (op.Apart outer)
  | .leftJoin left right _, outer | .conditional left right, outer =>
    have := decidableApart left outer
    have := decidableApart right (left.required.vars ++ outer)
    inferInstanceAs (Decidable (_ ∧ _ ∧ _))
  | .filter _ sub, outer => decidableApart sub outer
  | .bgp _, _ | .quadPattern .., _ | .join .., _ | .union .., _ | .sequence _, _ | .project .., _
  | .distinct _, _ => .isTrue trivial

/-- The branches at the root of a plan are those of the query. -/
theorem Plans.mem_childVars (plans : Plans settings op n) {v : Variable} :
    v ∈ Node.childVars n.children ↔ v ∈ op.branchVars := by
  induction plans with
  | bgp pattern => exact .rfl
  | quadPattern graph pattern => exact .rfl
  | leftJoin _ second exprs first _ =>
    rw [Node.childVars_addChild, Node.vars_addFilters, branchVars, List.mem_append,
      List.mem_append, first, second.mem_vars]
  | conditional _ second first _ =>
    rw [Node.childVars_addChild, branchVars, List.mem_append, List.mem_append, first,
      second.mem_vars]
  | @filter _ n exprs _ first => rw [(n.addFilters_fields exprs).2, first, branchVars]

theorem Plans.apart_addChild (plans : Plans settings left root)
    (vars : ∀ v, v ∈ child.vars ↔ v ∈ right.patternVars)
    (shared : ∀ v ∈ left.branchVars, v ∈ right.patternVars → v ∈ left.required.vars ++ outer)
    (first : root.Apart outer) (second : child.Apart (left.required.vars ++ outer)) :
    (root.addChild child).Apart outer := by
  have here : ∀ v, v ∈ left.required.vars ++ outer → v ∈ root.scan.vars ++ outer := by
    intro v listed
    rwa [List.mem_append, plans.mem_scan_vars, ← List.mem_append]
  refine first.addChild (second.mono here) fun v before new => here v ?_
  exact shared v (plans.mem_childVars.1 before) ((vars v).1 new)

/-- Where the branches of a query are apart, so are those of its plan. -/
theorem Plans.apart (plans : Plans settings op n) (apart : op.Apart outer) : n.Apart outer := by
  induction plans generalizing outer with
  | bgp pattern => exact .intro .nil nofun
  | quadPattern graph pattern => exact .intro .nil nofun
  | leftJoin first second exprs ih ih' =>
    obtain ⟨shared, left, right⟩ := apart
    refine first.apart_addChild (fun v => ?_) shared (ih left) ((ih' right).addFilters exprs)
    rw [Node.vars_addFilters]
    exact second.mem_vars
  | conditional first second ih ih' =>
    obtain ⟨shared, left, right⟩ := apart
    exact first.apart_addChild (fun v => second.mem_vars) shared (ih left) (ih' right)
  | filter exprs _ ih => exact (ih apart).addFilters exprs

end Algebra

/-! ## Telling solutions apart -/

namespace Solution

variable {d : Dataset} {a b : Binding} {s s' : Solution}

theorem get?_canonical (s : Solution) (v : Variable) :
    s.canonical.get? v = (s.get? v).map Term.canonical := by
  rw [get?, canonical, List.find?_map, Option.map_map, get?, Option.map_map]
  rfl

/-- What a binding gives is given by every binding that has the same solution up to spelling. -/
theorem extends_of_canonical_eq (one : d.terms.OneToOne) (known : a.Known d)
    (h : ofBinding d.terms a = .ok s) (h' : ofBinding d.terms b = .ok s')
    (same : s.canonical = s'.canonical) : b.Extends a := by
  intro v i value
  obtain ⟨t, here⟩ := Option.isSome_iff_exists.1 (TermTable.isSome_term? (known v i value))
  have form : (s'.get? v).map Term.canonical = some t.canonical := by
    rw [← get?_canonical, ← same, get?_canonical, get?_ofBinding h, value, Option.bind_some, here,
      Option.map_some]
  obtain ⟨u, found, spelled⟩ := Option.map_eq_some_iff.1 form
  rw [get?_ofBinding h'] at found
  obtain ⟨j, value', there⟩ := Option.bind_eq_some_iff.1 found
  have alike : t.Alike u := Term.same_iff_alike.1 (Term.same_iff.2 spelled.symm)
  rw [value', one.eq_of_alike here there alike]

/-- Bindings that have the same solution up to spelling are equal. -/
theorem eq_of_canonical_eq (one : d.terms.OneToOne) (known : a.Known d) (known' : b.Known d)
    (same : (ofBinding d.terms a).toOption.map canonical
      = (ofBinding d.terms b).toOption.map canonical) : a = b := by
  obtain ⟨s, h⟩ := known.exists_solution
  obtain ⟨s', h'⟩ := known'.exists_solution
  rw [h, h'] at same
  have forms : s.canonical = s'.canonical := Option.some.inj same
  exact (extends_of_canonical_eq one known h h' forms).antisymm
    (extends_of_canonical_eq one known' h' h forms.symm)

end Solution

namespace Session

/-- A session returns no solution twice, not even in different spellings, if optional branches of
one node share only what is in its pattern or in one further out. -/
theorem nodup_runNow {s : Session} (reachable : s.dataset.Reachable) {op : Algebra}
    (supported : op.Supported) (apart : op.Apart []) :
    ∃ solutions, s.runNow op = .ok solutions ∧ (solutions.map Solution.canonical).Nodup := by
  obtain ⟨_, stored⟩ := reachable.exists_stores
  obtain ⟨n, plans⟩ := Algebra.exists_plans s.settings op supported
  obtain ⟨solutions, returned, all⟩ := s.runNow_spec reachable plans
  refine ⟨solutions, returned, ?_⟩
  have indexed := plans.built.2
  have distinct : (n.answers s.dataset ∅).Nodup :=
    .of_map _ (indexed.nodup_answers reachable.valid (plans.apart apart) (List.forall_mem_nil _))
  have canonical := all.map fun result => result.toOption.map Solution.canonical
  rw [List.map_map, List.map_map] at canonical
  have forms : (solutions.map fun solution => some solution.canonical).Nodup := by
    refine canonical.nodup_iff.2 (distinct.map_on fun a inA b inB same => ?_)
    exact Solution.eq_of_canonical_eq stored.oneToOne (indexed.known reachable.valid inA)
      (indexed.known reachable.valid inB) same
  refine .of_map some ?_
  rwa [List.map_map]

/-- Two branches share what the required pattern binds, and two branches of the second one share what
is bound further up. -/
theorem nodup_runNow_branches :
    let triple (subject predicate object : String) : Algebra :=
      .bgp ⟨[.triple (.var ⟨subject⟩) (.term (.iri predicate)) (.var ⟨object⟩)]⟩
    let inner : Algebra := .conditional (.conditional (triple "o" "r" "y") (triple "s" "q" "u"))
      (triple "s" "r" "w")
    let op : Algebra := .leftJoin (.conditional (triple "s" "p" "o") (triple "o" "q" "x")) inner []
    let s : Session := {
      dataset := (Dataset.empty.addAll [⟨.iri "a", .iri "p", .iri "b", none⟩,
        ⟨.iri "b", .iri "q", .iri "c", none⟩, ⟨.iri "b", .iri "q", .iri "e", none⟩,
        ⟨.iri "b", .iri "r", .iri "c", none⟩, ⟨.iri "a", .iri "q", .integer 1, none⟩,
        ⟨.iri "a", .iri "r", .integer 1, none⟩, ⟨.iri "a", .iri "r", .integer 2, none⟩]).2
      settings := { capacity := 1 } }
    ∃ solutions, s.runNow op = .ok solutions ∧ solutions.length = 4 ∧
      (solutions.map Solution.canonical).Nodup := by
  intro triple inner op s
  have supported : op.Supported := ⟨⟨trivial, trivial⟩, ⟨trivial, trivial⟩, trivial⟩
  obtain ⟨solutions, returned, distinct⟩ :=
    nodup_runNow (s := s) (.addAll .empty _) supported (by decide +kernel)
  have count : (s.runNow op).toOption.map List.length = some 4 := by decide +kernel
  rw [returned] at count
  exact ⟨solutions, returned, Option.some.inj count, distinct⟩

/-- Branches that share another variable hide what their rows differ in. -/
example :
    let triple (subject predicate object : String) : Algebra :=
      .bgp ⟨[.triple (.var ⟨subject⟩) (.term (.iri predicate)) (.var ⟨object⟩)]⟩
    let op : Algebra := .conditional (.conditional (triple "s" "p" "o") (triple "o" "q" "x"))
      (triple "o" "r" "x")
    let s : Session := {
      dataset := (Dataset.empty.addAll [⟨.iri "a", .iri "p", .iri "b", none⟩,
        ⟨.iri "b", .iri "q", .iri "c", none⟩, ⟨.iri "b", .iri "r", .iri "e", none⟩,
        ⟨.iri "b", .iri "r", .iri "f", none⟩]).2
      settings := {} }
    let row : Solution := ⟨[(⟨"o"⟩, .iri "b"), (⟨"s"⟩, .iri "a"), (⟨"x"⟩, .iri "c")]⟩
    ¬ op.Apart [] ∧ s.runNow op = .ok [row, row] := by
  decide +kernel

end Session

end QuadQuery
