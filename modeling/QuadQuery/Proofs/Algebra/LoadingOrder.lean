import QuadQuery.Proofs.Algebra.Shuffling

/-!
# Datasets that were loaded in another order

The order in which statements come decides which number a term gets and which of several spellings
of a decimal is kept. Two datasets that were given the same quads in any order are renumberings of
each other (`Dataset.Stores.renumbering`), and so queries return the same solutions over both, up to
the spelling of decimals (`Session.perm_canonical_of_covered`).
-/

namespace QuadQuery

namespace Statement

instance (st st' : Statement) : Decidable (st.Alike st') :=
  decidable_of_iff (∀ p ∈ [Place.subject, .predicate, .object, .graph],
    (st.quad.get p).same (st'.quad.get p) = true)
    ⟨fun h p => Term.same_iff_alike.1 (h p (by cases p <;> simp)),
      fun h p _ => Term.same_iff_alike.2 (h p)⟩

/-- Each statement of the first list states a quad that some statement of the second states. -/
def Covered (statements statements' : List Statement) : Prop :=
  ∀ st ∈ statements, ∃ st' ∈ statements', st.Alike st'

instance (statements statements' : List Statement) : Decidable (Covered statements statements') :=
  inferInstanceAs (Decidable (∀ st ∈ statements, ∃ st' ∈ statements', st.Alike st'))

end Statement

namespace Dataset

variable {d d' : Dataset} {statements statements' : List Statement} {t : Term} {id : TermId}

/-- The terms that have numbers are those of the quads and the default graph. -/
theorem Stores.knows_iff (h : d.Stores statements) : d.terms.Knows t ↔
    Term.defaultGraph.Alike t ∨ ∃ st ∈ statements, ∃ p, (st.quad.get p).Alike t := by
  rw [h.knows]
  simp only [List.mem_cons, List.mem_flatMap, or_and_right, exists_or, exists_eq_left]
  constructor
  · rintro (alike | ⟨u, ⟨st, stated, named⟩, alike⟩)
    · exact .inl alike
    · simp only [Statement.terms, List.mem_append, List.mem_cons, List.not_mem_nil, or_false,
        Option.mem_toList] at named
      refine .inr ⟨st, stated, ?_⟩
      rcases named with (rfl | rfl | rfl) | graph
      · exact ⟨.subject, alike⟩
      · exact ⟨.predicate, alike⟩
      · exact ⟨.object, alike⟩
      · exact ⟨.graph, by simpa [Statement.quad, Quad.get, graph] using alike⟩
  · rintro (alike | ⟨st, stated, p, alike⟩)
    · exact .inl alike
    · obtain ⟨id, known⟩ := h.knows_quad stated p
      obtain ⟨u, listed, like⟩ :=
        (h.knows _).1 (TermTable.isSome_id?_iff.1 (Option.isSome_of_eq_some known))
      rcases List.mem_cons.1 listed with rfl | listed
      · exact .inl (like.trans alike)
      · exact .inr ⟨u, List.mem_flatMap.1 listed, like.trans alike⟩

/-- What is known from the quads of some statements is known from those of more statements. -/
theorem Stores.knows_of_covered (h : d.Stores statements) (h' : d'.Stores statements')
    (covered : Statement.Covered statements statements') (known : d.terms.Knows t) :
    d'.terms.Knows t := by
  refine h'.knows_iff.2 ((h.knows_iff.1 known).imp_right ?_)
  rintro ⟨st, stated, p, alike⟩
  obtain ⟨st', stated', same⟩ := covered st stated
  exact ⟨st', stated', p, (same p).symm.trans alike⟩

/-- The number that the term of a number has in another dataset. -/
def numberIn (d d' : Dataset) (id : TermId) : TermId :=
  ((d.term? id).bind d'.lookup?).getD TermTable.defaultGraph

theorem Stores.lookup?_numberIn (h : d.Stores statements) (h' : d'.Stores statements')
    (covered : Statement.Covered statements statements') (here : d.term? id = some t) :
    d'.lookup? t = some (d.numberIn d' id) := by
  have known : d.terms.Knows t := ⟨t, List.mem_of_getElem? here, .refl t⟩
  obtain ⟨j, there⟩ := Option.isSome_iff_exists.1
    (TermTable.isSome_id?_iff.2 (h.knows_of_covered h' covered known))
  rw [numberIn, here, Option.bind_some, show d'.lookup? t = some j from there, Option.getD_some]

theorem Stores.renumbers (h : d.Stores statements) (h' : d'.Stores statements')
    (covered : Statement.Covered statements statements') : Renumbers (d.numberIn d') d d' := by
  have lookup : ∀ t id, d.lookup? t = some id → d'.lookup? t = some (d.numberIn d' id) := by
    intro t id found
    obtain ⟨u, here, alike⟩ := h.oneToOne.id?_eq_some_iff.1 found
    rw [← h.lookup?_numberIn h' covered here]
    exact (TermTable.id?_congr alike).symm
  refine ⟨fun id t here => ?_, lookup, fun q stored => ?_⟩
  · obtain ⟨u, there, alike⟩ :=
      h'.oneToOne.id?_eq_some_iff.1 (h.lookup?_numberIn h' covered here)
    exact ⟨u, there, alike.symm⟩
  · obtain ⟨st, stated, ids⟩ := (h.quads q).1 stored
    obtain ⟨st', stated', same⟩ := covered st stated
    refine (h'.quads _).2 ⟨st', stated', fun p => ?_⟩
    rw [Quad.get_map, ← lookup _ _ (ids p)]
    exact (TermTable.id?_congr (same p)).symm

/-- The number of the term with the number that the other dataset has for it. -/
theorem Stores.numberIn_numberIn (h : d.Stores statements) (h' : d'.Stores statements')
    (covered : Statement.Covered statements statements')
    (covered' : Statement.Covered statements' statements) (bound : id < d.terms.size) :
    d'.numberIn d (d.numberIn d' id) = id := by
  obtain ⟨t, here⟩ := Option.isSome_iff_exists.1 (TermTable.isSome_term? bound)
  obtain ⟨u, there, alike⟩ :=
    h'.oneToOne.id?_eq_some_iff.1 (h.lookup?_numberIn h' covered here)
  have back := h'.lookup?_numberIn h covered' there
  have found : d.lookup? u = some id := h.oneToOne.id?_eq_some_iff.2 ⟨t, here, alike.symm⟩
  exact Option.some.inj (back.symm.trans found)

/-- Datasets with the same quads are renumberings of each other. -/
def Stores.renumbering (h : d.Stores statements) (h' : d'.Stores statements')
    (covered : Statement.Covered statements statements')
    (covered' : Statement.Covered statements' statements) : Renumbering d d' where
  forth := d.numberIn d'
  back := d'.numberIn d
  there := h.renumbers h' covered
  here := h'.renumbers h covered'
  back_forth _ := h.numberIn_numberIn h' covered covered'
  forth_back _ := h'.numberIn_numberIn h covered' covered

end Dataset

/-! ## Solutions up to spelling -/

namespace Solution

/-- The solution with its decimals in canonical form. -/
def canonical (s : Solution) : Solution :=
  ⟨s.entries.map fun e => (e.1, e.2.canonical)⟩

/-- Solutions have one canonical form if they give alike terms to the same variables. -/
theorem canonical_eq_iff {s s' : Solution} : s.canonical = s'.canonical ↔
    s.entries.Forall₂ (fun e e' => e.1 = e'.1 ∧ e.2.Alike e'.2) s'.entries := by
  rw [canonical, canonical, Solution.mk.injEq, ← List.forall₂_eq_eq_eq, List.forall₂_map_left_iff,
    List.forall₂_map_right_iff]
  simp only [Prod.mk.injEq, ← Term.same_iff, Term.same_iff_alike]

/-- Numbers that are replaced belong to alike terms. -/
theorem ofEntries_renumbered {f : TermId → TermId} {d d' : Dataset} (h : Dataset.Renumbers f d d')
    {entries : List (Variable × TermId)} (known : ∀ e ∈ entries, e.2 < d.terms.size) :
    ∃ terms terms', ofEntries d.terms entries = .ok terms ∧
      ofEntries d'.terms (entries.map fun e => (e.1, f e.2)) = .ok terms' ∧
      terms.Forall₂ (fun e e' => e.1 = e'.1 ∧ e.2.Alike e'.2) terms' := by
  induction entries with
  | nil => exact ⟨[], [], rfl, rfl, .nil⟩
  | cons e rest ih =>
    obtain ⟨first, others⟩ := List.forall_mem_cons.1 known
    obtain ⟨terms, terms', here, there, alike⟩ := ih others
    obtain ⟨t, found⟩ := Option.isSome_iff_exists.1 (TermTable.isSome_term? first)
    obtain ⟨u, found', like⟩ := h.alike e.2 t found
    refine ⟨(e.1, t) :: terms, (e.1, u) :: terms', ?_, ?_, .cons ⟨rfl, like⟩ alike⟩
    · simp only [ofEntries, found, here, Except.map]
    · rw [List.map_cons, ofEntries, show d'.terms.term? (f e.2) = some u from found', there]
      rfl

/-- A binding and the renumbered one stand for one solution, up to spelling. -/
theorem canonical_ofBinding {f : TermId → TermId} {d d' : Dataset} (h : Dataset.Renumbers f d d')
    {b : Binding} (known : b.Known d) :
    (ofBinding d.terms b).toOption.map canonical
      = (ofBinding d'.terms (b.renumber f)).toOption.map canonical := by
  obtain ⟨terms, terms', here, there, alike⟩ :=
    ofEntries_renumbered h fun e member => known e.1 e.2 (Binding.mem_entries_iff.1 member)
  rw [ofBinding, ofBinding, here, Binding.renumber, there]
  exact congrArg some (canonical_eq_iff.2 alike)

end Solution

namespace Session

variable {calls calls' : List Dataset.Call} {op : Algebra}

/-- Sessions over datasets that were given the same quads, in whatever order and spelling and by
whatever calls, return the same solutions up to spelling, and each as often. -/
theorem perm_canonical_of_covered
    (covered : Statement.Covered (calls.flatMap Dataset.Call.statements)
      (calls'.flatMap Dataset.Call.statements))
    (covered' : Statement.Covered (calls'.flatMap Dataset.Call.statements)
      (calls.flatMap Dataset.Call.statements))
    (settings settings' : Settings) (supported : op.Supported) :
    ∃ rows rows', runNow { dataset := .after calls, settings } op = .ok rows ∧
      runNow { dataset := .after calls', settings := settings' } op = .ok rows' ∧
      (rows.map Solution.canonical).Perm (rows'.map Solution.canonical) := by
  obtain ⟨stored, _⟩ := Dataset.stores_empty.performAll calls
  obtain ⟨stored', _⟩ := Dataset.stores_empty.performAll calls'
  let s : Session := { dataset := .after calls, settings }
  let s' : Session := { dataset := .after calls', settings := settings' }
  let r : s.dataset.Renumbering s'.dataset := stored.renumbering stored' covered covered'
  obtain ⟨answers, rows, rows', known, returned, returned', all, all'⟩ :=
    exists_answers_of_shuffled (Dataset.reachable_after calls) (Dataset.reachable_after calls') r
      supported (.refl op supported)
  refine ⟨rows, rows', returned, returned', ?_⟩
  have forms := all.map fun result => result.toOption.map Solution.canonical
  have forms' := all'.map fun result => result.toOption.map Solution.canonical
  rw [List.map_map, List.map_map] at forms forms'
  have same := List.map_congr_left fun b member =>
    Solution.canonical_ofBinding r.there (known b member)
  have both : ((rows.map Solution.canonical).map some).Perm
      ((rows'.map Solution.canonical).map some) := by
    rw [List.map_map, List.map_map]
    exact forms.trans ((List.Perm.of_eq same).trans forms'.symm)
  exact (List.map_perm_map_iff (Option.some_injective _)).1 both

/-- One decimal in two spellings, loaded in two orders, with a repetition and with the default graph
named and not named. -/
theorem perm_canonical_of_covered_decimal :
    let p : Term := .iri "p"
    let calls : List Dataset.Call :=
      [.add ⟨.iri "a", p, .decimal ⟨10, 1⟩, none⟩, .add ⟨.iri "b", p, .decimal ⟨100, 2⟩, none⟩]
    let calls' : List Dataset.Call :=
      [.add ⟨.iri "b", p, .decimal ⟨1000, 3⟩, some .defaultGraph⟩,
        .add ⟨.iri "a", p, .decimal ⟨10, 1⟩, none⟩, .add ⟨.iri "b", p, .decimal ⟨10, 1⟩, none⟩]
    let op : Algebra := .filter [.compare .le (.var ⟨"o"⟩) (.const (.integer 1))]
      (.bgp ⟨[.triple (.var ⟨"s"⟩) (.term p) (.var ⟨"o"⟩)]⟩)
    ∃ rows rows', runNow { dataset := .after calls, settings := {} } op = .ok rows ∧
      runNow { dataset := .after calls', settings := { capacity := 1 } } op = .ok rows' ∧
      (rows.map Solution.canonical).Perm (rows'.map Solution.canonical) :=
  perm_canonical_of_covered (by decide +kernel) (by decide +kernel) {} { capacity := 1 } trivial

end Session

end QuadQuery
