import QuadQuery.Dataset
import QuadQuery.Proofs.Arrangement

/-!
# Datasets made of statements

A dataset comes about by adding statements to the empty one. Whatever was added, its index is
valid and every number in a quad belongs to a term (`Dataset.Reachable.valid`).
-/

namespace QuadQuery

namespace TermTable

variable {table : TermTable} {term : Term}

theorem size_le_size_intern : table.size ≤ (table.intern term).2.size := by
  unfold intern
  split
  · exact Nat.le_refl _
  · simp [size]

/-- The number that a term is given is one of the table. -/
theorem intern_lt_size : (table.intern term).1 < (table.intern term).2.size := by
  unfold intern
  split
  · next id known =>
    unfold id? at known
    exact (List.findIdx?_eq_some_iff_getElem.1 known).1
  · simp [size]

/-- Every number of the table has a term. -/
theorem isSome_term? {id : TermId} (h : id < table.size) : (table.term? id).isSome := by
  simpa [term?, size] using h

end TermTable

namespace Dataset

/-- Datasets that come about by adding statements, beginning with none. -/
inductive Reachable : Dataset → Prop
  | empty : Reachable ∅
  | add {d : Dataset} (before : Reachable d) (st : Statement) : Reachable (d.add st).2

theorem Reachable.addAll {d : Dataset} (h : d.Reachable) (statements : List Statement) :
    (d.addAll statements).2.Reachable := by
  induction statements generalizing d with
  | nil => exact h
  | cons st rest ih => exact ih (h.add st)

/-- The quads of the dataset, as numbers. -/
def quads (d : Dataset) : List (Quad TermId) :=
  d.index.quads

/-- The index is valid, and the numbers in its quads are numbers of the term table. -/
structure Valid (d : Dataset) : Prop where
  index : d.index.Valid
  defaultGraph : TermTable.defaultGraph < d.terms.size
  known : ∀ q ∈ d.quads, ∀ p, q.get p < d.terms.size

theorem valid_empty : (∅ : Dataset).Valid where
  index := QuadIndex.valid_empty
  defaultGraph := by decide
  known := fun _ member => absurd member List.not_mem_nil

/-- Adding a statement makes one quad, whose numbers are numbers of the longer table. -/
theorem exists_add (d : Dataset) (st : Statement) (graph : TermTable.defaultGraph < d.terms.size) :
    ∃ q terms, (d.add st).2 = ⟨terms, (d.index.insert q).2⟩ ∧ d.terms.size ≤ terms.size ∧
      ∀ p, q.get p < terms.size := by
  let s := d.terms.intern st.subject
  let p := s.2.intern st.predicate
  let o := p.2.intern st.object
  have toS : d.terms.size ≤ s.2.size := TermTable.size_le_size_intern
  have toP : s.2.size ≤ p.2.size := TermTable.size_le_size_intern
  have toO : p.2.size ≤ o.2.size := TermTable.size_le_size_intern
  have sId : s.1 < s.2.size := TermTable.intern_lt_size
  have pId : p.1 < p.2.size := TermTable.intern_lt_size
  have oId : o.1 < o.2.size := TermTable.intern_lt_size
  cases named : st.graph with
  | none =>
    refine ⟨⟨s.1, p.1, o.1, TermTable.defaultGraph⟩, o.2, by simp [add, named, s, p, o],
      by omega, fun place => ?_⟩
    cases place
    exacts [sId.trans_le (toP.trans toO), pId.trans_le toO, oId,
      graph.trans_le (toS.trans (toP.trans toO))]
  | some graph =>
    let g := o.2.intern graph
    have toG : o.2.size ≤ g.2.size := TermTable.size_le_size_intern
    have gId : g.1 < g.2.size := TermTable.intern_lt_size
    refine ⟨⟨s.1, p.1, o.1, g.1⟩, g.2, by simp [add, named, s, p, o, g], by omega, fun place => ?_⟩
    cases place
    exacts [sId.trans_le (toP.trans (toO.trans toG)), pId.trans_le (toO.trans toG),
      oId.trans_le toG, gId]

theorem Valid.add {d : Dataset} (valid : d.Valid) (st : Statement) : (d.add st).2.Valid := by
  obtain ⟨q, terms, same, longer, ids⟩ := exists_add d st valid.defaultGraph
  rw [same]
  refine ⟨valid.index.insert q, valid.defaultGraph.trans_le longer, fun r member p => ?_⟩
  rcases valid.index.mem_insert.1 member with rfl | old
  · exact ids p
  · exact (valid.known r old p).trans_le longer

theorem Reachable.valid {d : Dataset} (h : d.Reachable) : d.Valid := by
  induction h with
  | empty => exact valid_empty
  | add _ st ih => exact ih.add st

end Dataset

end QuadQuery
