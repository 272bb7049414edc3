import QuadQuery.Proofs.Algebra.Assignments
import QuadQuery.Proofs.JoinTree.Rows
import QuadQuery.Proofs.Solutions
import QuadQuery.Proofs.Spelling

/-!
# Datasets that number their terms differently

Two datasets may have the same quads and still give their terms different numbers, because the
terms came in another order. A renumbering leads from the numbers of the one to those of the other
and back (`Dataset.Renumbering`). It carries the assignments of a pattern over, in whatever order
the quad patterns stand (`Dataset.Renumbering.perm_assignments`), and filters do not notice it
(`Dataset.Renumbering.passes_eq`).
-/

namespace QuadQuery

namespace Binding

variable {f g : TermId → TermId} {a b : Binding} {v : Variable}

/-- The binding with its numbers replaced. -/
def renumber (f : TermId → TermId) (b : Binding) : Binding where
  entries := b.entries.map fun e => (e.1, f e.2)
  ascending := by
    rw [Ascending, List.pairwise_map]
    exact b.ascending

@[simp]
theorem get?_renumber (f : TermId → TermId) (b : Binding) (v : Variable) :
    (b.renumber f).get? v = (b.get? v).map f := by
  refine Option.ext fun id => ?_
  rw [← mem_entries_iff, Option.map_eq_some_iff]
  simp only [renumber, List.mem_map, Prod.exists, Prod.mk.injEq]
  constructor
  · rintro ⟨w, i, member, rfl, rfl⟩
    exact ⟨i, mem_entries_iff.1 member, rfl⟩
  · rintro ⟨i, known, rfl⟩
    exact ⟨v, i, mem_entries_iff.2 known, rfl, rfl⟩

@[simp]
theorem renumber_id (b : Binding) : b.renumber id = b :=
  ext_get? fun v => by rw [get?_renumber, Option.map_id, id_eq]

@[simp]
theorem renumber_empty (f : TermId → TermId) : (∅ : Binding).renumber f = ∅ :=
  ext_get? fun v => by simp

theorem renumber_extendAbsent (f : TermId → TermId) (a b : Binding) :
    (a.extendAbsent b).renumber f = (a.renumber f).extendAbsent (b.renumber f) := by
  refine ext_get? fun v => ?_
  simp only [get?_renumber, get?_extendAbsent]
  cases a.get? v <;> rfl

theorem renumber_merge (f : TermId → TermId) (own : Binding) (picks : List (Option Binding)) :
    (Node.merge own picks).renumber f
      = Node.merge (own.renumber f) (picks.map (Option.map (renumber f))) := by
  unfold Node.merge
  induction picks generalizing own with
  | nil => rfl
  | cons pick rest ih =>
    rw [List.foldl_cons, List.map_cons, List.foldl_cons, ih]
    cases pick with
    | none => rfl
    | some row => simp only [Option.map_some, Option.getD_some, renumber_extendAbsent]

/-- Numbers that are replaced and put back are what they were. -/
theorem renumber_renumber {d : Dataset} (inverse : ∀ id < d.terms.size, g (f id) = id)
    (known : b.Known d) : (b.renumber f).renumber g = b := by
  refine ext_get? fun v => ?_
  rw [get?_renumber, get?_renumber, Option.map_map]
  cases value : b.get? v with
  | none => rfl
  | some id => exact congrArg some (inverse id (known v id value))

theorem Within.renumber {vars : List Variable} (h : b.Within vars) : (b.renumber f).Within vars :=
  fun v known => h v (by rwa [get?_renumber, Option.isSome_map] at known)

end Binding

/-- The assignments of a pattern are made of numbers of the term table. -/
theorem BasicPattern.known_of_mem_assignments {d : Dataset} (valid : d.Valid)
    {pattern : BasicPattern} {context b : Binding} (member : b ∈ pattern.assignments d context) :
    b.Known d := by
  obtain ⟨within, holds, _⟩ := (mem_assignments valid).1 member
  intro v id known
  exact holds.lt_size valid (within v (Option.isSome_of_eq_some known)) known

namespace Dataset

/-- Replacing the numbers turns the terms and quads of one dataset into those of another. -/
structure Renumbers (f : TermId → TermId) (d d' : Dataset) : Prop where
  alike : ∀ id t, d.term? id = some t → ∃ u, d'.term? (f id) = some u ∧ t.Alike u
  lookup : ∀ t id, d.lookup? t = some id → d'.lookup? t = some (f id)
  quads : ∀ q ∈ d.quads, q.map f ∈ d'.quads

/-- Two datasets with the same quads of terms, and how the numbers of the one become those of the
other. -/
structure Renumbering (d d' : Dataset) where
  forth : TermId → TermId
  back : TermId → TermId
  there : Renumbers forth d d'
  here : Renumbers back d' d
  back_forth : ∀ id < d.terms.size, back (forth id) = id
  forth_back : ∀ id < d'.terms.size, forth (back id) = id

variable {d d' : Dataset} {f : TermId → TermId} {b context : Binding} {pattern other : BasicPattern}

theorem Renumbers.refl (d : Dataset) : Renumbers id d d where
  alike _ t here := ⟨t, here, .refl t⟩
  lookup _ _ found := found
  quads _ member := member

theorem Renumbers.lt_size (h : Renumbers f d d') {id : TermId} (known : id < d.terms.size) :
    f id < d'.terms.size := by
  obtain ⟨t, here⟩ := Option.isSome_iff_exists.1 (TermTable.isSome_term? known)
  obtain ⟨u, there, _⟩ := h.alike id t here
  exact TermTable.isSome_term?_iff.1 (Option.isSome_of_eq_some there)

theorem Renumbers.known (h : Renumbers f d d') (known : b.Known d) : (b.renumber f).Known d' := by
  intro v id value
  rw [Binding.get?_renumber, Option.map_eq_some_iff] at value
  obtain ⟨i, value, rfl⟩ := value
  exact h.lt_size (known v i value)

theorem Renumbers.holdsIn (h : Renumbers f d d') (holds : pattern.HoldsIn d b) :
    pattern.HoldsIn d' (b.renumber f) := by
  intro p member
  obtain ⟨q, stored, sub⟩ := holds p member
  refine ⟨q.map f, h.quads q stored, QuadPattern.substitute_eq_some_iff.2 fun place => ?_⟩
  have value := QuadPattern.substitute_eq_some_iff.1 sub place
  rw [Quad.get_map]
  cases slot : p.get place with
  | term t =>
    rw [slot] at value
    exact h.lookup t _ value
  | var v =>
    rw [slot] at value
    change b.get? v = some (q.get place) at value
    change (b.renumber f).get? v = _
    rw [Binding.get?_renumber, value, Option.map_some]

/-- What filters see is alike. -/
theorem Renumbers.view (h : Renumbers f d d') {row : Binding} (knownRow : row.Known d)
    (known : context.Known d) (v : Variable) : Option.Rel Term.Alike (Node.view d row context v)
      (Node.view d' (row.renumber f) (context.renumber f) v) := by
  have number : ∀ id, (row.get? v).or (context.get? v) = some id → id < d.terms.size := by
    intro id value
    rw [Option.or_eq_some_iff] at value
    exact value.elim (knownRow v id) fun later => known v id later.2
  have renumbered : ((row.renumber f).get? v).or ((context.renumber f).get? v)
      = ((row.get? v).or (context.get? v)).map f := by
    rw [Binding.get?_renumber, Binding.get?_renumber, Option.map_or]
  rw [Node.view, Node.view, renumbered]
  cases value : (row.get? v).or (context.get? v) with
  | none => exact .none
  | some id =>
    obtain ⟨t, here⟩ := Option.isSome_iff_exists.1 (TermTable.isSome_term? (number id value))
    obtain ⟨u, there, alike⟩ := h.alike id t here
    change Option.Rel Term.Alike (d.term? id) (d'.term? (f id))
    rw [there, show d.term? id = some t from here]
    exact .some alike

/-- Filters judge renumbered rows alike. -/
theorem Renumbers.passes_eq (h : Renumbers f d d') {row : Binding} (knownRow : row.Known d)
    (known : context.Known d) (filters : List Expr) :
    Node.passes d context filters row
      = Node.passes d' (context.renumber f) filters (row.renumber f) := by
  rw [Node.passes, Node.passes, Bool.eq_iff_iff, List.all_eq_true, List.all_eq_true]
  exact forall₂_congr fun e _ => by
    rw [Expr.isSatisfied_alike fun v _ => h.view knownRow known v]

namespace Renumbering

/-- Nothing is replaced. -/
def refl (d : Dataset) : Renumbering d d where
  forth := id
  back := id
  there := .refl d
  here := .refl d
  back_forth _ _ := rfl
  forth_back _ _ := rfl

variable (r : Renumbering d d')

/-- A renumbering carries the assignments of a pattern over to those of the same quad patterns, in
whatever order they stand. -/
theorem perm_assignments (valid : d.Valid) (valid' : d'.Valid)
    (same : pattern.patterns.Perm other.patterns) (known : context.Known d) :
    ((pattern.assignments d context).map (Binding.renumber r.forth)).Perm
      (other.assignments d' (context.renumber r.forth)) := by
  have distinct : ((pattern.assignments d context).map (Binding.renumber r.forth)).Nodup := by
    refine (BasicPattern.nodup_assignments ..).map_on fun a inA b inB equal => ?_
    have knownA := BasicPattern.known_of_mem_assignments valid inA
    have knownB := BasicPattern.known_of_mem_assignments valid inB
    rw [← Binding.renumber_renumber r.back_forth knownA, equal,
      Binding.renumber_renumber r.back_forth knownB]
  refine (List.perm_ext_iff_of_nodup distinct (BasicPattern.nodup_assignments ..)).2 fun b => ?_
  rw [List.mem_map]
  constructor
  · rintro ⟨a, member, rfl⟩
    obtain ⟨within, holds, agrees⟩ := (BasicPattern.mem_assignments valid).1 member
    refine (BasicPattern.mem_assignments valid').2 ⟨?_, (r.there.holdsIn holds).perm same, ?_⟩
    · exact within.renumber.mono fun v mentioned => (BasicPattern.mem_vars_of_perm same).1 mentioned
    · intro v i j inRow inContext
      rw [Binding.get?_renumber, Option.map_eq_some_iff] at inRow inContext
      obtain ⟨i, inRow, rfl⟩ := inRow
      obtain ⟨j, inContext, rfl⟩ := inContext
      rw [agrees v i j inRow inContext]
  · -- What matches over there is brought back, and the way there and back changes nothing.
    intro member
    have knownB := BasicPattern.known_of_mem_assignments valid' member
    obtain ⟨within, holds, agrees⟩ := (BasicPattern.mem_assignments valid').1 member
    refine ⟨b.renumber r.back, (BasicPattern.mem_assignments valid).2 ⟨?_, ?_, ?_⟩,
      Binding.renumber_renumber r.forth_back knownB⟩
    · exact within.renumber.mono fun v mentioned => (BasicPattern.mem_vars_of_perm same).2 mentioned
    · exact (r.here.holdsIn holds).perm same.symm
    · intro v i j inRow inContext
      rw [Binding.get?_renumber, Option.map_eq_some_iff] at inRow
      obtain ⟨i, inRow, rfl⟩ := inRow
      have number : i = r.forth j := agrees v i (r.forth j) inRow (by simp [inContext])
      rw [number, r.back_forth j (known v j inContext)]

end Renumbering

end Dataset

end QuadQuery
