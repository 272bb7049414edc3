import QuadQuery.Proofs.Interning
import QuadQuery.Proofs.Merging
import QuadQuery.Solution

/-!
# Bindings and solutions

A binding whose numbers all have terms stands for a solution, which gives every variable the term
of its number.
-/

namespace QuadQuery

theorem exists_ok_of_map {ε α β : Type} {f : α → β} {result : Except ε α} {y : β}
    (h : result.map f = .ok y) : ∃ x, result = .ok x ∧ f x = y := by
  cases result with
  | error failure => cases h
  | ok x => exact ⟨x, rfl, Except.ok.inj h⟩

namespace Binding

/-- All numbers of the binding have terms. -/
def Known (d : Dataset) (b : Binding) : Prop :=
  ∀ v id, b.get? v = some id → id < d.terms.size

variable {d : Dataset} {a b : Binding}

theorem Known.extendAbsent (ha : a.Known d) (hb : b.Known d) : (a.extendAbsent b).Known d := by
  intro v id known
  rw [get?_extendAbsent, Option.or_eq_some_iff] at known
  exact known.elim (ha v id) fun h => hb v id h.2

/-- A binding whose numbers have terms stands for a solution. -/
theorem Known.exists_solution (h : b.Known d) : ∃ s, Solution.ofBinding d.terms b = .ok s := by
  have entries : ∀ es : List (Variable × TermId), (∀ e ∈ es, e.2 < d.terms.size) →
      ∃ terms, Solution.ofEntries d.terms es = .ok terms := by
    intro es
    induction es with
    | nil => exact fun _ => ⟨[], rfl⟩
    | cons e rest ih =>
      intro known
      obtain ⟨first, others⟩ := List.forall_mem_cons.1 known
      obtain ⟨terms, same⟩ := ih others
      obtain ⟨term, found⟩ := Option.isSome_iff_exists.1 (TermTable.isSome_term? first)
      exact ⟨(e.1, term) :: terms, by simp [Solution.ofEntries, found, same, Except.map]⟩
  obtain ⟨terms, same⟩ := entries b.entries fun e member => h e.1 e.2 (mem_entries_iff.1 member)
  exact ⟨⟨terms⟩, by rw [Solution.ofBinding, same]; rfl⟩

end Binding

namespace Solution

variable {table : TermTable} {a b : Binding} {s s' : Solution}

/-- The one solution gives all that the other gives. -/
def Extends (s' s : Solution) : Prop :=
  ∀ v term, s.get? v = some term → s'.get? v = some term

/-- A solution gives a variable the term of its number. -/
theorem get?_ofBinding (h : ofBinding table b = .ok s) (v : Variable) :
    s.get? v = (b.get? v).bind table.term? := by
  have entries : ∀ es terms, ofEntries table es = .ok terms →
      (terms.find? fun e => e.1 == v).map (·.2)
        = ((es.find? fun e => e.1 == v).map (·.2)).bind table.term? := by
    intro es
    induction es with
    | nil => rintro terms ⟨⟩; rfl
    | cons e rest ih =>
      intro terms same
      unfold ofEntries at same
      split at same
      · cases same
      · next term found =>
        obtain ⟨others, all, rfl⟩ := exists_ok_of_map same
        by_cases here : e.1 = v
        · simp [here, found]
        · simp [here, ih others all]
  obtain ⟨terms, same, rfl⟩ := exists_ok_of_map h
  exact entries b.entries terms same

/-- What a binding gives is given by solutions as well. -/
theorem Extends.of_binding (h : ofBinding table a = .ok s) (h' : ofBinding table b = .ok s')
    (larger : b.Extends a) : s'.Extends s := by
  intro v term known
  rw [get?_ofBinding h, Option.bind_eq_some_iff] at known
  obtain ⟨id, value, found⟩ := known
  rw [get?_ofBinding h', larger v id value]
  exact found

end Solution

end QuadQuery
