import QuadQuery.Proofs.Arrangement

/-!
# The index of inserted quads

Quads are inserted one after the other, in any order and as often as one likes. Every answer of the
index can then be read off the list of inserted quads (`QuadIndex.holds_ofQuads`): which quads are
new, how many there are, which numbers occur where, and what is found in each arrangement.
-/

namespace QuadQuery

namespace Arrangement

variable {key : Quad TermId → List TermId} {q : Quad TermId} {quads : List (Quad TermId)}
  {a : Arrangement}

/-- A quad is new to an ascending list unless the list has it. -/
theorem insertSorted_new_iff (ascending : quads.Pairwise fun q r => key q < key r)
    (injective : Function.Injective key) : (insertSorted key q quads).1 = true ↔ q ∉ quads := by
  induction quads with
  | nil => simp [insertSorted]
  | cons head rest ih =>
    obtain ⟨first, others⟩ := List.pairwise_cons.1 ascending
    unfold insertSorted
    split
    · next before =>
      -- All quads of the list come after `q`, the first of them already.
      have notHead : q ≠ head := fun same => lt_irrefl _ (same ▸ before)
      have notRest : q ∉ rest := fun member => lt_irrefl _ (before.trans (first q member))
      simp [notHead, notRest]
    · next notBefore =>
      split
      · next after =>
        have notHead : q ≠ head := fun same => lt_irrefl _ (same ▸ after)
        simp [notHead, ih others]
      · next notAfter =>
        have same : q = head := injective (le_antisymm (not_lt.1 notAfter) (not_lt.1 notBefore))
        simp [same]

theorem Valid.new_iff (valid : a.Valid) : (a.insert q).1 = true ↔ q ∉ a.quads :=
  insertSorted_new_iff valid.ascending valid.key_injective

/-- Exactly the quads that agree with the bound places are found, in ascending order of the key. -/
theorem Valid.find_spec (valid : a.Valid) (bound : Bound) :
    (∀ q, q ∈ a.find bound ↔ q ∈ a.quads ∧ ∀ p id, bound.get p = some id → q.get p = id) ∧
      (a.find bound).Pairwise fun q r => a.key q < a.key r := by
  rw [find_eq_filter valid bound]
  constructor
  · intro q
    rw [List.mem_filter, admits_iff]
  · exact valid.ascending.sublist List.filter_sublist

end Arrangement

namespace QuadIndex

variable {index : QuadIndex} {q : Quad TermId} {quads : List (Quad TermId)}

/-- A quad is new to the index unless the index has it. -/
theorem Valid.new_iff (valid : index.Valid) : (index.insert q).1 = true ↔ q ∉ index.quads := by
  have each : ∀ a ∈ index.arrangements, ((a.insert q).1 = true ↔ q ∉ index.quads) := by
    intro a member
    rw [(valid.arranged a member).new_iff, valid.same a member]
  simp only [arrangements, List.mem_cons, List.not_mem_nil, or_false, forall_eq_or_imp,
    forall_eq] at each
  obtain ⟨bySubject, byPredicate, byObject, byGraph⟩ := each
  simp [QuadIndex.insert, bySubject, byPredicate, byObject, byGraph]

/-- The index after quads were inserted in turn. -/
def ofQuads (quads : List (Quad TermId)) : QuadIndex :=
  quads.foldl (fun index q => (index.insert q).2) ∅

/-- What an index of some quads answers, read off the quads. -/
structure Holds (index : QuadIndex) (quads : List (Quad TermId)) : Prop where
  /-- Every arrangement has the same quads. -/
  arranged : ∀ a ∈ index.arrangements, ∀ q, q ∈ a.quads ↔ q ∈ quads
  /-- A quad is new if it was not inserted before. -/
  new : ∀ q, (index.insert q).1 = true ↔ q ∉ quads
  size : index.size = quads.toFinset.card
  occurs : ∀ place id, index.occurs place id = true ↔ ∃ q ∈ quads, q.get place = id
  /-- Whichever arrangement is searched, the quads that agree with the bound places are found, each
  once and in ascending order of its key. -/
  find : ∀ a ∈ index.arrangements, ∀ bound : Bound,
    (∀ q, q ∈ a.find bound ↔ q ∈ quads ∧ ∀ p id, bound.get p = some id → q.get p = id) ∧
      (a.find bound).Pairwise fun q r => a.key q < a.key r
  /-- The index searches one of its arrangements. -/
  chosen : ∀ bound, index.choose bound ∈ index.arrangements ∧
    index.find bound = (index.choose bound).find bound

theorem Valid.holds (valid : index.Valid) (same : ∀ q, q ∈ index.quads ↔ q ∈ quads) :
    index.Holds quads where
  arranged a member q := (valid.same a member q).trans (same q)
  new q := by rw [valid.new_iff, same q]
  size := by
    have nodup : index.quads.Nodup :=
      (valid.arranged index.bySubject (by simp [arrangements])).nodup
    have together : index.quads.toFinset = quads.toFinset := by
      ext q
      rw [List.mem_toFinset, List.mem_toFinset, same q]
    rw [← together, List.toFinset_card_of_nodup nodup]
    rfl
  occurs place id := by
    rw [valid.occurs place id]
    exact exists_congr fun q => and_congr_left fun _ => same q
  find a member bound := by
    obtain ⟨found, ascending⟩ := (valid.arranged a member).find_spec bound
    refine ⟨fun q => ?_, ascending⟩
    rw [found q, valid.same a member, same q]
  chosen bound := ⟨index.choose_mem bound, rfl⟩

/-- Inserting in turn adds the quads and keeps the index valid. -/
theorem Valid.insertAll (valid : index.Valid) (quads : List (Quad TermId)) :
    (quads.foldl (fun index q => (index.insert q).2) index).Valid ∧
      ∀ r, r ∈ (quads.foldl (fun index q => (index.insert q).2) index).quads ↔
        r ∈ index.quads ∨ r ∈ quads := by
  induction quads generalizing index with
  | nil => exact ⟨valid, by simp⟩
  | cons q rest ih =>
    obtain ⟨kept, members⟩ := ih (valid.insert q)
    refine ⟨kept, fun r => ?_⟩
    rw [List.foldl_cons, members r, valid.mem_insert, List.mem_cons]
    tauto

/-- Whatever was inserted, the index answers as the list of inserted quads says. -/
theorem holds_ofQuads (quads : List (Quad TermId)) : (ofQuads quads).Holds quads := by
  obtain ⟨valid, members⟩ := valid_empty.insertAll quads
  refine valid.holds fun q => ?_
  rw [members q]
  exact or_iff_right List.not_mem_nil

/-- A quad that is inserted twice is found once, under the largest numbers as under the smallest. -/
example :
    (ofQuads [⟨7, 0, 18446744073709551615, 0⟩, ⟨7, 0, 3, 0⟩, ⟨7, 0, 18446744073709551615, 0⟩]).find
      ⟨none, none, some 18446744073709551615, some 0⟩ = [⟨7, 0, 18446744073709551615, 0⟩] := by
  decide +kernel

end QuadIndex

end QuadQuery
