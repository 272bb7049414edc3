import Mathlib
import QuadQuery.QuadIndex

/-!
# What the quad index holds

Four arrangements keep the same quads, each in the order of its own places. Looking quads up is
cutting a stretch out of the arrangement with the longest bound lead; the main statement is that
this is the same as going through all quads (`Arrangement.find_eq_filter`), so that whichever
arrangement is chosen, exactly the quads that agree with the bound places are found, each once
(`QuadIndex.mem_find`, `QuadIndex.nodup_find`).
-/

namespace QuadQuery

/-- In an ascending list the stretch of one value is all there is of that value. -/
theorem takeWhile_dropWhile_eq_filter {α β : Type} [LinearOrder β] {f : α → β} {k : β}
    {before here : α → Bool} (isBefore : ∀ x, before x = true ↔ f x < k)
    (isHere : ∀ x, here x = true ↔ f x = k) {l : List α}
    (ascending : l.Pairwise fun x y => f x ≤ f y) :
    (l.dropWhile before).takeWhile here = l.filter here := by
  induction l with
  | nil => rfl
  | cons x l ih =>
    obtain ⟨first, rest⟩ := List.pairwise_cons.1 ascending
    have ih := ih rest
    rcases lt_trichotomy (f x) k with less | same | after
    · have notHere : here x = false := by simpa using (isHere x).not.2 less.ne
      simp [(isBefore x).2 less, notHere, ih]
    · have stays : l.dropWhile before = l := by
        refine List.dropWhile_eq_self_iff.2 fun bound => ?_
        rw [isBefore, ← same]
        exact (first _ (List.getElem_mem bound)).not_gt
      have notBefore : before x = false := by simpa using (isBefore x).not.2 same.not_lt
      rw [stays] at ih
      simp [notBefore, (isHere x).2 same, ih]
    · have none : l.filter here = [] := by
        refine List.filter_eq_nil_iff.2 fun y hy => ?_
        rw [isHere]
        exact (after.trans_le (first y hy)).ne'
      have notBefore : before x = false := by simpa using (isBefore x).not.2 after.not_gt
      have notHere : here x = false := by simpa using (isHere x).not.2 after.ne'
      simp [notBefore, notHere, none]

/-- Shortening two lists to one length cannot turn their order round. -/
theorem take_eq_or_lt {k l : List Nat} (h : k < l) (n : Nat) :
    k.take n = l.take n ∨ k.take n < l.take n := by
  induction n generalizing k l with
  | zero => simp
  | succ n ih =>
    cases l with
    | nil => exact absurd h (List.not_lt_nil k)
    | cons b l =>
      cases k with
      | nil => exact .inr (List.nil_lt_cons ..)
      | cons a k =>
        rcases List.cons_lt_cons_iff.1 h with less | ⟨rfl, tails⟩
        · exact .inr (List.cons_lt_cons_iff.2 (.inl less))
        · rcases ih tails with same | less
          · exact .inl (congrArg (a :: ·) same)
          · exact .inr (List.cons_lt_cons_iff.2 (.inr ⟨rfl, less⟩))

namespace Arrangement

variable {key : Quad TermId → List TermId} {q r : Quad TermId} {quads : List (Quad TermId)}

/-! ## Inserting -/

theorem mem_insertSorted (injective : Function.Injective key) :
    r ∈ (insertSorted key q quads).2 ↔ r = q ∨ r ∈ quads := by
  induction quads with
  | nil => simp [insertSorted]
  | cons head rest ih =>
    unfold insertSorted
    split
    · simp
    · next notBefore =>
      split
      · simp only [List.mem_cons, ih]
        exact or_left_comm
      · next notAfter =>
        have same : q = head := injective (le_antisymm (not_lt.1 notAfter) (not_lt.1 notBefore))
        simp [same]

theorem ascending_insertSorted (ascending : quads.Pairwise fun q r => key q < key r)
    (injective : Function.Injective key) :
    (insertSorted key q quads).2.Pairwise fun q r => key q < key r := by
  induction quads with
  | nil => exact List.pairwise_singleton ..
  | cons head rest ih =>
    obtain ⟨first, others⟩ := List.pairwise_cons.1 ascending
    unfold insertSorted
    split
    · next before =>
      refine List.pairwise_cons.2 ⟨fun r hr => ?_, ascending⟩
      rcases List.mem_cons.1 hr with rfl | hr
      · exact before
      · exact before.trans (first r hr)
    · split
      · next after =>
        refine List.pairwise_cons.2 ⟨fun r hr => ?_, ih others⟩
        rcases (mem_insertSorted injective).1 hr with rfl | hr
        · exact after
        · exact first r hr
      · exact ascending

/-! ## Valid arrangements -/

/-- Every place takes part in the key, and the quads come in strictly ascending order. -/
structure Valid (a : Arrangement) : Prop where
  full : ∀ p, p ∈ a.places
  ascending : a.quads.Pairwise fun q r => a.key q < a.key r

variable {a : Arrangement}

theorem Valid.key_injective (valid : a.Valid) : Function.Injective a.key := fun _ _ same =>
  Quad.ext_get fun p => List.map_inj_left.1 same p (valid.full p)

theorem Valid.nodup (valid : a.Valid) : a.quads.Nodup :=
  valid.ascending.imp fun less same => (lt_irrefl _ (same ▸ less)).elim

theorem Valid.insert (valid : a.Valid) (q : Quad TermId) : (a.insert q).2.Valid where
  full := valid.full
  ascending := ascending_insertSorted valid.ascending valid.key_injective

theorem Valid.mem_insert (valid : a.Valid) : r ∈ (a.insert q).2.quads ↔ r = q ∨ r ∈ a.quads :=
  mem_insertSorted valid.key_injective

/-! ## Finding -/

theorem admits_iff {bound : Bound} {q : Quad TermId} :
    bound.admits q = true ↔ ∀ p id, bound.get p = some id → q.get p = id := by
  simp only [Bound.admits, Quad.zip, Quad.toList, List.all_eq_true, Option.all_eq_true,
    List.mem_cons, List.not_mem_nil, or_false, forall_eq_or_imp, forall_eq, beq_iff_eq]
  constructor
  · rintro ⟨s, p, o, g⟩ place id h
    cases place
    exacts [(s id h).symm, (p id h).symm, (o id h).symm, (g id h).symm]
  · intro h
    exact ⟨fun id known => (h .subject id known).symm, fun id known => (h .predicate id known).symm,
      fun id known => (h .object id known).symm, fun id known => (h .graph id known).symm⟩

/-- A quad that agrees with the bound places begins with the bound lead. -/
theorem take_key_of_admits {bound : Bound} (agrees : bound.admits q = true) :
    (a.key q).take (a.boundLead bound).length = a.boundLead bound := by
  unfold key boundLead
  induction a.places with
  | nil => rfl
  | cons p places ih =>
    cases h : bound.get p with
    | none => simp [h]
    | some id =>
      have same : q.get p = id := admits_iff.1 agrees p id h
      simpa [h, same] using ih

/-- The stretch of a lead is all there is of that lead. -/
theorem stretch_eq_filter (valid : a.Valid) (lead : List TermId) :
    a.stretch lead = a.quads.filter fun q => (a.key q).take lead.length == lead :=
  takeWhile_dropWhile_eq_filter (fun _ => decide_eq_true_iff) (fun _ => beq_iff_eq)
    (valid.ascending.imp fun less => le_of_eq_or_lt (take_eq_or_lt less lead.length))

/-- Cutting the stretch of the bound lead out and going through all quads find the same. -/
theorem find_eq_filter (valid : a.Valid) (bound : Bound) :
    a.find bound = a.quads.filter bound.admits := by
  rw [find, stretch_eq_filter valid, List.filter_filter]
  refine List.filter_congr fun q _ => ?_
  cases h : bound.admits q with
  | false => rfl
  | true => simp [take_key_of_admits h]

end Arrangement

namespace QuadIndex

variable {index : QuadIndex} {q r : Quad TermId} {bound : Bound}

/-- The quads of the index, read off one of its arrangements. -/
def quads (index : QuadIndex) : List (Quad TermId) :=
  index.bySubject.quads

/-- All arrangements of the index. -/
def arrangements (index : QuadIndex) : List Arrangement :=
  [index.bySubject, index.byPredicate, index.byObject, index.byGraph]

/-- The arrangements hold the same quads, and the numbers known at a place are those that the
quads have there. -/
structure Valid (index : QuadIndex) : Prop where
  arranged : ∀ a ∈ index.arrangements, a.Valid
  same : ∀ a ∈ index.arrangements, ∀ q, q ∈ a.quads ↔ q ∈ index.quads
  occurs : ∀ place id, index.occurs place id = true ↔ ∃ q ∈ index.quads, q.get place = id

theorem valid_empty : (∅ : QuadIndex).Valid where
  arranged := by
    simp only [arrangements, List.mem_cons, List.not_mem_nil, or_false, forall_eq_or_imp, forall_eq]
    refine ⟨⟨?_, .nil⟩, ⟨?_, .nil⟩, ⟨?_, .nil⟩, ⟨?_, .nil⟩⟩ <;> exact fun p => by cases p <;> decide
  same := by
    simp only [arrangements, List.mem_cons, List.not_mem_nil, or_false, forall_eq_or_imp, forall_eq]
    exact ⟨fun _ => Iff.rfl, fun _ => Iff.rfl, fun _ => Iff.rfl, fun _ => Iff.rfl⟩
  occurs := fun place id => by cases place <;> simp [QuadIndex.occurs, Quad.get, quads,
    EmptyCollection.emptyCollection, empty]

theorem mem_addMember {ids : List TermId} {id other : TermId} :
    other ∈ addMember ids id ↔ other = id ∨ other ∈ ids := by
  unfold addMember
  split
  · next known =>
    have member : id ∈ ids := by simpa using known
    exact ⟨.inr, fun h => h.elim (fun same => same ▸ member) fun known => known⟩
  · exact List.mem_cons

theorem Valid.mem_insert (valid : index.Valid) :
    r ∈ (index.insert q).2.quads ↔ r = q ∨ r ∈ index.quads :=
  (valid.arranged index.bySubject (by simp [arrangements])).mem_insert

/-- Every arrangement of the index after an insertion is one from before with the quad added. -/
theorem mem_arrangements_insert {a : Arrangement} (member : a ∈ (index.insert q).2.arrangements) :
    ∃ old ∈ index.arrangements, a = (old.insert q).2 := by
  simp only [arrangements, insert, List.mem_cons, List.not_mem_nil, or_false] at member ⊢
  rcases member with rfl | rfl | rfl | rfl
  · exact ⟨index.bySubject, by simp, rfl⟩
  · exact ⟨index.byPredicate, by simp, rfl⟩
  · exact ⟨index.byObject, by simp, rfl⟩
  · exact ⟨index.byGraph, by simp, rfl⟩

theorem Valid.insert (valid : index.Valid) (q : Quad TermId) : (index.insert q).2.Valid where
  arranged := fun _ member => by
    obtain ⟨old, known, rfl⟩ := mem_arrangements_insert member
    exact (valid.arranged old known).insert q
  same := fun _ member r => by
    obtain ⟨old, known, rfl⟩ := mem_arrangements_insert member
    rw [(valid.arranged old known).mem_insert, valid.mem_insert, valid.same old known]
  occurs := fun place id => by
    have before := valid.occurs place id
    have members : (index.insert q).2.occurs place id = true ↔
        id = q.get place ∨ index.occurs place id = true := by
      cases place <;>
        simp only [QuadIndex.occurs, QuadIndex.insert, Quad.map, Quad.zip, Quad.get,
          List.contains_iff_mem, mem_addMember]
    rw [members, before]
    simp only [valid.mem_insert, or_and_right, exists_or, exists_eq_left]
    exact or_congr_left eq_comm

theorem choose_mem (index : QuadIndex) (bound : Bound) : index.choose bound ∈ index.arrangements := by
  unfold choose arrangements
  simp only [List.foldl_cons, List.foldl_nil]
  split <;> split <;> split <;> simp

theorem Valid.find_eq_filter (valid : index.Valid) (bound : Bound) :
    index.find bound = (index.choose bound).quads.filter bound.admits :=
  Arrangement.find_eq_filter (valid.arranged _ (index.choose_mem bound)) bound

/-- Exactly the quads that agree with the bound places are found. -/
theorem Valid.mem_find (valid : index.Valid) :
    q ∈ index.find bound ↔ q ∈ index.quads ∧ ∀ p id, bound.get p = some id → q.get p = id := by
  rw [valid.find_eq_filter, List.mem_filter, valid.same _ (index.choose_mem bound),
    Arrangement.admits_iff]

theorem Valid.nodup_find (valid : index.Valid) (bound : Bound) : (index.find bound).Nodup := by
  rw [valid.find_eq_filter]
  exact (valid.arranged _ (index.choose_mem bound)).nodup.filter _

/-- No more quads are found than there are. -/
theorem Valid.length_find_le (valid : index.Valid) (bound : Bound) :
    (index.find bound).length ≤ index.size :=
  ((valid.nodup_find bound).subperm fun _ member => (valid.mem_find.1 member).1).length_le

end QuadIndex

end QuadQuery
