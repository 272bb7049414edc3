import QuadQuery.Proofs.IndexContents

/-!
# Ranges of keys

A store of quads need not keep the quads themselves. It can keep their keys, each with the values in
the order of the arrangement, and put the values back in their places when a quad is asked for
(`Arrangement.restore`). The stretch that begins with some bound values is then a range of keys: all
that lie between the bound values followed by the least ones and the bound values followed by the
greatest ones. As long as no value is greater than the greatest, this finds the same quads in the same
order, in every arrangement and in the one that the index chooses (`QuadIndex.find_eq_range`).
-/

namespace QuadQuery

namespace TermId

/-- The greatest number that 64 bits hold. -/
def greatest : TermId := 2 ^ 64 - 1

end TermId

/-! ## Keys between two ends -/

section Between

variable {count : Nat} {lead key : List TermId}

-- `List.cons_le_cons_iff` is about the order of core, which is another instance.
theorem cons_le_cons {x y : TermId} {k l : List TermId} :
    x :: k ≤ y :: l ↔ x < y ∨ x = y ∧ k ≤ l := by
  rw [le_iff_lt_or_eq, List.cons_lt_cons_iff, List.cons.injEq, or_assoc, ← and_or_left,
    ← le_iff_lt_or_eq]

theorem replicate_zero_le (length : key.length = count) : List.replicate count 0 ≤ key := by
  induction count generalizing key with
  | zero => rw [List.eq_nil_of_length_eq_zero length]; exact le_rfl
  | succ count ih =>
    obtain ⟨id, rest, rfl⟩ := List.exists_cons_of_length_eq_add_one length
    rw [List.replicate_succ, cons_le_cons]
    rcases Nat.eq_zero_or_pos id with rfl | positive
    · exact .inr ⟨rfl, ih (Nat.succ.inj length)⟩
    · exact .inl positive

theorem le_replicate_greatest (length : key.length = count)
    (fits : ∀ id ∈ key, id ≤ TermId.greatest) : key ≤ List.replicate count TermId.greatest := by
  induction count generalizing key with
  | zero => rw [List.eq_nil_of_length_eq_zero length]; exact le_rfl
  | succ count ih =>
    obtain ⟨id, rest, rfl⟩ := List.exists_cons_of_length_eq_add_one length
    obtain ⟨first, others⟩ := List.forall_mem_cons.1 fits
    rw [List.replicate_succ, cons_le_cons]
    rcases first.eq_or_lt with rfl | less
    · exact .inr ⟨rfl, ih (Nat.succ.inj length) others⟩
    · exact .inl less

/-- A key lies between the two ends that a lead has if it begins with the lead. -/
theorem between_iff (length : key.length = lead.length + count)
    (fits : ∀ id ∈ key, id ≤ TermId.greatest) :
    lead ++ List.replicate count 0 ≤ key ∧ key ≤ lead ++ List.replicate count TermId.greatest ↔
      key.take lead.length = lead := by
  induction lead generalizing key with
  | nil =>
    rw [List.length_nil, Nat.zero_add] at length
    exact iff_of_true ⟨replicate_zero_le length, le_replicate_greatest length fits⟩ rfl
  | cons id lead ih =>
    rw [List.length_cons, Nat.add_right_comm] at length
    obtain ⟨first, rest, rfl⟩ := List.exists_cons_of_length_eq_add_one length
    have ih := ih (Nat.succ.inj length) (List.forall_mem_cons.1 fits).2
    rw [List.cons_append, List.cons_append, cons_le_cons, cons_le_cons,
      List.length_cons, List.take_succ_cons, List.cons.injEq, ← ih]
    constructor
    · rintro ⟨less | ⟨rfl, low⟩, high⟩
      · exact absurd high (by simp [less.not_gt, less.ne'])
      · exact ⟨rfl, low, (high.resolve_left (lt_irrefl _)).2⟩
    · rintro ⟨rfl, low, high⟩
      exact ⟨.inr ⟨rfl, low⟩, .inr ⟨rfl, high⟩⟩

end Between

namespace Arrangement

variable {a : Arrangement} {q : Quad TermId} {bound : Bound}

/-! ## Quads as keys -/

/-- The quad of a key: every value goes back to its place. -/
def restore (a : Arrangement) (key : List TermId) : Quad TermId :=
  (a.places.zip key).foldl (fun q e => q.set e.2 e.1) ⟨0, 0, 0, 0⟩

theorem get_set (q : Quad TermId) (value : TermId) (p p' : Place) :
    (q.set value p).get p' = if p' = p then value else q.get p' := by
  cases p <;> cases p' <;> rfl

/-- Putting the values of a quad back one after the other leaves no place with another value. -/
theorem get_foldl_set (q start : Quad TermId) (places : List Place) (p : Place) :
    ((places.zip (places.map q.get)).foldl (fun r e => r.set e.2 e.1) start).get p
      = if p ∈ places then q.get p else start.get p := by
  induction places generalizing start with
  | nil => rfl
  | cons first places ih =>
    rw [List.map_cons, List.zip_cons_cons, List.foldl_cons, ih, get_set]
    by_cases later : p ∈ places
    · rw [if_pos later, if_pos (List.mem_cons_of_mem _ later)]
    · by_cases here : p = first
      · subst here
        rw [if_neg later, if_pos rfl, if_pos List.mem_cons_self]
      · rw [if_neg later, if_neg here, if_neg (by simp [here, later])]

/-- Putting back undoes reading in the order of the arrangement. -/
theorem Valid.restore_key (valid : a.Valid) (q : Quad TermId) : a.restore (a.key q) = q :=
  Quad.ext_get fun p => by
    rw [restore, key, get_foldl_set, if_pos (valid.full p)]

/-! ## Finding in a range -/

/-- The keys that are kept, in ascending order. -/
def keys (a : Arrangement) : List (List TermId) :=
  a.quads.map a.key

theorem Valid.ascending_keys (valid : a.Valid) : a.keys.Pairwise (· < ·) :=
  List.pairwise_map.2 valid.ascending

/-- The least key that begins with the bound lead. -/
def low (a : Arrangement) (bound : Bound) : List TermId :=
  a.boundLead bound ++ List.replicate (a.places.length - (a.boundLead bound).length) 0

/-- The greatest such key. -/
def high (a : Arrangement) (bound : Bound) : List TermId :=
  a.boundLead bound ++
    List.replicate (a.places.length - (a.boundLead bound).length) TermId.greatest

theorem length_boundLead_le (a : Arrangement) (bound : Bound) :
    (a.boundLead bound).length ≤ a.places.length :=
  calc (a.boundLead bound).length
      ≤ ((a.places.map bound.get).takeWhile Option.isSome).length := List.length_filterMap_le ..
    _ ≤ (a.places.map bound.get).length := (List.takeWhile_prefix _).length_le
    _ = a.places.length := List.length_map ..

/-- The stretch of the bound lead is the range of keys between the two ends. -/
theorem Valid.stretch_eq_range (valid : a.Valid) (fits : ∀ q ∈ a.quads, ∀ p, q.get p ≤ TermId.greatest)
    (bound : Bound) : a.stretch (a.boundLead bound)
      = a.quads.filter fun q => a.low bound ≤ a.key q ∧ a.key q ≤ a.high bound := by
  rw [stretch_eq_filter valid]
  refine List.filter_congr fun q member => ?_
  have length : (a.key q).length
      = (a.boundLead bound).length + (a.places.length - (a.boundLead bound).length) := by
    rw [Nat.add_sub_cancel' (a.length_boundLead_le bound), key, List.length_map]
  have inside : ∀ id ∈ a.key q, id ≤ TermId.greatest :=
    List.forall_mem_map.2 fun p _ => fits q member p
  rw [Bool.eq_iff_iff, beq_iff_eq, decide_eq_true_iff]
  exact (between_iff length inside).symm

/-- Cutting a range out of the keys, putting the values back and leaving out what disagrees with the
other bound places finds the same. -/
theorem Valid.find_eq_range (valid : a.Valid) (fits : ∀ q ∈ a.quads, ∀ p, q.get p ≤ TermId.greatest)
    (bound : Bound) : a.find bound
      = ((a.keys.filter fun k => a.low bound ≤ k ∧ k ≤ a.high bound).map a.restore).filter
          bound.admits := by
  have restored : a.restore ∘ a.key = id := funext valid.restore_key
  have cut : a.keys.filter (fun k => a.low bound ≤ k ∧ k ≤ a.high bound)
      = (a.stretch (a.boundLead bound)).map a.key := by
    rw [valid.stretch_eq_range fits, keys, List.filter_map]
    rfl
  rw [find, cut, List.map_map, restored, List.map_id]

end Arrangement

/-- Whatever quads of 64-bit numbers were inserted, the keys of every arrangement ascend, and what the
index finds is the range of one of them. -/
theorem QuadIndex.find_eq_range (quads : List (Quad TermId))
    (fits : ∀ q ∈ quads, ∀ p, q.get p ≤ TermId.greatest) (bound : Bound) :
    (∀ a ∈ (ofQuads quads).arrangements, a.keys.Pairwise (· < ·)) ∧
      ∃ a ∈ (ofQuads quads).arrangements, (ofQuads quads).find bound
        = ((a.keys.filter fun k => a.low bound ≤ k ∧ k ≤ a.high bound).map a.restore).filter
          bound.admits := by
  obtain ⟨valid, members⟩ := valid_empty.insertAll quads
  have chosen := (ofQuads quads).choose_mem bound
  refine ⟨fun a member => (valid.arranged a member).ascending_keys, _, chosen, ?_⟩
  refine (valid.arranged _ chosen).find_eq_range (fun q member p => fits q ?_ p) bound
  have inserted := (members q).1 ((valid.same _ chosen q).1 member)
  exact inserted.resolve_left List.not_mem_nil

end QuadQuery
