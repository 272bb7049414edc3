import QuadQuery.Proofs.Scan.Position

/-!
# The rows that a scan hands out

A scan that was settled and moved to a context hands out the matches of its pattern that agree with
the context on what is bound further up, each once and in ascending order
(`IndexScan.handsOut_matches`).
-/

namespace QuadQuery

/-- The binding gives the variables of the pattern values with which all of it is in the dataset,
and agrees with a context. -/
structure BasicPattern.Matches (d : Dataset) (context : Binding) (pattern : BasicPattern)
    (b : Binding) : Prop where
  within : b.Within pattern.vars
  holds : pattern.HoldsIn d b
  agrees : b.Agrees context

/-- The rows list the matches of a pattern that agree with a context: of each the values of the
attributes in turn, once, and in strictly ascending order of the rows. -/
structure BasicPattern.Lists (d : Dataset) (context : Binding) (pattern : BasicPattern)
    (attributes : List Variable) (rows : List Row) : Prop where
  mem : ∀ {row : Row}, row ∈ rows ↔
    ∃ b, pattern.Matches d context b ∧ attributes.mapM b.get? = some row
  ascending : rows.Pairwise (· < ·)

namespace BasicPattern.Lists

variable {d : Dataset} {context b : Binding} {pattern : BasicPattern} {attributes : List Variable}
  {rows : List Row}

theorem nodup (lists : pattern.Lists d context attributes rows) : rows.Nodup :=
  lists.ascending.nodup

/-- Read as bindings of the attributes, the rows are the matches. -/
theorem mem_map_ofRow (lists : pattern.Lists d context attributes rows)
    (same : attributes.Perm pattern.vars) :
    b ∈ rows.map (Binding.ofRow attributes) ↔ pattern.Matches d context b := by
  have distinct : attributes.Nodup := same.nodup_iff.2 nodup_vars
  have read {b row} (matched : pattern.Matches d context b)
      (values : attributes.mapM b.get? = some row) : Binding.ofRow attributes row = b :=
    IndexScan.ofRow_eq_of_mapM distinct values fun v known =>
      same.mem_iff.2 (matched.within v known)
  rw [List.mem_map]
  constructor
  · rintro ⟨row, member, rfl⟩
    obtain ⟨b, matched, values⟩ := lists.mem.1 member
    exact (read matched values).symm ▸ matched
  · intro matched
    obtain ⟨row, values⟩ := exists_mapM (f := b.get?) (l := attributes) fun v member =>
      matched.holds.isSome_get? (same.mem_iff.1 member)
    exact ⟨row, lists.mem.2 ⟨b, matched, values⟩, read matched values⟩

/-- No two rows are read as one binding. -/
theorem nodup_map_ofRow (lists : pattern.Lists d context attributes rows)
    (distinct : attributes.Nodup) : (rows.map (Binding.ofRow attributes)).Nodup := by
  refine lists.nodup.map_on fun row hr row' hr' same => ?_
  have length {row} (member : row ∈ rows) : row.length = attributes.length := by
    obtain ⟨b, _, values⟩ := lists.mem.1 member
    exact (mapM_eq_some_iff.1 values).length_eq.symm
  have value := IndexScan.mapM_get?_ofRow distinct (length hr)
  rw [same, IndexScan.mapM_get?_ofRow distinct (length hr')] at value
  exact (Option.some.inj value).symm

/-- The empty pattern has the empty row alone. -/
theorem of_isEmpty (lists : pattern.Lists d context attributes rows)
    (same : attributes.Perm pattern.vars) (empty : pattern.patterns = []) : rows = [[]] := by
  obtain ⟨rfl⟩ : pattern = ⟨[]⟩ := by cases pattern; cases empty; rfl
  obtain rfl : attributes = [] := same.eq_nil
  have all (row : Row) : row ∈ rows ↔ row = [] := by
    rw [lists.mem]
    constructor
    · rintro ⟨b, _, values⟩
      exact (Option.some.inj values).symm
    · rintro rfl
      refine ⟨∅, ⟨Binding.within_empty _, fun p member => ?_, fun v i j hi => ?_⟩, rfl⟩
      · cases member
      · cases hi
  exact List.perm_singleton.1 ((List.perm_ext_iff_of_nodup lists.nodup (List.nodup_singleton _)).2
    fun row => (all row).trans List.mem_singleton.symm)

end BasicPattern.Lists

namespace IndexScan

variable {d : Dataset} {s s' : IndexScan} {context : Binding} {incoming : AttributeOrder}
  {pattern : BasicPattern} {rows : List Row}

/-! ## Handing out -/

/-- The scan hands out these rows in turn and then none. -/
inductive HandsOut : IndexScan → List Row → Prop
  | done {s : IndexScan} (ended : s.next? false = none) : HandsOut s []
  | cons {s s' : IndexScan} {row : Row} {rows : List Row} (first : s.next? false = some (row, s'))
      (others : HandsOut s' rows) : HandsOut s (row :: rows)

theorem handsOut_rest (s : IndexScan) : s.HandsOut s.rest := by
  generalize same : s.rest = rows
  induction rows generalizing s with
  | nil => exact .done (by simp [next?, same])
  | cons row rest ih =>
    have first : s.next? false = some (row, { s with rest }) := by simp [next?, same]
    exact .cons first (ih _ rfl)

/-! ## The order of the attributes -/

theorem sorted_insertByPlace {e : Variable × Nat} {l : List (Variable × Nat)}
    (sorted : l.Pairwise fun a b => a.2 ≤ b.2) :
    (inheritedVars.insertByPlace e l).Pairwise fun a b => a.2 ≤ b.2 := by
  induction l with
  | nil => exact List.pairwise_singleton ..
  | cons first rest ih =>
    obtain ⟨before, others⟩ := List.pairwise_cons.1 sorted
    unfold inheritedVars.insertByPlace
    split
    · next le =>
      refine List.pairwise_cons.2 ⟨fun a member => ?_, sorted⟩
      rcases List.mem_cons.1 member with rfl | member
      · exact le
      · exact le.trans (before a member)
    · next greater =>
      refine List.pairwise_cons.2 ⟨fun a member => ?_, ih others⟩
      rcases List.mem_cons.1 ((perm_insertByPlace e rest).mem_iff.1 member) with rfl | member
      · exact Nat.le_of_not_le greater
      · exact before a member

theorem sorted_inheritedVars (pattern : BasicPattern) (incoming : AttributeOrder) :
    (inheritedVars pattern incoming).Pairwise fun a b => a.2 ≤ b.2 := by
  unfold inheritedVars
  induction pattern.vars.filterMap fun v => (incoming.position? v).map (v, ·) with
  | nil => exact .nil
  | cons e rest ih => exact sorted_insertByPlace ih

/-- Without repetitions a variable of the order stands at its place. -/
theorem position?_getElem (distinct : incoming.vars.Nodup) {p : Nat}
    (bound : p < incoming.vars.length) : incoming.position? incoming.vars[p] = some p := by
  rw [AttributeOrder.position?, List.idxOf?_eq_some_iff]
  exact ⟨bound, rfl, fun j before same => (distinct.getElem_inj_iff.1 same ▸ before).false⟩

/-- The attributes bound further up come in the incoming order. -/
theorem map_inheritedVars (pattern : BasicPattern) (distinct : incoming.vars.Nodup) :
    (inheritedVars pattern incoming).map (·.1)
      = incoming.vars.filter fun v => v ∈ pattern.vars := by
  -- Both lists have the same members, in ascending order of their places.
  let before (v w : Variable) : Prop :=
    ∀ p q, incoming.position? v = some p → incoming.position? w = some q → p ≤ q
  have perm : ((inheritedVars pattern incoming).map (·.1)).Perm
      (incoming.vars.filter fun v => v ∈ pattern.vars) := by
    refine (perm_map_inheritedVars pattern incoming).trans
      ((List.perm_ext_iff_of_nodup (BasicPattern.nodup_vars.filter _) (distinct.filter _)).2 ?_)
    simp [AttributeOrder.isSome_position?, and_comm]
  refine @List.Perm.eq_of_pairwise _ before _ _ (fun v w hv hw first second => ?_) ?_ ?_ perm
  · obtain ⟨p, bound, rfl⟩ := List.getElem_of_mem (List.mem_filter.1 (perm.mem_iff.1 hv)).1
    obtain ⟨q, bound', rfl⟩ := List.getElem_of_mem (List.mem_filter.1 hw).1
    have le := first p q (position?_getElem distinct bound) (position?_getElem distinct bound')
    have ge := second q p (position?_getElem distinct bound') (position?_getElem distinct bound)
    simp only [Nat.le_antisymm le ge]
  · refine List.pairwise_map.2 ((sorted_inheritedVars pattern incoming).imp_of_mem ?_)
    intro a b ha hb le p q hp hq
    rw [(mem_inheritedVars.1 ha).2, Option.some.injEq] at hp
    rw [(mem_inheritedVars.1 hb).2, Option.some.injEq] at hq
    exact hp ▸ hq ▸ le
  · refine List.Pairwise.filter _ (List.pairwise_iff_getElem.2 ?_)
    intro i j hi hj less p q hp hq
    rw [position?_getElem distinct, Option.some.injEq] at hp hq
    exact hp ▸ hq ▸ less.le

/-- A settled scan lists its variables in the order of those further up, and then the others in the
order of their first appearance. -/
theorem attributes_init (s : IndexScan) (d : Dataset) (distinct : incoming.vars.Nodup) :
    (s.init d incoming).2.attributes = incoming.vars.filter (fun v => v ∈ s.pattern.vars)
      ++ s.pattern.vars.filter fun v => v ∉ incoming.vars := by
  have fresh : freshVars s.pattern incoming = s.pattern.vars.filter fun v => v ∉ incoming.vars :=
    List.filter_congr fun v _ => by
      rw [Bool.eq_iff_iff, decide_eq_true_iff, ← AttributeOrder.isSome_position?]
      simp
  rw [← map_inheritedVars s.pattern distinct, ← fresh]
  rfl

/-! ## Matches -/

/-- The rows made for a context list the matches that agree with it on what is bound further up. -/
theorem mem_rowsFor_init (valid : d.Valid) (s : IndexScan) {row : Row} :
    row ∈ (s.init d incoming).2.rowsFor d ((s.init d incoming).2.keyFor context) ↔
      ∃ b, s.pattern.Matches d (context.restrict incoming.vars) b ∧
        (s.init d incoming).2.attributes.mapM b.get? = some row := by
  have init := initialized_init s d incoming
  have inherited := fun v => @mem_inheritedAttributes_init s d incoming v
  have pattern : (s.init d incoming).2.pattern = s.pattern := rfl
  rw [mem_rowsFor valid init]
  generalize (s.init d incoming).2 = s' at init inherited pattern ⊢
  rw [pattern]
  constructor
  · rintro ⟨length, holds, agrees⟩
    have within : (Binding.ofRow s'.attributes row).Within s.pattern.vars := fun v known =>
      pattern ▸ (init.mem_attributes v).1 ((Binding.isSome_get?_ofRow length).1 known)
    refine ⟨_, ⟨within, holds, fun v i j hi hj => ?_⟩, mapM_get?_ofRow init.distinct length⟩
    rw [Binding.get?_restrict] at hj
    split at hj
    · next above =>
      have here := agrees v ((inherited v).2 ⟨within v (Option.isSome_of_eq_some hi), above⟩) j hj
      exact Option.some.inj (hi.symm.trans here)
    · cases hj
  · rintro ⟨b, ⟨within, holds, agrees⟩, values⟩
    have same := ofRow_eq_of_mapM init.distinct values fun v known =>
      (init.mem_attributes v).2 (pattern ▸ within v known)
    refine ⟨(mapM_eq_some_iff.1 values).length_eq.symm, same ▸ holds, fun v member i known => ?_⟩
    obtain ⟨inPattern, above⟩ := (inherited v).1 member
    obtain ⟨j, hj⟩ := Option.isSome_iff_exists.1 (holds.isSome_get? inPattern)
    rw [same, hj, agrees v j i hj (by simp [above, known])]

theorem lists_rowsFor_init (valid : d.Valid) (s : IndexScan) (incoming : AttributeOrder)
    (context : Binding) :
    s.pattern.Lists d (context.restrict incoming.vars) (s.init d incoming).2.attributes
      ((s.init d incoming).2.rowsFor d ((s.init d incoming).2.keyFor context)) where
  mem := mem_rowsFor_init valid s
  ascending := ascending_rowsFor ..

/-- A scan that has not been anywhere hands out the rows of the first context that it moves to. -/
theorem seek_first (init : s.Initialized d) (nowhere : s.context = none) (empty : s.rest = [])
    (context : Binding) (firstChanged : Nat) :
    ∃ s', s.seek d context firstChanged
        = .ok (!(s.rowsFor d (s.keyFor context)).isEmpty, s') ∧
      s'.rest = s.rowsFor d (s.keyFor context) := by
  by_cases possible : s.openTerms = true
  · exact ⟨s.derive d (s.keyFor context),
      by simp [seek, init.initialized, possible, nowhere, keyFor, derive], rfl⟩
  · have impossible : s.openTerms = false := by simpa using possible
    exact ⟨s, by simp [seek, init.initialized, impossible, rowsFor_eq_nil impossible],
      by rw [empty, rowsFor_eq_nil impossible]⟩

/-! ## Main statement -/

/-- A scan that is settled and then moved to a context, or opened, hands out the matches of its
pattern that agree with the context on the variables that were met further up, and nothing else.
It says that its terms cannot be met only if there is no match at all, and it has the empty row
for the empty pattern. -/
theorem handsOut_matches (reachable : d.Reachable) (pattern : BasicPattern)
    (distinct : incoming.vars.Nodup) (context : Binding) :
    let s := (({ pattern } : IndexScan).init d incoming).2
    s.attributes = incoming.vars.filter (fun v => v ∈ pattern.vars)
      ++ pattern.vars.filter (fun v => v ∉ incoming.vars) ∧
    (∃ s' rows, s.seek d context 0 = .ok (!rows.isEmpty, s') ∧ s'.HandsOut rows ∧
      pattern.Lists d (context.restrict incoming.vars) s.attributes rows ∧
      (pattern.patterns = [] → rows = [[]])) ∧
    (∃ s' rows, s.open d = .ok s' ∧ s'.HandsOut rows ∧
      pattern.Lists d ∅ s.attributes rows ∧ (pattern.patterns = [] → rows = [[]])) ∧
    (s.openTerms = false → ∀ b, ¬ pattern.HoldsIn d b) := by
  intro s
  have init : s.Initialized d := initialized_init _ d incoming
  have lists (context : Binding) : pattern.Lists d (context.restrict incoming.vars) s.attributes
      (s.rowsFor d (s.keyFor context)) :=
    lists_rowsFor_init reachable.valid { pattern } incoming context
  have same : s.attributes.Perm pattern.vars := perm_attributes_init { pattern } d incoming
  refine ⟨attributes_init _ d distinct, ?_, ?_, fun impossible b holds => ?_⟩
  · obtain ⟨s', sought, rest⟩ := seek_first init rfl rfl context 0
    exact ⟨s', _, sought, rest ▸ handsOut_rest s', lists context, (lists context).of_isEmpty same⟩
  · have nothing : (∅ : Binding).restrict incoming.vars = ∅ := rfl
    have opened := nothing ▸ lists ∅
    exact ⟨s.derive d (s.keyFor ∅), s.rowsFor d (s.keyFor ∅), open_eq init, handsOut_rest _, opened,
      opened.of_isEmpty same⟩
  · obtain ⟨patterns, found⟩ := ResolvedPattern.exists_resolve reachable.valid holds
    have none : s.resolved = none := by simpa [openTerms] using impossible
    cases none.symm.trans (init.resolved.trans found)

/-- The middle of a path is bound further up, by a variable that the context gives a value. -/
theorem handsOut_matches_path :
    let d := (Dataset.empty.addAll [⟨.iri "a", .iri "p", .iri "b", none⟩,
      ⟨.iri "b", .iri "p", .iri "c", none⟩]).2
    let pattern : BasicPattern := ⟨[.triple (.var ⟨"s"⟩) (.term (.iri "p")) (.var ⟨"m"⟩),
      .triple (.var ⟨"m"⟩) (.term (.iri "p")) (.var ⟨"o"⟩)]⟩
    let s := (({ pattern } : IndexScan).init d ⟨[⟨"x"⟩, ⟨"m"⟩]⟩).2
    s.attributes = [⟨"m"⟩, ⟨"s"⟩, ⟨"o"⟩] ∧
    ∃ s' rows, s.seek d (.ofRow [⟨"m"⟩] [3]) 0 = .ok (!rows.isEmpty, s') ∧ s'.HandsOut rows ∧
      [3, 1, 4] ∈ rows := by
  intro d pattern s
  have distinct : (⟨[⟨"x"⟩, ⟨"m"⟩]⟩ : AttributeOrder).vars.Nodup := by decide
  obtain ⟨attributes, ⟨s', rows, sought, out, lists, _⟩, _⟩ :=
    handsOut_matches (.addAll .empty _ : d.Reachable) pattern distinct (.ofRow [⟨"m"⟩] [3])
  have within : (Binding.ofRow s.attributes [3, 1, 4]).Within pattern.vars := fun v known =>
    (perm_attributes_init { pattern } d _).mem_iff.1 ((Binding.isSome_get?_ofRow rfl).1 known)
  exact ⟨by decide, s', rows, sought, out,
    lists.mem.2 ⟨_, ⟨within, by decide +kernel, by decide +kernel⟩, by decide⟩⟩

end IndexScan

end QuadQuery
