import QuadQuery.Proofs.Scan.Rows

/-!
# Settling the order of variables with a scan

A scan takes the variables that it finds in the incoming order as bound further up, in the order
of their places, and puts its other variables behind them. The order that it returns begins with
the incoming one.
-/

namespace QuadQuery

theorem getElem?_of_isPrefix {α : Type} {l m : List α} (h : l <+: m) {i : Nat} {a : α}
    (found : l[i]? = some a) : m[i]? = some a := by
  obtain ⟨rest, rfl⟩ := h
  rw [List.getElem?_append_left (List.getElem?_eq_some_iff.1 found).1, found]

namespace IndexScan

variable {s : IndexScan} {d : Dataset} {incoming : AttributeOrder} {v : Variable}

theorem perm_insertByPlace (e : Variable × Nat) (l : List (Variable × Nat)) :
    (inheritedVars.insertByPlace e l).Perm (e :: l) := by
  induction l with
  | nil => exact .refl _
  | cons first rest ih =>
    unfold inheritedVars.insertByPlace
    split
    · exact .refl _
    · exact (ih.cons first).trans (.swap e first rest)

theorem perm_inheritedVars (pattern : BasicPattern) (incoming : AttributeOrder) :
    (inheritedVars pattern incoming).Perm
      (pattern.vars.filterMap fun v => (incoming.position? v).map (v, ·)) := by
  unfold inheritedVars
  induction pattern.vars.filterMap fun v => (incoming.position? v).map (v, ·) with
  | nil => exact .refl _
  | cons e rest ih => exact (perm_insertByPlace e _).trans (ih.cons e)

theorem mem_inheritedVars {pattern : BasicPattern} {e : Variable × Nat} :
    e ∈ inheritedVars pattern incoming ↔
      e.1 ∈ pattern.vars ∧ incoming.position? e.1 = some e.2 := by
  rw [(perm_inheritedVars pattern incoming).mem_iff, List.mem_filterMap]
  constructor
  · rintro ⟨v, hv, place⟩
    obtain ⟨p, hp, rfl⟩ := Option.map_eq_some_iff.1 place
    exact ⟨hv, hp⟩
  · exact fun ⟨hv, hp⟩ => ⟨e.1, hv, by simp [hp]⟩

theorem perm_map_inheritedVars (pattern : BasicPattern) (incoming : AttributeOrder) :
    ((inheritedVars pattern incoming).map (·.1)).Perm
      (pattern.vars.filter fun v => (incoming.position? v).isSome) := by
  refine ((perm_inheritedVars pattern incoming).map _).trans (.of_eq ?_)
  induction pattern.vars with
  | nil => rfl
  | cons v rest ih =>
    cases place : incoming.position? v with
    | none => simpa [place] using ih
    | some p => simpa [place] using ih

/-- The attributes are the variables of the pattern in some order. -/
theorem perm_attributes_init (s : IndexScan) (d : Dataset) (incoming : AttributeOrder) :
    (s.init d incoming).2.attributes.Perm s.pattern.vars := by
  have fresh : freshVars s.pattern incoming
      = s.pattern.vars.filter fun v => !(incoming.position? v).isSome := by
    simp [freshVars]
  change ((inheritedVars s.pattern incoming).map (·.1) ++ freshVars s.pattern incoming).Perm _
  rw [fresh]
  exact ((perm_map_inheritedVars s.pattern incoming).append_right _).trans
    (List.filter_append_perm _ _)

theorem inheritedAttributes_init (s : IndexScan) (d : Dataset) (incoming : AttributeOrder) :
    (s.init d incoming).2.inheritedAttributes = (inheritedVars s.pattern incoming).map (·.1) := by
  simp [inheritedAttributes, init]

/-- The attributes bound further up are the variables that the incoming order has. -/
theorem mem_inheritedAttributes_init :
    v ∈ (s.init d incoming).2.inheritedAttributes ↔ v ∈ s.pattern.vars ∧ v ∈ incoming.vars := by
  rw [inheritedAttributes_init, (perm_map_inheritedVars s.pattern incoming).mem_iff,
    List.mem_filter, AttributeOrder.isSome_position?]

/-- An attribute bound further up stands at its place in the incoming order. -/
theorem getElem?_incoming {i p : Nat} (h : (s.init d incoming).2.inherited[i]? = some p) :
    incoming.vars[p]? = (s.init d incoming).2.attributes[i]? := by
  change ((inheritedVars s.pattern incoming).map (·.2))[i]? = some p at h
  rw [List.getElem?_map, Option.map_eq_some_iff] at h
  obtain ⟨e, found, rfl⟩ := h
  have place := (mem_inheritedVars.1 (List.mem_of_getElem? found)).2
  have bound : i < ((inheritedVars s.pattern incoming).map (·.1)).length := by
    simpa using (List.getElem?_eq_some_iff.1 found).1
  change _ = ((inheritedVars s.pattern incoming).map (·.1) ++ freshVars s.pattern incoming)[i]?
  rw [AttributeOrder.getElem?_of_position? place, List.getElem?_append_left bound,
    List.getElem?_map, found]
  rfl

theorem order_init (s : IndexScan) (d : Dataset) (incoming : AttributeOrder) :
    (s.init d incoming).2.order = (s.init d incoming).1 := rfl

theorem isPrefix_order_init (s : IndexScan) (d : Dataset) (incoming : AttributeOrder) :
    incoming.vars <+: (s.init d incoming).1.vars :=
  AttributeOrder.isPrefix_extend

/-- Without an incoming order the attributes make the order. -/
theorem order_init_empty (s : IndexScan) (d : Dataset) :
    (s.init d ∅).1.vars = (s.init d ∅).2.attributes := by
  have distinct : (s.init d ∅).2.attributes.Nodup :=
    (perm_attributes_init s d ∅).nodup_iff.2 BasicPattern.nodup_vars
  have inherited : inheritedVars s.pattern ∅ = [] := by
    refine List.eq_nil_iff_forall_not_mem.2 fun e member => ?_
    exact nomatch (mem_inheritedVars.1 member).2
  have attributes : (s.init d ∅).2.attributes = freshVars s.pattern ∅ := by
    change (inheritedVars s.pattern ∅).map (·.1) ++ freshVars s.pattern ∅ = _
    rw [inherited]
    rfl
  rw [attributes] at distinct ⊢
  have order : Variable.appendNew [] (freshVars s.pattern ∅) = [] ++ freshVars s.pattern ∅ :=
    Variable.appendNew_eq_append distinct
  exact order

/-- The returned order has the incoming variables and those of the pattern. -/
theorem mem_order_init :
    v ∈ (s.init d incoming).1.vars ↔ v ∈ incoming.vars ∨ v ∈ s.pattern.vars := by
  change v ∈ (incoming.extend (freshVars s.pattern incoming)).vars ↔ _
  have fresh : v ∈ freshVars s.pattern incoming ↔ v ∈ s.pattern.vars ∧ v ∉ incoming.vars := by
    rw [freshVars, List.mem_filter, ← @AttributeOrder.isSome_position? incoming v]
    simp
  rw [AttributeOrder.mem_extend, fresh]
  by_cases known : v ∈ incoming.vars <;> simp [known]

theorem initialized_init (s : IndexScan) (d : Dataset) (incoming : AttributeOrder) :
    (s.init d incoming).2.Initialized d where
  initialized := rfl
  resolved := rfl
  distinct := (perm_attributes_init s d incoming).nodup_iff.2 BasicPattern.nodup_vars
  mem_attributes := fun _ => (perm_attributes_init s d incoming).mem_iff
  mem_order := fun _ member =>
    (@mem_order_init s d incoming _).2 (.inr ((perm_attributes_init s d incoming).mem_iff.1 member))
  places := fun i p h => by
    have place := getElem?_incoming h
    obtain ⟨bound, _⟩ := List.getElem?_eq_some_iff.1 h
    have fewer : (s.init d incoming).2.inherited.length
        ≤ (s.init d incoming).2.attributes.length := by simp [init]
    rw [List.getElem?_eq_getElem (bound.trans_le fewer)] at place ⊢
    exact getElem?_of_isPrefix (isPrefix_order_init s d incoming) place
  fewer := by simp [init]

end IndexScan

end QuadQuery
