import Mathlib
import QuadQuery.Binding

/-!
# Rows made from rows

A binding made from a row of numbers gives each variable its number, and merging keeps the value
that came first. Two bindings agree where both have a value.
-/

namespace QuadQuery

namespace Binding

variable {a b c : Binding} {v : Variable} {id : TermId}

/-! ## Rows of numbers -/

theorem get?_foldl_insert (entries : List (Variable × TermId)) (b : Binding) (v : Variable) :
    (entries.foldl (fun b e => b.insert e.1 e.2) b).get? v
      = ((entries.reverse.find? fun e => e.1 == v).map (·.2)).or (b.get? v) := by
  induction entries generalizing b with
  | nil => simp
  | cons e rest ih =>
    rw [List.foldl_cons, ih, List.reverse_cons, List.find?_append, get?_insert]
    cases found : rest.reverse.find? fun e => e.1 == v with
    | some _ => simp
    | none => by_cases h : e.1 = v <;> simp [h]

/-- A row that is as long as its variables binds exactly these. -/
theorem isSome_get?_ofRow {vars : List Variable} {ids : List TermId}
    (length : ids.length = vars.length) : ((ofRow vars ids).get? v).isSome = true ↔ v ∈ vars := by
  have names : (vars.zip ids).map (·.1) = vars := List.map_fst_zip length.ge
  have bound : ((ofRow vars ids).get? v).isSome = true ↔ v ∈ (vars.zip ids).map (·.1) := by
    unfold ofRow
    rw [get?_foldl_insert]
    simp [List.find?_isSome]
  rw [bound, names]

/-- A row over distinct variables gives each of them its number. -/
theorem get?_ofRow_eq_some_iff {vars : List Variable} {ids : List TermId} (distinct : vars.Nodup)
    (length : ids.length = vars.length) :
    (ofRow vars ids).get? v = some id ↔ (v, id) ∈ vars.zip ids := by
  have names : (vars.zip ids).map (·.1) = vars := List.map_fst_zip length.ge
  unfold ofRow
  rw [get?_foldl_insert, get?_empty, Option.or_none]
  constructor
  · intro h
    obtain ⟨⟨w, j⟩, found, same⟩ := Option.map_eq_some_iff.1 h
    have isV : w = v := by simpa using List.find?_some found
    subst isV same
    exact List.mem_reverse.1 (List.mem_of_find?_eq_some found)
  · intro member
    have found : ((vars.zip ids).reverse.find? fun e => e.1 == v).isSome := by
      rw [List.find?_isSome]
      exact ⟨(v, id), List.mem_reverse.2 member, by simp⟩
    obtain ⟨⟨w, j⟩, isFound⟩ := Option.isSome_iff_exists.1 found
    have isV : w = v := by simpa using List.find?_some isFound
    subst isV
    have inZip := List.mem_reverse.1 (List.mem_of_find?_eq_some isFound)
    have same : ((w, j) : Variable × TermId) = (w, id) :=
      List.inj_on_of_nodup_map (names.symm ▸ distinct) inZip member rfl
    rw [isFound, same]
    rfl

/-! ## Merging -/

/-- The one binding gives all that the other gives. -/
def Extends (b a : Binding) : Prop :=
  ∀ v id, a.get? v = some id → b.get? v = some id

theorem Extends.refl (b : Binding) : b.Extends b := fun _ _ h => h

theorem Extends.trans (h : c.Extends b) (h' : b.Extends a) : c.Extends a :=
  fun v id known => h v id (h' v id known)

theorem Extends.antisymm (h : b.Extends a) (h' : a.Extends b) : a = b :=
  ext_get? fun v => Option.ext fun id => ⟨h v id, h' v id⟩

theorem extends_extendAbsent (a b : Binding) : (a.extendAbsent b).Extends a :=
  fun v id known => by simp [known]

/-- Where both have a value it is the same. -/
def Agrees (a b : Binding) : Prop :=
  ∀ v i j, a.get? v = some i → b.get? v = some j → i = j

instance (a b : Binding) : Decidable (a.Agrees b) :=
  decidable_of_iff (∀ e ∈ a.entries, ∀ j ∈ b.get? e.1, e.2 = j)
    ⟨fun h v i j hi hj => h (v, i) (mem_entries_iff.2 hi) j hj,
      fun h e member j hj => h e.1 e.2 j (mem_entries_iff.1 member) hj⟩

theorem Agrees.symm (h : a.Agrees b) : b.Agrees a := fun v i j hi hj => (h v j i hj hi).symm

theorem agrees_extendAbsent (a b : Binding) : a.Agrees (a.extendAbsent b) := fun v i j hi hj => by
  rw [get?_extendAbsent, hi] at hj
  exact Option.some.inj hj

theorem Agrees.extendAbsent (ha : a.Agrees c) (hb : b.Agrees c) : (a.extendAbsent b).Agrees c :=
  fun v i j hi hj => by
    rw [get?_extendAbsent, Option.or_eq_some_iff] at hi
    exact hi.elim (fun h => ha v i j h hj) fun h => hb v i j h.2 hj

theorem mem_vars : v ∈ b.vars ↔ (b.get? v).isSome = true := by
  rw [Option.isSome_iff_exists, Binding.vars, List.mem_map]
  constructor
  · rintro ⟨⟨w, id⟩, member, rfl⟩
    exact ⟨id, mem_entries_iff.1 member⟩
  · rintro ⟨id, known⟩
    exact ⟨(v, id), mem_entries_iff.2 known, rfl⟩

/-- Only the variables of the list have a value. -/
def Within (b : Binding) (vars : List Variable) : Prop :=
  ∀ v, (b.get? v).isSome = true → v ∈ vars

theorem within_empty (vars : List Variable) : (∅ : Binding).Within vars := fun v h => by simp at h

theorem Within.mono {vars vars' : List Variable} (h : b.Within vars) (more : vars ⊆ vars') :
    b.Within vars' := fun v known => more (h v known)

theorem Within.extendAbsent {vars : List Variable} (ha : a.Within vars) (hb : b.Within vars) :
    (a.extendAbsent b).Within vars := fun v known => by
  rw [get?_extendAbsent, Option.isSome_or, Bool.or_eq_true] at known
  exact known.elim (ha v) (hb v)

/-- An extended binding gives values to all variables that either of the two gives one to. -/
theorem isSome_get?_extendAbsent {vars vars' : List Variable}
    (first : ∀ v ∈ vars, (a.get? v).isSome = true)
    (second : ∀ v ∈ vars', (b.get? v).isSome = true) :
    ∀ v ∈ vars ++ vars', ((a.extendAbsent b).get? v).isSome = true := by
  intro v listed
  rw [get?_extendAbsent, Option.isSome_or, Bool.or_eq_true]
  exact (List.mem_append.1 listed).imp (first v) (second v)

/-! ## Restricting -/

/-- The values for the variables of the list alone. -/
def restrict (b : Binding) (vars : List Variable) : Binding :=
  ⟨b.entries.filter fun e => e.1 ∈ vars, List.Pairwise.filter _ b.ascending⟩

@[simp]
theorem get?_restrict (b : Binding) (vars : List Variable) (v : Variable) :
    (b.restrict vars).get? v = if v ∈ vars then b.get? v else none := by
  refine Option.ext fun id => ?_
  rw [← mem_entries_iff, restrict, List.mem_filter, mem_entries_iff]
  by_cases member : v ∈ vars <;> simp [member]

end Binding

end QuadQuery
