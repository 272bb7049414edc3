import QuadQuery.Proofs.Scan.Order

/-!
# Moving a scan

Whatever a scan did before, moving it to a context with a truthful hint leaves it at the start of
the rows for that context (`Scan.seek_spec`), and so do opening it for the empty context
(`Scan.open_spec`) and starting over for the context that it is at (`Scan.reset_spec`).
-/

namespace QuadQuery

namespace AttributeOrder

/-- Two bindings give the same to all variables that come before a place of the order. -/
def Unchanged (order : AttributeOrder) (old new : Binding) (firstChanged : Nat) :
    Prop :=
  ∀ p < firstChanged, ∀ v, order.vars[p]? = some v → old.get? v = new.get? v

variable {order : AttributeOrder} {old new : Binding}

theorem firstChanged_le_size (order : AttributeOrder) (old : Option Binding) (new : Binding) :
    order.firstChanged old new ≤ order.vars.length := by
  cases old with
  | none => exact Nat.zero_le _
  | some old => exact List.findIdx_le_length

/-- Before the first place that changed the two bindings have the same values. -/
theorem get?_eq_of_lt_firstChanged {p : Nat} {v : Variable}
    (before : p < order.firstChanged (some old) new) (here : order.vars[p]? = some v) :
    old.get? v = new.get? v := by
  obtain ⟨bound, same⟩ := List.getElem?_eq_some_iff.1 here
  have unchanged := List.not_of_lt_findIdx before
  rw [same] at unchanged
  simpa using unchanged

end AttributeOrder

/-- An index scan is opened by making the rows for the empty context. -/
theorem IndexScan.open_eq {d : Dataset} {s : IndexScan} (init : s.Initialized d) :
    s.open d = .ok (s.derive d (s.keyFor ∅)) := by
  have values : (∅ : Binding).get? = fun _ => none := rfl
  have key : (s.inherited.map fun _ => none) = s.keyFor ∅ := by
    simp [keyFor, inheritedAttributes, values, init.fewer]
  rw [IndexScan.open, if_pos init.initialized, key]

namespace Scan

/-- The rows of an initialized scan for a context, wherever it has been before. -/
def rowsAt (d : Dataset) (context : Binding) : Scan → List Row
  | .index s => s.rowsFor d (s.keyFor context)
  | .fixed s => s.rows

/-- The rows of the place where the scan is. -/
def rows : Scan → List Row
  | .index s => s.rows
  | .fixed s => s.rows

/-- The rows that the scan has not handed out yet. -/
def rest : Scan → List Row
  | .index s => s.rest
  | .fixed s => s.rest

/-- The scan without the place where it is: all that moving leaves as it is. -/
def blank : Scan → Scan
  | .index s => .index { s with context := none, rows := [], rest := [] }
  | .fixed s => .fixed { s with rest := [] }

/-- An initialized index scan, or a scan of given rows that never refuses and whose rows are as
long as its variables. -/
def Sound (d : Dataset) : Scan → Prop
  | .index s => s.Initialized d
  | .fixed s =>
    s.openRefusal = none ∧ s.seekRefusal = none ∧ ∀ row ∈ s.rows, row.length = s.vars.length

/-- The scan has been moved to some context. A scan of given rows needs none. -/
def Positioned : Scan → Prop
  | .index s => s.context ≠ none
  | .fixed _ => True

/-- The scan is at the context, if it is anywhere. -/
def At (d : Dataset) (context : Binding) : Scan → Prop
  | .index s => s.context = none ∧ s.rows = [] ∨
      s.context = some (s.keyFor context) ∧ s.rows = s.rowsFor d (s.keyFor context)
  | .fixed _ => True

/-- The hint is right about the attributes of the scan that are bound further up: those at places
before `firstChanged` have not changed. -/
def Unmoved (old new : Binding) (firstChanged : Nat) : Scan → Prop
  | .index s => ∀ (i p : Nat) (v : Variable), s.inherited[i]? = some p →
      s.attributes[i]? = some v → p < firstChanged → old.get? v = new.get? v
  | .fixed _ => True

variable {d : Dataset} {s s' : Scan} {context old new : Binding} {firstChanged : Nat}

/-! ## What moving leaves as it is -/

section Blank

theorem rowsAt_of_blank (same : s'.blank = s.blank) (d : Dataset) (context : Binding) :
    s'.rowsAt d context = s.rowsAt d context := by
  have blank : ∀ s : Scan, s.blank.rowsAt d context = s.rowsAt d context := fun s => by cases s <;> rfl
  rw [← blank s', same, blank]

theorem attributes_of_blank (same : s'.blank = s.blank) : s'.attributes = s.attributes := by
  have blank : ∀ s : Scan, s.blank.attributes = s.attributes := fun s => by cases s <;> rfl
  rw [← blank s', same, blank]

theorem order_of_blank (same : s'.blank = s.blank) : s'.order = s.order := by
  have blank : ∀ s : Scan, s.blank.order = s.order := fun s => by cases s <;> rfl
  rw [← blank s', same, blank]

theorem openTerms_of_blank (same : s'.blank = s.blank) : s'.openTerms = s.openTerms := by
  have blank : ∀ s : Scan, s.blank.openTerms = s.openTerms := fun s => by cases s <;> rfl
  rw [← blank s', same, blank]

theorem hasVariable_of_blank (same : s'.blank = s.blank) : s'.hasVariable = s.hasVariable := by
  have blank : ∀ s : Scan, s.blank.hasVariable = s.hasVariable := fun s => by cases s <;> rfl
  rw [← blank s', same, blank]

theorem Unmoved.of_blank (unmoved : s.Unmoved old new firstChanged) (same : s'.blank = s.blank) :
    s'.Unmoved old new firstChanged := by
  have blank : ∀ s : Scan, s.blank.Unmoved old new firstChanged ↔ s.Unmoved old new firstChanged :=
    fun s => by cases s <;> exact Iff.rfl
  exact (blank s').1 (same ▸ (blank s).2 unmoved)

theorem Sound.of_blank (sound : s.Sound d) (same : s'.blank = s.blank) : s'.Sound d := by
  have blank : ∀ s : Scan, s.blank.Sound d ↔ s.Sound d := fun s => by
    cases s with
    | index s =>
      exact ⟨fun ⟨a, b, c, d, e, f, g⟩ => ⟨a, b, c, d, e, f, g⟩,
        fun ⟨a, b, c, d, e, f, g⟩ => ⟨a, b, c, d, e, f, g⟩⟩
    | fixed s => exact Iff.rfl
  exact (blank s').1 (same ▸ (blank s).2 sound)

end Blank

/-! ## Rows and attributes -/

theorem Sound.length_eq (valid : d.Valid) (sound : s.Sound d) {ids : Row}
    (member : ids ∈ s.rowsAt d context) : ids.length = s.attributes.length := by
  cases s with
  | index s => exact ((IndexScan.mem_rowsFor valid sound).1 member).1
  | fixed s => exact sound.2.2 ids member

theorem Sound.hasVariable_iff (sound : s.Sound d) {v : Variable} :
    s.hasVariable v = true ↔ v ∈ s.attributes := by
  cases s with
  | index s => exact BasicPattern.mentions_iff.trans (sound.mem_attributes v).symm
  | fixed s => exact List.contains_iff_mem

theorem At.rows_eq (stands : s.At d context) (positioned : s.Positioned) :
    s.rows = s.rowsAt d context := by
  cases s with
  | index s => exact (stands.resolve_left fun none => positioned none.1).2
  | fixed s => rfl

/-! ## Moving -/

/-- The scan was moved to the start of the rows of a context. -/
structure Moved (d : Dataset) (context : Binding) (s s' : Scan) : Prop where
  blank : s'.blank = s.blank
  stands : s'.At d context
  positioned : s'.Positioned
  rest : s'.rest = s.rowsAt d context

theorem moved_derive (s : IndexScan) (d : Dataset) (context : Binding) :
    Moved d context (.index s) (.index (s.derive d (s.keyFor context))) :=
  ⟨rfl, .inr ⟨rfl, rfl⟩, by simp [Positioned, IndexScan.derive], rfl⟩

/-- Two contexts with the same values for what is bound further up have the same key. -/
theorem keyFor_congr {s : IndexScan} (unmoved : (Scan.index s).Unmoved old new firstChanged)
    (all : s.inherited.all (· < firstChanged) = true) : s.keyFor old = s.keyFor new := by
  refine List.map_congr_left fun v member => ?_
  obtain ⟨i, here⟩ := List.getElem?_of_mem member
  have bound : i < s.inherited.length := by
    by_contra beyond
    rw [IndexScan.inheritedAttributes, List.getElem?_eq_none (by simp; omega)] at here
    cases here
  have place := List.getElem?_eq_getElem bound
  rw [IndexScan.inheritedAttributes, List.getElem?_take_of_lt bound] at here
  exact unmoved i _ v place here (by simpa using List.all_eq_true.1 all _ (List.getElem_mem bound))

theorem seek_spec (sound : s.Sound d) (stands : s.At d old) (possible : s.openTerms = true)
    (truthful : s.Positioned → s.Unmoved old new firstChanged) :
    ∃ s', s.seek d new firstChanged = (.ok !(s.rowsAt d new).isEmpty, s') ∧ Moved d new s s' := by
  cases s with
  | fixed s =>
    obtain ⟨_, refuses, _⟩ := sound
    refine ⟨.fixed s.rewind, ?_, rfl, trivial, trivial, rfl⟩
    simp [Scan.seek, FixedScan.seek, refuses, Except.mapError, rowsAt]
  | index s =>
    have init : s.Initialized d := sound
    -- where the key of the new context is that of the old one, starting over is moving
    have again : s.context ≠ none → s.keyFor old = s.keyFor new →
        s.reset.1 = !(s.rowsFor d (s.keyFor new)).isEmpty ∧
          Moved d new (.index s) (.index s.reset.2) := by
      intro positioned same
      obtain ⟨context, rows⟩ := stands.resolve_left fun none => positioned none.1
      rw [same] at context rows
      exact ⟨by rw [IndexScan.reset, rows], rfl, .inr ⟨context, rows⟩, positioned, rows⟩
    have initialized := init.initialized
    have possible : s.openTerms = true := possible
    simp only [Scan.seek, IndexScan.seek, initialized, possible, Bool.not_true, Bool.false_eq_true,
      if_false]
    by_cases untouched : (s.context.isSome && s.inherited.all (· < firstChanged)) = true
    · rw [if_pos untouched]
      obtain ⟨somewhere, all⟩ := Bool.and_eq_true_iff.1 untouched
      have positioned : s.context ≠ none := Option.isSome_iff_ne_none.1 somewhere
      obtain ⟨found, moved⟩ := again positioned (keyFor_congr (truthful positioned) all)
      exact ⟨_, by simp only [found]; rfl, moved⟩
    · rw [if_neg untouched]
      by_cases same : s.context = some (s.inheritedAttributes.map new.get?)
      · rw [if_pos same]
        have positioned : s.context ≠ none := by simp [same]
        obtain ⟨context, _⟩ := stands.resolve_left fun none => positioned none.1
        obtain ⟨found, moved⟩ := again positioned (Option.some.inj (context.symm.trans same))
        exact ⟨_, by simp only [found]; rfl, moved⟩
      · rw [if_neg same]
        exact ⟨_, rfl, moved_derive s d new⟩

theorem open_spec (sound : s.Sound d) : ∃ s', s.open d = (.ok (), s') ∧ Moved d ∅ s s' := by
  cases s with
  | fixed s =>
    obtain ⟨opens, _, _⟩ := sound
    refine ⟨.fixed s.rewind, ?_, rfl, trivial, trivial, rfl⟩
    simp [Scan.open, FixedScan.open, opens, Except.mapError]
  | index s =>
    exact ⟨_, by simp only [Scan.open, IndexScan.open_eq sound], moved_derive s d ∅⟩

/-- Starting over changes nothing but what is left. -/
theorem reset_spec (s : Scan) (d : Dataset) (context : Binding) :
    ∃ s', s.reset = (!s.rows.isEmpty, s') ∧ s'.blank = s.blank ∧ s'.rows = s.rows ∧
      s'.rest = s.rows ∧ (s.At d context → s'.At d context) ∧ (s'.Positioned ↔ s.Positioned) := by
  cases s with
  | index s => exact ⟨.index s.reset.2, rfl, rfl, rfl, rfl, fun h => h, Iff.rfl⟩
  | fixed s => exact ⟨.fixed s.reset.2, rfl, rfl, rfl, rfl, fun h => h, Iff.rfl⟩

theorem next?_nil (none : s.rest = []) : s.next? false = .none := by
  cases s with
  | index s => simp [Scan.next?, IndexScan.next?, show s.rest = [] from none]
  | fixed s => simp [Scan.next?, FixedScan.next?, show s.rest = [] from none]

/-- Handing a row out changes nothing but what is left. -/
theorem next?_cons {ids : Row} {later : List Row} (some : s.rest = ids :: later) (d : Dataset)
    (context : Binding) :
    ∃ s', s.next? false = .some (ids, s') ∧ s'.blank = s.blank ∧ s'.rows = s.rows ∧
      s'.rest = later ∧ (s.At d context → s'.At d context) ∧ (s'.Positioned ↔ s.Positioned) := by
  cases s with
  | index s =>
    refine ⟨.index { s with rest := later }, ?_, rfl, rfl, rfl, fun h => h, Iff.rfl⟩
    simp [Scan.next?, IndexScan.next?, show s.rest = ids :: later from some]
  | fixed s =>
    refine ⟨.fixed { s with rest := later }, ?_, rfl, rfl, rfl, fun h => h, Iff.rfl⟩
    simp [Scan.next?, FixedScan.next?, show s.rest = ids :: later from some]

/-- The hint that a parent makes from its own order is right for every scan whose order begins
with that of the parent. -/
theorem unmoved_firstChanged {order : AttributeOrder} (sound : s.Sound d)
    (longer : order.vars <+: s.order.vars) (old new : Binding) :
    s.Unmoved old new (order.firstChanged (some old) new) := by
  cases s with
  | fixed s => trivial
  | index s =>
    intro i p v place named before
    have bound : p < order.vars.length :=
      before.trans_le (order.firstChanged_le_size (some old) new)
    have here := List.getElem?_eq_getElem bound
    have there : s.order.vars[p]? = some order.vars[p] := getElem?_of_isPrefix longer here
    rw [IndexScan.Initialized.places sound i p place, named, Option.some.injEq] at there
    exact AttributeOrder.get?_eq_of_lt_firstChanged before (there ▸ here)

/-- The scan is not misled by a hint that is right about the order. -/
def Heeds (order : AttributeOrder) (s : Scan) : Prop :=
  ∀ old new firstChanged, order.Unchanged old new firstChanged → s.Unmoved old new firstChanged

theorem heeds_init (s : Scan) (d : Dataset) (incoming : AttributeOrder) :
    (s.init d incoming).2.Heeds incoming := by
  intro old new firstChanged same
  cases s with
  | index s =>
    intro i p v place named before
    exact same p before v ((IndexScan.getElem?_incoming place).trans named)
  | fixed s => trivial

end Scan

end QuadQuery
