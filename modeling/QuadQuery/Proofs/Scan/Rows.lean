import QuadQuery.Scan
import QuadQuery.Proofs.Match

/-!
# The rows of a scan

Main statement: the rows that an initialized index scan makes for a context are exactly those
that, read as bindings of its attributes, make the pattern hold and agree with the context on the
attributes bound further up (`IndexScan.mem_rowsFor`), in strictly ascending order
(`IndexScan.ascending_rowsFor`).
-/

namespace QuadQuery

/-! ## Sorting -/

namespace Row

variable {row other : Row} {rows : List Row}

theorem mem_insert : other ∈ insert row rows ↔ other = row ∨ other ∈ rows := by
  induction rows with
  | nil => simp [insert]
  | cons first rest ih =>
    unfold insert
    split
    · simp
    · next notBefore =>
      split
      · simp only [List.mem_cons, ih]
        exact or_left_comm
      · next notAfter =>
        have same : row = first := le_antisymm (not_lt.1 notAfter) (not_lt.1 notBefore)
        simp [same]

theorem ascending_insert (ascending : rows.Pairwise (· < ·)) :
    (insert row rows).Pairwise (· < ·) := by
  induction rows with
  | nil => exact List.pairwise_singleton ..
  | cons first rest ih =>
    obtain ⟨before, others⟩ := List.pairwise_cons.1 ascending
    unfold insert
    split
    · next less =>
      refine List.pairwise_cons.2 ⟨fun r hr => ?_, ascending⟩
      rcases List.mem_cons.1 hr with rfl | hr
      · exact less
      · exact less.trans (before r hr)
    · split
      · next greater =>
        refine List.pairwise_cons.2 ⟨fun r hr => ?_, ih others⟩
        rcases mem_insert.1 hr with rfl | hr
        · exact greater
        · exact before r hr
      · exact ascending

theorem mem_sorted : row ∈ sorted rows ↔ row ∈ rows := by
  unfold sorted
  induction rows with
  | nil => simp
  | cons first rest ih => rw [List.foldr_cons, mem_insert, ih, List.mem_cons]

theorem ascending_sorted : (sorted rows).Pairwise (· < ·) := by
  unfold sorted
  induction rows with
  | nil => exact .nil
  | cons first rest ih => exact ascending_insert ih

theorem length_sorted_le : (sorted rows).length ≤ rows.length :=
  (ascending_sorted.nodup.subperm fun _ member => mem_sorted.1 member).length_le

end Row

/-! ## Partial functions on lists -/

section MapM

variable {α β : Type} {f : α → Option β} {l : List α} {m : List β}

theorem mapM_eq_some_iff : l.mapM f = some m ↔ List.Forall₂ (fun a b => f a = some b) l m := by
  induction l generalizing m with
  | nil => simp [eq_comm]
  | cons a l ih =>
    simp only [List.mapM_cons, Option.bind_eq_bind, Option.bind_eq_some_iff, Option.pure_def,
      Option.some.injEq, List.forall₂_cons_left_iff, ih]
    constructor
    · rintro ⟨b, hb, rest, hr, rfl⟩
      exact ⟨b, rest, hb, hr, rfl⟩
    · rintro ⟨b, rest, hb, hr, rfl⟩
      exact ⟨b, hb, rest, hr, rfl⟩

theorem exists_mem_of_mapM (h : l.mapM f = some m) {b : β} (member : b ∈ m) :
    ∃ a ∈ l, f a = some b := by
  induction mapM_eq_some_iff.1 h with
  | nil => cases member
  | cons first _ ih =>
    rcases List.mem_cons.1 member with rfl | member
    · exact ⟨_, List.mem_cons_self .., first⟩
    · obtain ⟨a, ha, same⟩ := ih (mapM_eq_some_iff.2 ‹_›) member
      exact ⟨a, List.mem_cons_of_mem _ ha, same⟩

theorem exists_image_of_mapM (h : l.mapM f = some m) {a : α} (member : a ∈ l) :
    ∃ b ∈ m, f a = some b := by
  induction mapM_eq_some_iff.1 h with
  | nil => cases member
  | cons first _ ih =>
    rcases List.mem_cons.1 member with rfl | member
    · exact ⟨_, List.mem_cons_self .., first⟩
    · obtain ⟨b, hb, same⟩ := ih (mapM_eq_some_iff.2 ‹_›) member
      exact ⟨b, List.mem_cons_of_mem _ hb, same⟩

theorem exists_mapM (h : ∀ a ∈ l, (f a).isSome = true) : ∃ m, l.mapM f = some m := by
  induction l with
  | nil => exact ⟨[], rfl⟩
  | cons a l ih =>
    obtain ⟨b, hb⟩ := Option.isSome_iff_exists.1 (h a (List.mem_cons_self ..))
    obtain ⟨m, hm⟩ := ih fun a ha => h a (List.mem_cons_of_mem _ ha)
    exact ⟨b :: m, by simp [hb, hm]⟩

end MapM

/-! ## Looking terms up -/

namespace ResolvedPattern

variable {d : Dataset} {m : Binding}

theorem resolveQuad_eq_some_iff {p : QuadPattern} {r : Quad ResolvedSlot} :
    resolveQuad d p = some r ↔ ∀ place, resolveSlot d place (p.get place) = some (r.get place) := by
  constructor
  · intro h place
    simp only [resolveQuad, Option.bind_eq_bind, Option.bind_eq_some_iff, Option.pure_def,
      Option.some.injEq] at h
    obtain ⟨s, hs, p', hp, o, ho, g, hg, rfl⟩ := h
    cases place
    exacts [hs, hp, ho, hg]
  · intro h
    have hs := h .subject
    have hp := h .predicate
    have ho := h .object
    have hg := h .graph
    simp only [Quad.get] at hs hp ho hg
    simp [resolveQuad, hs, hp, ho, hg]

theorem slotValue?_of_resolveSlot {place : Place} {slot : Slot} {r : ResolvedSlot}
    (resolved : resolveSlot d place slot = some r) : slotValue? m r = slot.value? d m := by
  cases slot with
  | var v => cases resolved; rfl
  | term t =>
    simp only [resolveSlot] at resolved
    split at resolved
    · next id known =>
      split at resolved <;> cases resolved
      exact known.symm
    · cases resolved

/-- A resolved pattern is made a quad of by the same bindings as the pattern itself. -/
theorem fits_iff_substitute {p : QuadPattern} {r : Quad ResolvedSlot} {q : Quad TermId}
    (resolved : resolveQuad d p = some r) : Fits m r q ↔ p.substitute d m = some q := by
  rw [QuadPattern.substitute_eq_some_iff]
  refine forall_congr' fun place => ?_
  rw [slotValue?_of_resolveSlot (resolveQuad_eq_some_iff.1 resolved place)]

theorem mentions_iff_mem_vars {p : QuadPattern} {r : Quad ResolvedSlot} {v : Variable}
    (resolved : resolveQuad d p = some r) : Mentions r v ↔ v ∈ p.vars := by
  rw [QuadPattern.mem_vars]
  refine exists_congr fun place => ?_
  have slot := resolveQuad_eq_some_iff.1 resolved place
  cases h : p.get place with
  | var w =>
    rw [h] at slot
    rw [← Option.some.inj slot]
    simp
  | term t =>
    rw [h] at slot
    simp only [resolveSlot] at slot
    split at slot
    · split at slot
      · rw [← Option.some.inj slot]; simp
      · cases slot
    · cases slot

/-- A pattern of which some quad is made has all of its terms where they occur. -/
theorem exists_resolveQuad (valid : d.Valid) {p : QuadPattern} {q : Quad TermId}
    (member : q ∈ d.quads) (sub : p.substitute d m = some q) : ∃ r, resolveQuad d p = some r := by
  have each : ∀ place, ∃ slot, resolveSlot d place (p.get place) = some slot := by
    intro place
    have value := QuadPattern.substitute_eq_some_iff.1 sub place
    cases h : p.get place with
    | var v => exact ⟨.var v, rfl⟩
    | term t =>
      rw [h] at value
      have occurs := (valid.index.occurs place (q.get place)).2 ⟨q, member, rfl⟩
      exact ⟨.id (q.get place), by simp [resolveSlot, show d.lookup? t = _ from value, occurs]⟩
  obtain ⟨s, hs⟩ := each .subject
  obtain ⟨p', hp⟩ := each .predicate
  obtain ⟨o, ho⟩ := each .object
  obtain ⟨g, hg⟩ := each .graph
  refine ⟨⟨s, p', o, g⟩, resolveQuad_eq_some_iff.2 fun place => ?_⟩
  cases place
  exacts [hs, hp, ho, hg]

variable {pattern : BasicPattern} {patterns : ResolvedPattern}

theorem holdsIn_iff_fits (resolved : resolve d pattern = some patterns) :
    pattern.HoldsIn d m ↔ ∀ r ∈ patterns, ∃ q ∈ d.quads, Fits m r q := by
  constructor
  · intro h r hr
    obtain ⟨p, hp, same⟩ := exists_mem_of_mapM resolved hr
    obtain ⟨q, hq, sub⟩ := h p hp
    exact ⟨q, hq, (fits_iff_substitute same).2 sub⟩
  · intro h p hp
    obtain ⟨r, hr, same⟩ := exists_image_of_mapM resolved hp
    obtain ⟨q, hq, fits⟩ := h r hr
    exact ⟨q, hq, (fits_iff_substitute same).1 fits⟩

theorem exists_mentions_iff (resolved : resolve d pattern = some patterns) {v : Variable} :
    (∃ r ∈ patterns, Mentions r v) ↔ v ∈ pattern.vars := by
  rw [BasicPattern.mem_vars]
  constructor
  · rintro ⟨r, hr, hv⟩
    obtain ⟨p, hp, same⟩ := exists_mem_of_mapM resolved hr
    exact ⟨p, hp, (mentions_iff_mem_vars same).1 hv⟩
  · rintro ⟨p, hp, hv⟩
    obtain ⟨r, hr, same⟩ := exists_image_of_mapM resolved hp
    exact ⟨r, hr, (mentions_iff_mem_vars same).2 hv⟩

/-- A pattern that holds under some binding can be resolved. -/
theorem exists_resolve (valid : d.Valid) (h : pattern.HoldsIn d m) :
    ∃ patterns, resolve d pattern = some patterns := by
  refine exists_mapM fun p hp => ?_
  obtain ⟨q, hq, sub⟩ := h p hp
  obtain ⟨r, hr⟩ := exists_resolveQuad valid hq sub
  exact Option.isSome_of_eq_some hr

theorem length_resolve (resolved : resolve d pattern = some patterns) :
    patterns.length = pattern.size :=
  (mapM_eq_some_iff.1 resolved).length_eq.symm

end ResolvedPattern

/-! ## The rows of an index scan -/

namespace IndexScan

/-- What holds of an index scan from its initialization on: its terms are looked up, its
attributes are the variables of the pattern, and those bound further up are known by their places
in the shared order. -/
structure Initialized (d : Dataset) (s : IndexScan) : Prop where
  initialized : s.initialized = true
  resolved : s.resolved = ResolvedPattern.resolve d s.pattern
  distinct : s.attributes.Nodup
  mem_attributes : ∀ v, v ∈ s.attributes ↔ v ∈ s.pattern.vars
  mem_order : ∀ v ∈ s.attributes, v ∈ s.order.vars
  places : ∀ (i p : Nat), s.inherited[i]? = some p → s.order.vars[p]? = s.attributes[i]?
  fewer : s.inherited.length ≤ s.attributes.length

/-- The values that a context has for the attributes bound further up. -/
def keyFor (s : IndexScan) (context : Binding) : List (Option TermId) :=
  s.inheritedAttributes.map context.get?

variable {d : Dataset} {s : IndexScan} {context : Binding}

theorem mem_attributes_of_inherited {v : Variable} (h : v ∈ s.inheritedAttributes) :
    v ∈ s.attributes :=
  List.mem_of_mem_take h

/-- Before the patterns are matched the attributes bound further up have their values. -/
theorem get?_start (s : IndexScan) (context : Binding) (v : Variable) :
    ((s.attributes.zip (s.keyFor context)).foldl
        (fun env e => match e.2 with
          | some id => env.insert e.1 id
          | none => env) (∅ : Binding)).get? v
      = if v ∈ s.inheritedAttributes then context.get? v else none := by
  have pairs : s.attributes.zip (s.keyFor context)
      = s.inheritedAttributes.map fun v => (v, context.get? v) := by
    unfold keyFor inheritedAttributes
    generalize s.inherited.length = n
    induction s.attributes generalizing n with
    | nil => simp
    | cons a rest ih =>
      cases n with
      | zero => simp
      | succ n => rw [List.take_succ_cons, List.map_cons, List.zip_cons_cons, ih, List.map_cons]
  rw [pairs]
  have general : ∀ (vars : List Variable) (b : Binding),
      ((vars.map fun v => (v, context.get? v)).foldl (fun env e => match e.2 with
          | some id => env.insert e.1 id
          | none => env) b).get? v
        = if v ∈ vars then (context.get? v).or (b.get? v) else b.get? v := by
    intro vars
    induction vars with
    | nil => simp
    | cons w rest ih =>
      intro b
      rw [List.map_cons, List.foldl_cons, ih]
      cases known : context.get? w with
      | none =>
        by_cases h : v = w
        · subst h; simp [known]
        · simp [h]
      | some id =>
        by_cases h : v = w
        · subst h; simp [known]
        · simp [h, Ne.symm h]
  rw [general]
  simp

/-- The rows come from a binding that has the context's values of the attributes bound further
up and no others. -/
theorem exists_start (s : IndexScan) (d : Dataset) (context : Binding) {patterns : ResolvedPattern}
    (looked : s.resolved = some patterns) : ∃ start : Binding,
      (∀ v, start.get? v = if v ∈ s.inheritedAttributes then context.get? v else none) ∧
      s.rowsFor d (s.keyFor context) = Row.sorted
        ((patterns.solve d.index start).filterMap fun env => s.attributes.mapM env.get?) :=
  ⟨_, get?_start s context, by cases s; cases looked; rfl⟩

/-- The values of a binding listed in the order of variables give the binding back. -/
theorem ofRow_eq_of_mapM {vars : List Variable} (distinct : vars.Nodup) {m : Binding} {ids : Row}
    (values : vars.mapM m.get? = some ids) (only : m.Within vars) : Binding.ofRow vars ids = m := by
  have pairs := mapM_eq_some_iff.1 values
  have length : ids.length = vars.length := pairs.length_eq.symm
  refine Binding.ext_get? fun v => Option.ext fun id => ⟨fun known => ?_, fun known => ?_⟩
  · exact List.forall₂_zip pairs ((Binding.get?_ofRow_eq_some_iff distinct length).1 known)
  · obtain ⟨j, hj⟩ := Option.isSome_iff_exists.1
      ((Binding.isSome_get?_ofRow length).2 (only v (Option.isSome_of_eq_some known)))
    have same : m.get? v = some j :=
      List.forall₂_zip pairs ((Binding.get?_ofRow_eq_some_iff distinct length).1 hj)
    rw [hj, ← same, known]

theorem mapM_get?_ofRow {vars : List Variable} (distinct : vars.Nodup) {ids : Row}
    (length : ids.length = vars.length) : vars.mapM (Binding.ofRow vars ids).get? = some ids :=
  mapM_eq_some_iff.2 <| List.forall₂_iff_zip.2
    ⟨length.symm, fun member => (Binding.get?_ofRow_eq_some_iff distinct length).2 member⟩

/-- Exactly those rows are made that give every attribute a value, agree with the context on the
attributes bound further up, and make the pattern hold. -/
theorem mem_rowsFor (valid : d.Valid) (init : s.Initialized d) {ids : Row} :
    ids ∈ s.rowsFor d (s.keyFor context) ↔
      ids.length = s.attributes.length ∧ s.pattern.HoldsIn d (.ofRow s.attributes ids) ∧
      ∀ v ∈ s.inheritedAttributes, ∀ i, context.get? v = some i →
        (Binding.ofRow s.attributes ids).get? v = some i := by
  cases looked : s.resolved with
  | none =>
    simp only [rowsFor, looked, List.not_mem_nil, false_iff, not_and]
    intro _ holds
    obtain ⟨patterns, found⟩ := ResolvedPattern.exists_resolve valid holds
    rw [← init.resolved, looked] at found
    cases found
  | some patterns =>
    have resolved : ResolvedPattern.resolve d s.pattern = some patterns := by
      rw [← init.resolved, looked]
    obtain ⟨start, starts, rows⟩ := s.exists_start d context looked
    simp only [rows, Row.mem_sorted, List.mem_filterMap, ResolvedPattern.mem_solve valid.index,
      starts, ResolvedPattern.exists_mentions_iff resolved, Binding.Extends,
      show d.index.quads = d.quads from rfl, ← ResolvedPattern.holdsIn_iff_fits resolved]
    constructor
    · rintro ⟨m, ⟨grows, holds, only⟩, values⟩
      have within : m.Within s.attributes := fun v known => by
        rw [init.mem_attributes]
        rcases only v known with first | member
        · split at first
          · next member => exact (init.mem_attributes v).1 (mem_attributes_of_inherited member)
          · cases first
        · exact member
      rw [ofRow_eq_of_mapM init.distinct values within]
      refine ⟨(mapM_eq_some_iff.1 values).length_eq.symm, holds, fun v member i known => ?_⟩
      exact grows v i (by rw [if_pos member, known])
    · rintro ⟨length, holds, agrees⟩
      refine ⟨_, ⟨fun v i known => ?_, holds, fun v known => ?_⟩,
        mapM_get?_ofRow init.distinct length⟩
      · split at known
        · next member => exact agrees v member i known
        · cases known
      · exact .inr ((init.mem_attributes v).1 ((Binding.isSome_get?_ofRow length).1 known))

theorem ascending_rowsFor (s : IndexScan) (d : Dataset) (key : List (Option TermId)) :
    (s.rowsFor d key).Pairwise (· < ·) := by
  unfold rowsFor
  split
  · exact .nil
  · exact Row.ascending_sorted

theorem rowsFor_eq_nil (h : s.openTerms = false) (key : List (Option TermId)) :
    s.rowsFor d key = [] := by
  have none : s.resolved = none := by simpa [openTerms] using h
  simp [rowsFor, none]

/-- No context has more rows than there are ways to choose a quad for each pattern. -/
theorem length_rowsFor_le (valid : d.Valid) (init : s.Initialized d) (key : List (Option TermId)) :
    (s.rowsFor d key).length ≤ d.size ^ s.pattern.size := by
  unfold rowsFor
  split
  · exact Nat.zero_le _
  · next patterns looked =>
    have size : patterns.length = s.pattern.size :=
      ResolvedPattern.length_resolve (by rw [← init.resolved, looked])
    calc _ ≤ _ := Row.length_sorted_le
      _ ≤ _ := List.length_filterMap_le _ _
      _ ≤ _ := ResolvedPattern.length_solve_le valid.index patterns _
      _ = d.size ^ s.pattern.size := by rw [size]; rfl

end IndexScan

end QuadQuery
