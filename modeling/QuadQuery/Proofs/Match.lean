import QuadQuery.Scan.Index
import QuadQuery.Proofs.Interning
import QuadQuery.Proofs.Merging
import QuadQuery.Proofs.Variables

/-!
# What it means that a pattern matches

A binding put into a pattern turns it into quads; the pattern holds if all of them are quads of
the dataset (`BasicPattern.HoldsIn`). Binding the variables of one pattern after the other finds
exactly the bindings of the variables under which all patterns hold
(`ResolvedPattern.mem_solve`), and there are not more of them than ways to choose a quad for each
pattern (`ResolvedPattern.length_solve_le`).
-/

namespace QuadQuery

/-- The number that a slot stands for under a binding. -/
def Slot.value? (d : Dataset) (b : Binding) : Slot → Option TermId
  | .term t => d.lookup? t
  | .var v => b.get? v

/-- The quad that a pattern becomes when the values of a binding are put in. -/
def QuadPattern.substitute (d : Dataset) (b : Binding) (p : QuadPattern) : Option (Quad TermId) := do
  let subject ← p.subject.value? d b
  let predicate ← p.predicate.value? d b
  let object ← p.object.value? d b
  let graph ← p.graph.value? d b
  return { subject, predicate, object, graph }

/-- Put into the binding, every pattern is a quad of the dataset. -/
def BasicPattern.HoldsIn (d : Dataset) (b : Binding) (pattern : BasicPattern) : Prop :=
  ∀ p ∈ pattern.patterns, ∃ q ∈ d.quads, p.substitute d b = some q

instance (d : Dataset) (b : Binding) (pattern : BasicPattern) : Decidable (pattern.HoldsIn d b) :=
  inferInstanceAs (Decidable (∀ p ∈ pattern.patterns, ∃ q ∈ d.quads, p.substitute d b = some q))

theorem QuadPattern.substitute_eq_some_iff {d : Dataset} {b : Binding} {p : QuadPattern}
    {q : Quad TermId} : p.substitute d b = some q ↔
      ∀ place, (p.get place).value? d b = some (q.get place) := by
  constructor
  · intro h place
    simp only [substitute, Option.bind_eq_bind, Option.bind_eq_some_iff, Option.pure_def,
      Option.some.injEq] at h
    obtain ⟨s, hs, p', hp, o, ho, g, hg, rfl⟩ := h
    cases place
    exacts [hs, hp, ho, hg]
  · intro h
    have hs := h .subject
    have hp := h .predicate
    have ho := h .object
    have hg := h .graph
    simp only [Quad.get] at hs hp ho hg
    simp [substitute, hs, hp, ho, hg]

/-- Whether a pattern holds depends on the values of its variables alone. -/
theorem BasicPattern.HoldsIn.congr {d : Dataset} {a b : Binding} {pattern : BasicPattern}
    (h : pattern.HoldsIn d a) (same : ∀ v ∈ pattern.vars, b.get? v = a.get? v) :
    pattern.HoldsIn d b := by
  intro p hp
  obtain ⟨q, hq, sub⟩ := h p hp
  refine ⟨q, hq, QuadPattern.substitute_eq_some_iff.2 fun place => ?_⟩
  have value := QuadPattern.substitute_eq_some_iff.1 sub place
  cases slot : p.get place with
  | term t => rwa [slot] at value
  | var v =>
    rw [slot] at value
    have mem : v ∈ pattern.vars :=
      BasicPattern.mem_vars.2 ⟨p, hp, QuadPattern.mem_vars.2 ⟨place, slot⟩⟩
    exact (same v mem).trans value

/-- A pattern can hold only if all of its variables have values. -/
theorem BasicPattern.HoldsIn.isSome_get? {d : Dataset} {b : Binding} {pattern : BasicPattern}
    (h : pattern.HoldsIn d b) {v : Variable} (member : v ∈ pattern.vars) :
    (b.get? v).isSome = true := by
  obtain ⟨p, hp, hv⟩ := BasicPattern.mem_vars.1 member
  obtain ⟨place, slot⟩ := QuadPattern.mem_vars.1 hv
  obtain ⟨q, _, sub⟩ := h p hp
  have value := QuadPattern.substitute_eq_some_iff.1 sub place
  rw [slot] at value
  exact Option.isSome_of_eq_some value

/-- The values of the variables are numbers of the term table. -/
theorem BasicPattern.HoldsIn.lt_size {d : Dataset} (valid : d.Valid) {b : Binding}
    {pattern : BasicPattern} (h : pattern.HoldsIn d b) {v : Variable} (member : v ∈ pattern.vars)
    {id : TermId} (known : b.get? v = some id) : id < d.terms.size := by
  obtain ⟨p, hp, hv⟩ := BasicPattern.mem_vars.1 member
  obtain ⟨place, slot⟩ := QuadPattern.mem_vars.1 hv
  obtain ⟨q, hq, sub⟩ := h p hp
  have value := QuadPattern.substitute_eq_some_iff.1 sub place
  rw [slot] at value
  have same : id = q.get place := Option.some.inj (known.symm.trans value)
  exact same ▸ valid.known q hq place

namespace ResolvedPattern

variable {env env' m : Binding} {v : Variable}

/-! ## One pattern -/

/-- The variable stands in some slot. -/
def Mentions (pattern : Quad ResolvedSlot) (v : Variable) : Prop :=
  ∃ place, pattern.get place = .var v

/-- Under the binding the resolved pattern is the quad. -/
def Fits (env : Binding) (pattern : Quad ResolvedSlot) (q : Quad TermId) : Prop :=
  ∀ place, slotValue? env (pattern.get place) = some (q.get place)

theorem slotValue?_mono (h : m.Extends env) {slot : ResolvedSlot} {id : TermId}
    (value : slotValue? env slot = some id) : slotValue? m slot = some id := by
  cases slot with
  | id _ => exact value
  | var v => exact h v id value

/-- What a bound slot adds: a value for its variable. -/
theorem bindSlot_sound {slot : ResolvedSlot} {id : TermId}
    (bound : bindSlot env (slot, id) = some env') :
    env'.Extends env ∧ (∀ v, slot = .var v → env'.get? v = some id) ∧
      ∀ v, (env'.get? v).isSome = true → (env.get? v).isSome = true ∨ slot = .var v := by
  cases slot with
  | id _ =>
    cases bound
    exact ⟨.refl _, by simp, fun v known => .inl known⟩
  | var w =>
    simp only [bindSlot] at bound
    split at bound
    · next unknown =>
      cases bound
      refine ⟨fun v i hi => ?_, by simp, fun v known => ?_⟩
      · have other : w ≠ v := fun same => by simp [← same, unknown] at hi
        simpa [other] using hi
      · by_cases h : w = v
        · exact .inr (h ▸ rfl)
        · exact .inl (by simpa [h] using known)
    · next known =>
      split at bound
      · next same =>
        cases bound
        refine ⟨.refl _, fun v isVar => ?_, fun v known => .inl known⟩
        cases isVar
        exact same ▸ known
      · cases bound

/-- A slot can be bound if some larger binding has its value. -/
theorem bindSlot_complete (h : m.Extends env) {slot : ResolvedSlot} {id : TermId}
    (value : ∀ v, slot = .var v → m.get? v = some id) :
    ∃ next, bindSlot env (slot, id) = some next ∧ m.Extends next := by
  cases slot with
  | id _ => exact ⟨env, rfl, h⟩
  | var w =>
    have value := value w rfl
    cases known : env.get? w with
    | none =>
      refine ⟨env.insert w id, by simp [bindSlot, known], fun v i hi => ?_⟩
      by_cases same : w = v
      · subst same
        simp only [Binding.get?_insert, if_true, Option.some.injEq] at hi
        exact hi ▸ value
      · exact h v i (by simpa [same] using hi)
    | some bound =>
      have same : bound = id := Option.some.inj ((h w bound known).symm.trans value)
      exact ⟨env, by simp [bindSlot, known, same], h⟩

theorem foldlM_bindSlot_sound {slots : List (ResolvedSlot × TermId)}
    (bound : slots.foldlM bindSlot env = some env') :
    env'.Extends env ∧ (∀ e ∈ slots, ∀ v, e.1 = .var v → env'.get? v = some e.2) ∧
      ∀ v, (env'.get? v).isSome = true →
        (env.get? v).isSome = true ∨ ∃ e ∈ slots, e.1 = .var v := by
  induction slots generalizing env with
  | nil =>
    cases bound
    exact ⟨.refl _, by simp, fun v known => .inl known⟩
  | cons e rest ih =>
    simp only [List.foldlM_cons, Option.bind_eq_bind, Option.bind_eq_some_iff] at bound
    obtain ⟨next, first, later⟩ := bound
    obtain ⟨grows, value, only⟩ := bindSlot_sound first
    obtain ⟨grows', values, only'⟩ := ih later
    refine ⟨grows'.trans grows, fun e' he v hv => ?_, fun v known => ?_⟩
    · rcases List.mem_cons.1 he with rfl | he
      · exact grows' v _ (value v hv)
      · exact values e' he v hv
    · rcases only' v known with known | ⟨e', he, hv⟩
      · exact (only v known).imp_right fun hv => ⟨e, List.mem_cons_self .., hv⟩
      · exact .inr ⟨e', List.mem_cons_of_mem _ he, hv⟩

theorem foldlM_bindSlot_complete (h : m.Extends env) {slots : List (ResolvedSlot × TermId)}
    (values : ∀ e ∈ slots, ∀ v, e.1 = .var v → m.get? v = some e.2) :
    ∃ next, slots.foldlM bindSlot env = some next ∧ m.Extends next := by
  induction slots generalizing env with
  | nil => exact ⟨env, rfl, h⟩
  | cons e rest ih =>
    obtain ⟨first, bound, grows⟩ := bindSlot_complete h (values e (List.mem_cons_self ..))
    obtain ⟨next, later, grows'⟩ := ih grows fun e he => values e (List.mem_cons_of_mem _ he)
    exact ⟨next, by simp [bound, later], grows'⟩

theorem mem_zip_toList {pattern : Quad ResolvedSlot} {q : Quad TermId} {e : ResolvedSlot × TermId} :
    e ∈ (pattern.zip q).toList ↔ ∃ place, e = (pattern.get place, q.get place) := by
  simp only [Quad.zip, Quad.toList, List.mem_cons, List.not_mem_nil, or_false]
  constructor
  · rintro (h | h | h | h)
    exacts [⟨.subject, h⟩, ⟨.predicate, h⟩, ⟨.object, h⟩, ⟨.graph, h⟩]
  · rintro ⟨place, h⟩
    cases place
    exacts [.inl h, .inr (.inl h), .inr (.inr (.inl h)), .inr (.inr (.inr h))]

/-- Binding a pattern to a quad that agrees with all that is bound already. -/
theorem bindQuad_sound {pattern : Quad ResolvedSlot} {q : Quad TermId}
    (agrees : ∀ place id, slotValue? env (pattern.get place) = some id → q.get place = id)
    (bound : bindQuad env pattern q = some env') :
    env'.Extends env ∧ Fits env' pattern q ∧
      ∀ v, (env'.get? v).isSome = true → (env.get? v).isSome = true ∨ Mentions pattern v := by
  obtain ⟨grows, values, only⟩ := foldlM_bindSlot_sound bound
  refine ⟨grows, fun place => ?_, fun v known => (only v known).imp_right fun ⟨e, he, hv⟩ => ?_⟩
  · cases slot : pattern.get place with
    | id i =>
      have same := agrees place i (by simp [slot, slotValue?])
      simp [slotValue?, same]
    | var v => exact values _ (mem_zip_toList.2 ⟨place, rfl⟩) v slot
  · obtain ⟨place, rfl⟩ := mem_zip_toList.1 he
    exact ⟨place, hv⟩

theorem bindQuad_complete (h : m.Extends env) {pattern : Quad ResolvedSlot} {q : Quad TermId}
    (fits : Fits m pattern q) : ∃ next, bindQuad env pattern q = some next ∧ m.Extends next := by
  refine foldlM_bindSlot_complete h fun e he v hv => ?_
  obtain ⟨place, rfl⟩ := mem_zip_toList.1 he
  have value := fits place
  dsimp only at hv
  rwa [hv] at value

/-! ## All patterns -/

/-- A binding that was found extends the given one by values for the variables of the patterns,
and makes a quad of the index of every pattern. -/
theorem solve_sound {index : QuadIndex} (valid : index.Valid) {patterns : ResolvedPattern}
    (found : m ∈ solve index patterns env) :
    m.Extends env ∧ (∀ pattern ∈ patterns, ∃ q ∈ index.quads, Fits m pattern q) ∧
      ∀ v, (m.get? v).isSome = true →
        (env.get? v).isSome = true ∨ ∃ pattern ∈ patterns, Mentions pattern v := by
  induction patterns generalizing env with
  | nil =>
    rw [List.mem_singleton.1 found]
    exact ⟨.refl _, by simp, fun v known => .inl known⟩
  | cons pattern rest ih =>
    simp only [solve, List.mem_flatMap, valid.mem_find, Quad.get_map] at found
    obtain ⟨q, ⟨hq, agrees⟩, member⟩ := found
    split at member
    · cases member
    · next next bound =>
      obtain ⟨grows, fits, only⟩ := bindQuad_sound agrees bound
      obtain ⟨grows', others, only'⟩ := ih member
      refine ⟨grows'.trans grows, fun p hp => ?_, fun v known => ?_⟩
      · rcases List.mem_cons.1 hp with rfl | hp
        · exact ⟨q, hq, fun place => slotValue?_mono grows' (fits place)⟩
        · exact others p hp
      · rcases only' v known with known | ⟨p, hp, hv⟩
        · exact (only v known).imp_right fun hv => ⟨pattern, List.mem_cons_self .., hv⟩
        · exact .inr ⟨p, List.mem_cons_of_mem _ hp, hv⟩

/-- Whatever makes a quad of the index of every pattern contains a binding that is found. -/
theorem solve_complete {index : QuadIndex} (valid : index.Valid) {patterns : ResolvedPattern}
    (h : m.Extends env) (holds : ∀ pattern ∈ patterns, ∃ q ∈ index.quads, Fits m pattern q) :
    ∃ found ∈ solve index patterns env, m.Extends found := by
  induction patterns generalizing env with
  | nil => exact ⟨env, List.mem_singleton.2 rfl, h⟩
  | cons pattern rest ih =>
    obtain ⟨q, hq, fits⟩ := holds pattern (List.mem_cons_self ..)
    obtain ⟨next, bound, grows⟩ := bindQuad_complete h fits
    obtain ⟨found, member, larger⟩ := ih grows fun p hp => holds p (List.mem_cons_of_mem _ hp)
    refine ⟨found, ?_, larger⟩
    simp only [solve, List.mem_flatMap, valid.mem_find, Quad.get_map]
    refine ⟨q, ⟨hq, fun place id value => ?_⟩, by simpa [bound] using member⟩
    exact Option.some.inj ((fits place).symm.trans (slotValue?_mono h value))

/-- Exactly those bindings are found that add values for variables of the patterns alone and
make a quad of the index of every pattern. -/
theorem mem_solve {index : QuadIndex} (valid : index.Valid) {patterns : ResolvedPattern} :
    m ∈ solve index patterns env ↔
      m.Extends env ∧ (∀ pattern ∈ patterns, ∃ q ∈ index.quads, Fits m pattern q) ∧
      ∀ v, (m.get? v).isSome = true →
        (env.get? v).isSome = true ∨ ∃ pattern ∈ patterns, Mentions pattern v := by
  refine ⟨solve_sound valid, fun ⟨grows, holds, only⟩ => ?_⟩
  obtain ⟨found, member, larger⟩ := solve_complete valid grows holds
  obtain ⟨grows', holds', _⟩ := solve_sound valid member
  have all : ∀ v, (m.get? v).isSome = true → (found.get? v).isSome = true := by
    intro v known
    rcases only v known with inEnv | ⟨p, hp, place, slot⟩
    · obtain ⟨i, hi⟩ := Option.isSome_iff_exists.1 inEnv
      exact Option.isSome_of_eq_some (grows' v i hi)
    · obtain ⟨q, _, fits⟩ := holds' p hp
      have value := fits place
      rw [slot] at value
      exact Option.isSome_of_eq_some value
  have same : m = found := Binding.ext_get? fun v => by
    cases value : found.get? v with
    | some i => exact larger v i value
    | none =>
      by_contra known
      have := all v (Option.isSome_iff_ne_none.2 known)
      simp [value] at this
  exact same ▸ member

/-- There are not more ways to match than ways to choose a quad for each pattern. -/
theorem length_solve_le {index : QuadIndex} (valid : index.Valid) (patterns : ResolvedPattern)
    (env : Binding) : (solve index patterns env).length ≤ index.size ^ patterns.length := by
  induction patterns generalizing env with
  | nil => simp [solve]
  | cons pattern rest ih =>
    rw [solve, List.length_flatMap, List.length_cons, pow_succ']
    calc _ ≤ ((index.find (pattern.map (slotValue? env))).map fun _ =>
            index.size ^ rest.length).sum := by
          refine List.sum_le_sum fun q _ => ?_
          split
          · exact Nat.zero_le _
          · exact ih _
      _ = (index.find (pattern.map (slotValue? env))).length * index.size ^ rest.length := by simp
      _ ≤ index.size * index.size ^ rest.length :=
          Nat.mul_le_mul_right _ (valid.length_find_le _)

end ResolvedPattern

end QuadQuery
