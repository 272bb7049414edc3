import QuadQuery.Proofs.JoinTree.Answers

/-!
# What a row is merged from

Every answer of a join tree comes from a match of the root and from matches of the branches that
had something to add. All of them are put into one row, where each variable keeps the value that it
was given first.

A match agrees with the matches above it, but it does not know those of branches beside it. A
variable is shadowed for a match if a branch that came earlier, beside it or beside a branch above
it, gave it a value and no pattern above that earlier branch has it. It makes no difference whether
a pattern further down has the variable: the row keeps the earlier value for everything below.
Everything else of the match is found in the row (`Node.Indexed.contributions_spec`).
-/

namespace QuadQuery

/-- A match of a pattern, with those of the branches below that had something to add. -/
inductive Joined where
  | mk (pattern : BasicPattern) (own : Binding) (branches : List Joined)

/-- A match that went into a row. -/
structure Contribution where
  pattern : BasicPattern
  own : Binding
  /-- The variables to which an earlier branch, beside this one or beside a branch above it, gave a
  value although no pattern above that earlier branch has them. -/
  shadowed : List Variable

namespace Joined

mutual

/-- All matches in one row. -/
def row : Joined → Binding
  | ⟨_, own, branches⟩ => mergeAll own branches

/-- A row with the rows of some branches in turn. -/
def mergeAll (base : Binding) : List Joined → Binding
  | [] => base
  | t :: rest => mergeAll (base.extendAbsent t.row) rest

end

mutual

/-- The matches in the order in which they are merged. The shadow of a match is that of everything
below it too. -/
def contributions (above shadowed : List Variable) : Joined → List Contribution
  | ⟨pattern, own, branches⟩ =>
    ⟨pattern, own, shadowed⟩ :: contributionsOf (pattern.vars ++ above) shadowed branches

/-- The matches of branches, each of which casts a shadow on those behind it: on the variables that
it binds and no pattern above it has. -/
def contributionsOf (above shadowed : List Variable) : List Joined → List Contribution
  | [] => []
  | t :: rest => t.contributions above shadowed
      ++ contributionsOf above (shadowed ++ t.row.vars.filter (· ∉ above)) rest

end

theorem extends_mergeAll (base : Binding) (ts : List Joined) : (mergeAll base ts).Extends base := by
  induction ts generalizing base with
  | nil => exact .refl base
  | cons t rest ih => exact (ih _).trans (Binding.extends_extendAbsent base t.row)

theorem mergeAll_reduceOption (own : Binding) (picks : List (Option Joined)) :
    mergeAll own picks.reduceOption = Node.merge own (picks.map (Option.map row)) := by
  induction picks generalizing own with
  | nil => rfl
  | cons pick rest ih =>
    cases pick with
    | none => exact ih own
    | some t => exact ih (own.extendAbsent t.row)

end Joined

/-- The pattern that a scan looks for. -/
def Scan.pattern : Scan → BasicPattern
  | .index s => s.pattern
  | .fixed _ => ⟨[]⟩

namespace Node

variable {d : Dataset} {n : Node} {context own : Binding}

mutual

/-- The answers of a node in a context, with all that they are merged from. -/
def joins (d : Dataset) (context : Binding) : Node → List Joined
  | ⟨scan, _, _, children, preFilters, postFilters, _, _, _, _, _, _, _⟩ =>
    (scan.assignments d context).flatMap fun own =>
      ((Wheel.picks (joinColumns d (own.extendAbsent context) children)).map fun picks =>
        .mk scan.pattern own picks.reduceOption).filter fun t =>
          passes d context (preFilters ++ postFilters) t.row

/-- What each of the children contributes in a context. -/
def joinColumns (d : Dataset) (context : Binding) :
    List (Window Node) → List (List (Option Joined))
  | [] => []
  | ⟨node, _, _, _, _⟩ :: rest => column (node.joins d context) :: joinColumns d context rest

end

theorem joins_eq (d : Dataset) (context : Binding) (n : Node) :
    n.joins d context = (n.scan.assignments d context).flatMap fun own =>
      ((Wheel.picks (joinColumns d (own.extendAbsent context) n.children)).map fun picks =>
        .mk n.scan.pattern own picks.reduceOption).filter fun t =>
          passes d context (n.preFilters ++ n.postFilters) t.row := by
  cases n; rfl

theorem joinColumns_eq (d : Dataset) (context : Binding) (ws : List (Window Node)) :
    joinColumns d context ws = ws.map fun w => column (w.node.joins d context) := by
  induction ws with
  | nil => rfl
  | cons w rest ih => cases w; simp only [joinColumns, ih, List.map_cons]

theorem map_column {α β : Type} (f : α → β) (rows : List α) :
    (column rows).map (Option.map f) = column (rows.map f) := by
  cases rows with
  | nil => rfl
  | cons row rest => simp [column]

mutual

/-- Merging everything gives the answers. -/
theorem map_row_joins (d : Dataset) (context : Binding) : (n : Node) →
    (n.joins d context).map Joined.row = n.answers d context
  | ⟨scan, _, _, children, preFilters, postFilters, _, _, _, _, _, _, _⟩ => by
    rw [joins, answers, List.map_flatMap]
    refine List.flatMap_congr fun own _ => ?_
    rw [merged, ← map_row_joinColumns d _ children, Wheel.picks_map, List.map_map, List.filter_map,
      List.filter_map, List.map_map]
    simp only [Function.comp_def, Joined.row, Joined.mergeAll_reduceOption]

theorem map_row_joinColumns (d : Dataset) (context : Binding) : (ws : List (Window Node)) →
    (joinColumns d context ws).map (List.map (Option.map Joined.row)) = answerColumns d context ws
  | [] => rfl
  | ⟨node, _, _, _, _⟩ :: rest => by
    rw [joinColumns, answerColumns, List.map_cons, map_column, map_row_joins d context node,
      map_row_joinColumns d context rest]

end

theorem mem_joins {t : Joined} (member : t ∈ n.joins d context) :
    ∃ own ∈ n.scan.assignments d context, ∃ branches, t = .mk n.scan.pattern own branches ∧
      ∀ branch ∈ branches, ∃ w ∈ n.children,
        branch ∈ w.node.joins d (own.extendAbsent context) := by
  rw [joins_eq, List.mem_flatMap] at member
  obtain ⟨own, first, kept⟩ := member
  obtain ⟨picks, combination, rfl⟩ := List.mem_map.1 (List.mem_filter.1 kept).1
  rw [joinColumns_eq] at combination
  exact ⟨own, first, _, rfl, fun branch there =>
    exists_column_of_mem_picks combination (List.reduceOption_mem_iff.1 there)⟩

/-- The row of an answer agrees with the context. -/
theorem Indexed.agrees_row (valid : d.Valid) (indexed : n.Indexed) {t : Joined}
    (member : t ∈ n.joins d context) : t.row.Agrees context :=
  (indexed.answers_spec valid (map_row_joins d context n ▸ List.mem_map_of_mem member)).2

end Node

/-! ## What is left of a match -/

/-- The one binding gives all that the other gives to variables that are not shadowed. -/
def Binding.ExtendsUnless (shadowed : List Variable) (b a : Binding) : Prop :=
  ∀ v ∉ shadowed, ∀ id, a.get? v = some id → b.get? v = some id

namespace Contribution

/-- The pattern matches, and a row has the values of the match for all variables that are not
shadowed. -/
def Kept (d : Dataset) (row : Binding) (c : Contribution) : Prop :=
  c.pattern.HoldsIn d c.own ∧ ∀ v ∈ c.pattern.vars, v ∉ c.shadowed → row.get? v = c.own.get? v

/-- Where nothing is shadowed the row itself makes the pattern hold. -/
theorem Kept.holdsIn {d : Dataset} {row : Binding} {c : Contribution} (h : c.Kept d row)
    (clear : ∀ v ∈ c.pattern.vars, v ∉ c.shadowed) : c.pattern.HoldsIn d row :=
  h.1.congr fun v member => h.2 v member (clear v member)

end Contribution

namespace Joined

variable {d : Dataset} {context base row : Binding} {above shadowed : List Variable}

/-- The branches of a match are kept if each of them is kept by itself. What was merged before
binds variables above or shadowed ones, and so does not get in the way. -/
theorem contributionsOf_spec (bound : ∀ v ∈ above, (context.get? v).isSome = true) (ts : List Joined)
    (agree : ∀ t ∈ ts, t.row.Agrees context)
    (each : ∀ t ∈ ts, ∀ shadowed, row.ExtendsUnless shadowed t.row →
      ∀ c ∈ t.contributions above shadowed, c.Kept d row)
    (known : base.Within (above ++ shadowed)) (agrees : base.Agrees context)
    (keeps : row.ExtendsUnless shadowed (mergeAll base ts)) :
    ∀ c ∈ contributionsOf above shadowed ts, c.Kept d row := by
  induction ts generalizing base shadowed with
  | nil => exact nofun
  | cons t rest ih =>
    obtain ⟨agreesHere, others⟩ := List.forall_mem_cons.1 agree
    obtain ⟨here, later⟩ := List.forall_mem_cons.1 each
    -- The head finds its values in place unless they are shadowed; behind it, they are in place or
    -- they have joined the shadow.
    refine List.forall_mem_append.2 ⟨here shadowed fun v clear i value => keeps v clear i ?_, ?_⟩
    · refine extends_mergeAll (base.extendAbsent t.row) rest v i ?_
      rw [Binding.get?_extendAbsent]
      cases before : base.get? v with
      | none => exact value
      | some j =>
        have isAbove : v ∈ above := (List.mem_append.1
          (known v (Option.isSome_of_eq_some before))).resolve_right clear
        obtain ⟨k, inContext⟩ := Option.isSome_iff_exists.1 (bound v isAbove)
        rw [agrees v j k before inContext, agreesHere v i k value inContext]
        rfl
    · refine ih others later (fun v some => ?_) (agrees.extendAbsent agreesHere)
        fun v clear => keeps v fun inShadow => clear (List.mem_append_left _ inShadow)
      rw [Binding.get?_extendAbsent, Option.isSome_or, Bool.or_eq_true] at some
      by_cases isAbove : v ∈ above
      · exact List.mem_append_left _ isAbove
      · refine List.mem_append_right _ (List.mem_append.2 (some.imp (fun before => ?_) fun new => ?_))
        · exact (List.mem_append.1 (known v before)).resolve_left isAbove
        · exact List.mem_filter.2 ⟨Binding.mem_vars.2 new, by simpa using isAbove⟩

end Joined

/-- Every match is found in the row, as far as it is not shadowed. -/
theorem Node.Indexed.contributions_spec {d : Dataset} {n : Node} {context row : Binding}
    {above shadowed : List Variable} (valid : d.Valid) (indexed : n.Indexed) {t : Joined}
    (member : t ∈ n.joins d context) (bound : ∀ v ∈ above, (context.get? v).isSome = true)
    (keeps : row.ExtendsUnless shadowed t.row) :
    ∀ c ∈ t.contributions above shadowed, c.Kept d row := by
  induction indexed generalizing context t above shadowed with
  | @intro n s scan others ih =>
    obtain ⟨own, first, branches, rfl, there⟩ := mem_joins member
    rw [scan] at first keeps ⊢
    obtain ⟨within, holds, agrees⟩ := (BasicPattern.mem_assignments valid).1 first
    refine List.forall_mem_cons.2 ⟨⟨holds, fun v mentioned clear => ?_⟩, ?_⟩
    · obtain ⟨i, value⟩ := Option.isSome_iff_exists.1 (holds.isSome_get? mentioned)
      exact (keeps v clear i (Joined.extends_mergeAll own branches v i value)).trans value.symm
    · have inner : ∀ v ∈ s.pattern.vars ++ above,
          ((own.extendAbsent context).get? v).isSome = true :=
        Binding.isSome_get?_extendAbsent (fun _ => holds.isSome_get?) bound
      refine Joined.contributionsOf_spec inner branches (fun branch isBranch => ?_)
        (fun branch isBranch shadowed => ?_) (fun v known => ?_)
        (Binding.agrees_extendAbsent own context) keeps
      · obtain ⟨w, isChild, found⟩ := there branch isBranch
        exact (others w isChild).agrees_row valid found
      · obtain ⟨w, isChild, found⟩ := there branch isBranch
        exact ih w isChild found inner
      · exact List.mem_append_left _ (List.mem_append_left _ (within v known))

end QuadQuery
