import QuadQuery.Proofs.JoinTree.Growing

/-!
# No row comes twice

Merging keeps the value that came first, and so it can hide what two rows of a branch differ in. It
hides nothing if branches side by side share only what the context of their rows binds: then the
own row and the rows of the branches can be read off a merged row, and a join tree makes no row
twice (`Node.Indexed.nodup_answers`).
-/

namespace QuadQuery

namespace Node

variable {d : Dataset} {n child : Node} {context own : Binding} {above : List Variable}
  {pick : Option Binding} {picks : List (Option Binding)} {w : Window Node} {ws : List (Window Node)}

/-! ## Branches that share bound variables alone -/

/-- What two branches of one node share is in the pattern of the node or in one further up. -/
inductive Apart : List Variable → Node → Prop
  | intro {above : List Variable} {n : Node}
      (siblings : n.children.Pairwise fun w w' =>
        ∀ v ∈ w.node.vars, v ∈ w'.node.vars → v ∈ n.scan.vars ++ above)
      (others : ∀ w ∈ n.children, Apart (n.scan.vars ++ above) w.node) : Apart above n

theorem Apart.mono {above' : List Variable} (h : n.Apart above) (more : above ⊆ above') :
    n.Apart above' := by
  induction h generalizing above' with
  | @intro above n siblings _ ih =>
    have more' : n.scan.vars ++ above ⊆ n.scan.vars ++ above' :=
      List.append_subset.2 ⟨List.subset_append_left ..,
        List.subset_append_of_subset_right n.scan.vars more⟩
    refine .intro (siblings.imp fun shared v here there => more' (shared v here there)) ?_
    exact fun w there => ih w there more'

theorem Apart.addFilters (h : n.Apart above) (exprs : List Expr) :
    (n.addFilters exprs).Apart above := by
  obtain ⟨siblings, others⟩ := h
  obtain ⟨scan, children⟩ := n.addFilters_fields exprs
  refine .intro ?_ ?_
  · rwa [scan, children]
  · rwa [scan, children]

/-- A new branch must keep apart from all branches that are there. -/
theorem Apart.addChild (h : n.Apart above) (h' : child.Apart (n.scan.vars ++ above))
    (shared : ∀ v ∈ childVars n.children, v ∈ child.vars → v ∈ n.scan.vars ++ above) :
    (n.addChild child).Apart above := by
  obtain ⟨siblings, others⟩ := h
  refine .intro (List.pairwise_append.2 ⟨siblings, List.pairwise_singleton .., ?_⟩)
    (List.forall_mem_append.2 ⟨others, List.forall_mem_singleton.2 h'⟩)
  refine fun w there => List.forall_mem_singleton.2 fun v known => shared v ?_
  rw [childVars_eq]
  exact List.mem_flatMap.2 ⟨w, there, known⟩

/-! ## What a merged row shows -/

/-- A merged row has the value of the own row, or else of the first picked row that has one. -/
theorem get?_merge_eq (own : Binding) (picks : List (Option Binding)) (v : Variable) :
    (merge own picks).get? v
      = (own.get? v).or (picks.findSome? fun pick => pick.bind (·.get? v)) := by
  induction picks generalizing own with
  | nil => exact Option.or_none.symm
  | cons pick rest ih =>
    have step : (merge own (pick :: rest)).get? v
        = ((attach own pick).get? v).or (rest.findSome? fun pick => pick.bind (·.get? v)) := ih _
    rw [step, List.findSome?_cons]
    cases pick with
    | none => rfl
    | some row =>
      rw [attach, Option.map_some, Option.getD_some, Binding.get?_extendAbsent, Option.or_assoc,
        Option.bind_some]
      cases row.get? v <;> rfl

/-- It makes no difference whether the context is added before or after the picked rows. -/
theorem extendAbsent_merge
    (agree : ∀ row, some row ∈ picks → row.Agrees (own.extendAbsent context)) :
    (merge own picks).extendAbsent context = merge (own.extendAbsent context) picks := by
  refine Binding.ext_get? fun v => ?_
  rw [Binding.get?_extendAbsent, get?_merge_eq, get?_merge_eq, Binding.get?_extendAbsent]
  cases inOwn : own.get? v with
  | some i => rfl
  | none =>
    rw [Option.none_or, Option.none_or]
    cases found : picks.findSome? fun pick => pick.bind (·.get? v) with
    | none => exact Option.or_none.symm
    | some j =>
      cases inContext : context.get? v with
      | none => rfl
      | some i =>
        obtain ⟨_ | row, picked, value⟩ := List.exists_of_findSome?_eq_some found
        · cases value
        · have same : j = i := agree row picked v j i value (by simp [inOwn, inContext])
          exact congrArg some same

/-- The pick is nothing, or a row that a branch has for a context. -/
def Fits (context : Binding) (pick : Option Binding) (w : Window Node) : Prop :=
  ∀ row ∈ pick, row.Within w.node.vars ∧ row.Agrees context

/-- What a combination has of one branch, together with the context. -/
def part (context : Binding) (pick : Option Binding) : Binding :=
  (pick.getD ∅).extendAbsent context

/-- What a row has for the variables of a branch, together with the context. -/
def shown (context row : Binding) (w : Window Node) : Binding :=
  (row.restrict w.node.vars).extendAbsent context

theorem Fits.get?_part (fits : Fits context pick w) (v : Variable) :
    (part context pick).get? v = (context.get? v).or (pick.bind (·.get? v)) := by
  rw [part, Binding.get?_extendAbsent]
  cases pick with
  | none => exact Option.or_none.symm
  | some row =>
    rw [Option.getD_some, Option.bind_some]
    cases inRow : row.get? v with
    | none => exact Option.or_none.symm
    | some j =>
      cases inContext : context.get? v with
      | none => rfl
      | some i => exact congrArg some ((fits row rfl).2 v j i inRow inContext)

theorem get?_shown_merge (context : Binding) (picks : List (Option Binding)) (w : Window Node)
    (v : Variable) : (shown context (merge context picks) w).get? v = (context.get? v).or
      (if v ∈ w.node.vars then picks.findSome? fun pick => pick.bind (·.get? v) else none) := by
  rw [shown, Binding.get?_extendAbsent, Binding.get?_restrict, get?_merge_eq]
  cases context.get? v with
  | none => exact Option.or_none
  | some i => split <;> rfl

/-- A branch gives no value to a variable that it does not have. -/
theorem Fits.bind_get?_eq_none (fits : Fits context pick w) {v : Variable}
    (free : v ∉ w.node.vars) : pick.bind (·.get? v) = none := by
  refine Option.bind_eq_none_iff.2 fun row picked => Option.not_isSome_iff_eq_none.1 fun known => ?_
  exact free ((fits row picked).1 v known)

theorem findSome?_eq_none_of_fits (fit : picks.Forall₂ (Fits context) ws) {v : Variable}
    (free : ∀ w ∈ ws, v ∉ w.node.vars) :
    (picks.findSome? fun pick => pick.bind (·.get? v)) = none := by
  induction fit with
  | nil => rfl
  | cons first _ ih =>
    obtain ⟨here, later⟩ := List.forall_mem_cons.1 free
    rw [List.findSome?_cons, first.bind_get?_eq_none here, ih later]

/-- The parts of the branches can be read off a merged row. -/
theorem map_part_eq (fit : picks.Forall₂ (Fits context) ws)
    (siblings : ws.Pairwise fun w w' =>
      ∀ v ∈ w.node.vars, v ∈ w'.node.vars → (context.get? v).isSome = true) :
    picks.map (part context) = ws.map (shown context (merge context picks)) := by
  induction fit with
  | nil => rfl
  | @cons pick w rest ws first others ih =>
    obtain ⟨alone, siblings⟩ := List.pairwise_cons.1 siblings
    -- Where the context has no value, only one of the branches has the variable.
    have apart : ∀ v, context.get? v = none → v ∈ w.node.vars → ∀ w' ∈ ws, v ∉ w'.node.vars :=
      fun v unbound here w' there inOther => by
        simpa [unbound] using alone w' there v here inOther
    rw [List.map_cons, List.map_cons, ih siblings]
    refine congrArg₂ List.cons (Binding.ext_get? fun v => ?_)
      (List.map_congr_left fun w' there => Binding.ext_get? fun v => ?_)
    · rw [first.get?_part, get?_shown_merge]
      cases unbound : context.get? v with
      | some i => rfl
      | none =>
        rw [Option.none_or, Option.none_or, List.findSome?_cons]
        split
        · next here =>
          rw [findSome?_eq_none_of_fits others (apart v unbound here)]
          cases pick.bind (·.get? v) <;> rfl
        · next free => exact first.bind_get?_eq_none free
    · rw [get?_shown_merge, get?_shown_merge]
      cases unbound : context.get? v with
      | some i => rfl
      | none =>
        rw [Option.none_or, Option.none_or, List.findSome?_cons]
        split
        · next inOther =>
          rw [first.bind_get?_eq_none fun here => apart v unbound here w' there inOther]
        · rfl

/-- Branches over the dataset have rows of their own variables that agree with the context. -/
theorem fits_of_mem_picks (valid : d.Valid) (indexed : ∀ w ∈ ws, w.node.Indexed)
    (combination : picks ∈ Wheel.picks (answerColumns d context ws)) :
    picks.Forall₂ (Fits context) ws := by
  rw [answerColumns_eq, Wheel.mem_picks, List.forall₂_map_right_iff] at combination
  induction combination with
  | nil => exact .nil
  | @cons pick w _ _ first _ ih =>
    obtain ⟨here, later⟩ := List.forall_mem_cons.1 indexed
    refine .cons (fun row picked => ?_) (ih later)
    have found : row ∈ w.node.answers d context :=
      some_mem_column.1 (Option.mem_def.1 picked ▸ first)
    exact here.answers_spec valid found

/-! ## Distinct answers -/

theorem nodup_map_part_column {rows : List Binding}
    (distinct : (rows.map (·.extendAbsent context)).Nodup) :
    ((column rows).map (part context)).Nodup := by
  cases rows with
  | nil => exact List.nodup_singleton _
  | cons row rest => simpa [column, part, Function.comp_def] using distinct

/-- Combinations of distinct rows are merged to distinct rows. -/
theorem nodup_map_merge (valid : d.Valid) (indexed : ∀ w ∈ ws, w.node.Indexed)
    (siblings : ws.Pairwise fun w w' =>
      ∀ v ∈ w.node.vars, v ∈ w'.node.vars → (context.get? v).isSome = true)
    (distinct : ∀ w ∈ ws, ((w.node.answers d context).map (·.extendAbsent context)).Nodup) :
    ((Wheel.picks (answerColumns d context ws)).map (merge context)).Nodup := by
  have parts : ((Wheel.picks (answerColumns d context ws)).map (List.map (part context))).Nodup := by
    rw [← Wheel.picks_map, answerColumns_eq, List.map_map]
    refine Wheel.nodup_picks fun values member => ?_
    obtain ⟨w, there, rfl⟩ := List.mem_map.1 member
    exact nodup_map_part_column (distinct w there)
  refine .of_map (fun row => ws.map (shown context row)) ?_
  rw [List.map_map]
  exact List.map_congr_left (fun picks combination =>
    map_part_eq (fits_of_mem_picks valid indexed combination) siblings) ▸ parts

/-- The answers with one own row are distinct if those of the branches are. -/
theorem nodup_map_answersOf (valid : d.Valid) (indexed : ∀ w ∈ n.children, w.node.Indexed)
    (siblings : n.children.Pairwise fun w w' => ∀ v ∈ w.node.vars, v ∈ w'.node.vars →
      ((own.extendAbsent context).get? v).isSome = true)
    (distinct : ∀ w ∈ n.children, ((w.node.answers d (own.extendAbsent context)).map
      (·.extendAbsent (own.extendAbsent context))).Nodup) :
    ((n.answersOf d context own).map (·.extendAbsent context)).Nodup := by
  refine .sublist (List.Sublist.map _ List.filter_sublist) ?_
  rw [List.map_map]
  have same : ∀ picks ∈ Wheel.picks (answerColumns d (own.extendAbsent context) n.children),
      (merge own picks).extendAbsent context = merge (own.extendAbsent context) picks := by
    intro picks combination
    refine extendAbsent_merge fun row picked => ?_
    obtain ⟨w, there, found⟩ := exists_child_of_mem_picks combination picked
    exact ((indexed w there).answers_spec valid found).2
  exact List.map_congr_left same ▸ nodup_map_merge valid indexed siblings distinct

/-- The own row can be read off an answer. -/
theorem restrict_answersOf (valid : d.Valid) {pattern : BasicPattern}
    (first : own ∈ pattern.assignments d context) {row : Binding}
    (member : row ∈ (n.answersOf d context own).map (·.extendAbsent context)) :
    row.restrict pattern.vars = own := by
  obtain ⟨_, found, rfl⟩ := List.mem_map.1 member
  obtain ⟨picks, _, rfl, _⟩ := mem_answersOf.1 found
  refine BasicPattern.restrict_eq valid first ?_ fun _ => .rfl
  exact .trans (Binding.extends_extendAbsent _ context) fun v id => get?_merge own picks

/-- Trees over the dataset, the branches of which share bound variables alone, have distinct
answers, which are told apart by what the context leaves open. -/
theorem Indexed.nodup_answers (valid : d.Valid) (indexed : n.Indexed) (apart : n.Apart above)
    (bound : ∀ v ∈ above, (context.get? v).isSome = true) :
    ((n.answers d context).map (·.extendAbsent context)).Nodup := by
  induction indexed generalizing context above with
  | @intro n s scan others ih =>
    obtain ⟨siblings, branches⟩ := apart
    rw [scan] at siblings branches
    rw [answers_eq_answersOf, scan, List.map_flatMap]
    refine List.nodup_flatMap.2 ⟨fun own first => ?_, ?_⟩
    · obtain ⟨_, holds, _⟩ := (BasicPattern.mem_assignments valid).1 first
      have inner : ∀ v ∈ s.pattern.vars ++ above,
          ((own.extendAbsent context).get? v).isSome = true :=
        Binding.isSome_get?_extendAbsent (fun _ => holds.isSome_get?) bound
      refine nodup_map_answersOf valid others
        (siblings.imp fun shared v here there => inner v (shared v here there)) ?_
      exact fun w there => ih w there (branches w there) inner
    · refine (BasicPattern.nodup_assignments d context s.pattern).imp_of_mem
        fun {own other} first second differ => List.disjoint_left.2 fun row inFirst inSecond => ?_
      exact differ ((restrict_answersOf valid first inFirst).symm.trans
        (restrict_answersOf valid second inSecond))

end Node

end QuadQuery
