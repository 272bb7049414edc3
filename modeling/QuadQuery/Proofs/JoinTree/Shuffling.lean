import QuadQuery.Proofs.Execution
import QuadQuery.Proofs.JoinTree.Joined
import QuadQuery.Proofs.Renumbering

/-!
# Join trees whose patterns are shuffled

The order of the quad patterns in a scan decides in which order variables are met, how rows are
sorted and where windows end. It does not decide which rows there are: two trees that differ in
these orders and in the sizes of their windows have the same answers, over one dataset and over two
that number their terms differently (`Node.Shuffled.perm_answers`).
-/

namespace QuadQuery

namespace Node

variable {d d' : Dataset} {n n' child child' : Node} {context own : Binding}

/-- The trees differ at most in the order of the patterns of each scan and in how many rows their
windows may hold. -/
inductive Shuffled : Node → Node → Prop
  | intro {n n' : Node} {s s' : IndexScan} (scan : n.scan = .index s) (scan' : n'.scan = .index s')
      (patterns : s.pattern.patterns.Perm s'.pattern.patterns)
      (pre : n.preFilters = n'.preFilters) (post : n.postFilters = n'.postFilters)
      (count : n.children.length = n'.children.length)
      (others : ∀ e ∈ n.children.zip n'.children, Shuffled e.1.node e.2.node) : Shuffled n n'

/-- Shuffled patterns decide the same filters. -/
theorem Shuffled.decides_eq (h : n.Shuffled n') (e : Expr) : n.decides e = n'.decides e := by
  obtain ⟨scan, scan', patterns, -, -, -, -⟩ := h
  have mentions : n.scan.hasVariable = n'.scan.hasVariable := by
    funext v
    rw [scan, scan']
    exact patterns.any_eq
  rw [decides, decides, mentions]

theorem Shuffled.addFilter (h : n.Shuffled n') (e : Expr) :
    (n.addFilter e).Shuffled (n'.addFilter e) := by
  have decided := h.decides_eq e
  obtain ⟨scan, scan', patterns, pre, post, count, others⟩ := h
  unfold Node.addFilter
  rw [← decided]
  split
  · exact .intro scan scan' patterns (by simp only [pre]) post count others
  · exact .intro scan scan' patterns pre (by simp only [post]) count others

theorem Shuffled.addFilters (h : n.Shuffled n') (exprs : List Expr) :
    (n.addFilters exprs).Shuffled (n'.addFilters exprs) := by
  unfold Node.addFilters
  induction exprs generalizing n n' with
  | nil => exact h
  | cons e rest ih => exact ih (h.addFilter e)

theorem Shuffled.addChild (h : n.Shuffled n') (h' : child.Shuffled child') :
    (n.addChild child).Shuffled (n'.addChild child') := by
  obtain ⟨scan, scan', patterns, pre, post, count, others⟩ := h
  refine .intro scan scan' patterns pre post (by simp [Node.addChild, count]) ?_
  rw [zip_children_addChild count]
  exact List.forall_mem_append.2 ⟨others, List.forall_mem_singleton.2 h'⟩

variable (r : d.Renumbering d')

/-- Merging and judging carries over to other numbers. -/
theorem map_renumber_merged (known : context.Known d) (filters : List Expr) (own : Binding)
    {picks : List (List (Option Binding))} (rows : ∀ pick ∈ picks, (merge own pick).Known d) :
    (merged d context filters own picks).map (Binding.renumber r.forth)
      = merged d' (context.renumber r.forth) filters (own.renumber r.forth)
        (picks.map (List.map (Option.map (Binding.renumber r.forth)))) := by
  simp only [merged, List.map_map, List.filter_map, Function.comp_def, ← Binding.renumber_merge]
  congr 1
  exact List.filter_congr fun pick member => r.there.passes_eq (rows pick member) known filters

/-- Shuffled trees have the same answers, each under the numbers of its dataset. -/
theorem Shuffled.perm_answers (valid : d.Valid) (valid' : d'.Valid) (h : n.Shuffled n')
    (indexed : n.Indexed) (known : context.Known d) :
    ((n.answers d context).map (Binding.renumber r.forth)).Perm
      (n'.answers d' (context.renumber r.forth)) := by
  induction h generalizing context with
  | @intro n n' s s' scan scan' patterns pre post count others ih =>
    have firsts : ((n.scan.assignments d context).map (Binding.renumber r.forth)).Perm
        (n'.scan.assignments d' (context.renumber r.forth)) := by
      rw [scan, scan']
      exact r.perm_assignments valid valid' patterns known
    -- Each own row finds the rows of the children again, and so their combinations.
    have combinations : ∀ own ∈ n.scan.assignments d context,
        ((merged d context (n.preFilters ++ n.postFilters) own (Wheel.picks
          (answerColumns d (own.extendAbsent context) n.children))).map
            (Binding.renumber r.forth)).Perm
          (merged d' (context.renumber r.forth) (n'.preFilters ++ n'.postFilters)
            (own.renumber r.forth) (Wheel.picks (answerColumns d'
              ((own.renumber r.forth).extendAbsent (context.renumber r.forth)) n'.children))) := by
      intro own first
      have knownOwn : (own.extendAbsent context).Known d := by
        refine Binding.Known.extendAbsent ?_ known
        rw [scan] at first
        exact BasicPattern.known_of_mem_assignments valid first
      have columns : ((answerColumns d (own.extendAbsent context) n.children).map
          (List.map (Option.map (Binding.renumber r.forth)))).Forall₂ List.Perm
          (answerColumns d' ((own.extendAbsent context).renumber r.forth) n'.children) := by
        rw [answerColumns_eq, answerColumns_eq, List.forall₂_map_left_iff,
          List.forall₂_map_left_iff, List.forall₂_map_right_iff, List.forall₂_iff_zip]
        refine ⟨count, fun {w w'} pair => ?_⟩
        rw [map_column]
        have child := indexed.children w (List.of_mem_zip pair).1
        exact perm_column (ih (w, w') pair child knownOwn)
      have rows : ∀ pick ∈ Wheel.picks (answerColumns d (own.extendAbsent context) n.children),
          (merge own pick).Known d := fun pick combination =>
        known_merge valid scan first
          (fun w there row found => (indexed.children w there).known valid found) combination
      rw [map_renumber_merged r known _ own rows, ← Wheel.picks_map, pre, post,
        ← Binding.renumber_extendAbsent]
      exact perm_merged (Wheel.perm_picks columns) _ _
    rw [answers_eq, answers_eq, List.map_flatMap]
    refine (List.Perm.flatMap_left _ combinations).trans ?_
    rw [← List.flatMap_map (Binding.renumber r.forth) fun own =>
      merged d' (context.renumber r.forth) (n'.preFilters ++ n'.postFilters) own (Wheel.picks
        (answerColumns d' (own.extendAbsent (context.renumber r.forth)) n'.children))]
    exact firsts.flatMap_right _

end Node

end QuadQuery
