import QuadQuery.Proofs.JoinTree.Answers

/-!
# The order that a join tree settles

Settling a tree hands the order of variables from node to node, depth first. Every node adds the
variables that are new to it, and lists its own so that they come in the order that is returned in
the end (`Node.init_negotiates`).
-/

namespace QuadQuery

namespace Scan

variable {s : Scan} {d : Dataset} {incoming : AttributeOrder} {v : Variable}

theorem mem_order_init :
    v ∈ (s.init d incoming).1.vars ↔ v ∈ incoming.vars ∨ v ∈ s.vars := by
  cases s with
  | index s => exact @IndexScan.mem_order_init s d incoming v
  | fixed s => exact AttributeOrder.mem_extend

theorem nodup_order_init (s : Scan) (d : Dataset) (distinct : incoming.vars.Nodup) :
    (s.init d incoming).1.vars.Nodup := by
  cases s <;> exact Variable.nodup_appendNew distinct

end Scan

namespace IndexScan

variable {s : IndexScan} {d : Dataset} {incoming : AttributeOrder}

/-- The order that a scan returns goes on with the variables that are new to it. -/
theorem vars_order_init (s : IndexScan) (d : Dataset) (distinct : incoming.vars.Nodup) :
    (s.init d incoming).1.vars
      = incoming.vars ++ s.pattern.vars.filter (fun v => v ∉ incoming.vars) := by
  have fresh : freshVars s.pattern incoming = s.pattern.vars.filter fun v => v ∉ incoming.vars := by
    refine List.filter_congr fun v _ => ?_
    rw [Bool.eq_iff_iff, decide_eq_true_iff, ← @AttributeOrder.isSome_position? incoming v]
    simp
  have apart : (incoming.vars ++ s.pattern.vars.filter (fun v => v ∉ incoming.vars)).Nodup := by
    refine List.nodup_append.2 ⟨distinct, BasicPattern.nodup_vars.filter _, ?_⟩
    rintro v old w new rfl
    exact (of_decide_eq_true (List.mem_filter.1 new).2) old
  exact (congrArg (Variable.appendNew incoming.vars) fresh).trans
    (Variable.appendNew_eq_append apart)

/-- The attributes come in the order that the scan returns. -/
theorem attributes_sublist_order (s : IndexScan) (d : Dataset) (distinct : incoming.vars.Nodup) :
    (s.init d incoming).2.attributes.Sublist (s.init d incoming).1.vars := by
  rw [attributes_init s d distinct, vars_order_init s d distinct]
  exact List.filter_sublist.append_right _

end IndexScan

/-- Variables that come in the order of a list without repetitions have ascending places there. -/
theorem AttributeOrder.exists_places {order : AttributeOrder} (distinct : order.vars.Nodup)
    {vars : List Variable} (inOrder : vars.Sublist order.vars) :
    ∃ places : List Nat, vars.map order.position? = places.map some ∧
      places.Pairwise (· < ·) := by
  obtain ⟨places, rfl, ascending⟩ := List.sublist_eq_map_getElem inOrder
  refine ⟨places.map Fin.val, ?_, List.pairwise_map.2 ascending⟩
  rw [List.map_map, List.map_map]
  exact List.map_congr_left fun p _ => IndexScan.position?_getElem distinct p.isLt

namespace Node

variable {d : Dataset} {n m : Node} {incoming known : AttributeOrder} {v : Variable}

/-! ## The nodes of a tree -/

mutual

/-- All nodes of a tree, every node before those of its children. -/
def nodes : Node → List Node
  | ⟨scan, capacity, attributes, children, preFilters, postFilters, state, neverMatches, context,
      own, extended, childContext, stats⟩ =>
    ⟨scan, capacity, attributes, children, preFilters, postFilters, state, neverMatches, context,
      own, extended, childContext, stats⟩ :: childNodes children

/-- All nodes of the trees of some children. -/
def childNodes : List (Window Node) → List Node
  | [] => []
  | ⟨node, _, _, _, _⟩ :: rest => node.nodes ++ childNodes rest

end

theorem nodes_eq (n : Node) : n.nodes = n :: childNodes n.children := by
  cases n; rfl

theorem nodes_subset_childNodes {w : Window Node} {ws : List (Window Node)} (member : w ∈ ws) :
    w.node.nodes ⊆ childNodes ws := by
  induction ws with
  | nil => cases member
  | cons v rest ih =>
    unfold childNodes
    rcases List.mem_cons.1 member with rfl | later
    · exact List.subset_append_left ..
    · exact List.Subset.trans (ih later) (List.subset_append_right ..)

mutual

/-- What a node hands on to its children holds of all nodes of its tree. -/
theorem forall_mem_nodes {P : Node → Prop} (step : ∀ n, P n → ∀ w ∈ n.children, P w.node) :
    (n : Node) → P n → ∀ m ∈ n.nodes, P m
  | ⟨_, _, _, children, _, _, _, _, _, _, _, _, _⟩, own =>
    List.forall_mem_cons.2 ⟨own, forall_mem_childNodes step children (step _ own)⟩

theorem forall_mem_childNodes {P : Node → Prop} (step : ∀ n, P n → ∀ w ∈ n.children, P w.node) :
    (ws : List (Window Node)) → (∀ w ∈ ws, P w.node) → ∀ m ∈ childNodes ws, P m
  | [], _ => List.forall_mem_nil _
  | ⟨node, _, _, _, _⟩ :: rest, each =>
    List.forall_mem_append.2 ⟨forall_mem_nodes step node (List.forall_mem_cons.1 each).1,
      forall_mem_childNodes step rest (List.forall_mem_cons.1 each).2⟩

end

theorem Indexed.exists_index (indexed : n.Indexed) : ∃ s, n.scan = .index s := by
  obtain ⟨scan, _⟩ := indexed
  exact ⟨_, scan⟩

/-! ## Handing the order on -/

mutual

/-- The nodes of a tree, each with the order that it is handed when the tree is settled. -/
def handed (d : Dataset) (incoming : AttributeOrder) : Node → List (AttributeOrder × Node)
  | ⟨scan, capacity, attributes, children, preFilters, postFilters, state, neverMatches, context,
      own, extended, childContext, stats⟩ =>
    (incoming, ⟨scan, capacity, attributes, children, preFilters, postFilters, state, neverMatches,
      context, own, extended, childContext, stats⟩) ::
      handedAll d (scan.init d incoming).1 children

/-- A child is handed the order that the child before it has returned. -/
def handedAll (d : Dataset) (incoming : AttributeOrder) :
    List (Window Node) → List (AttributeOrder × Node)
  | [] => []
  | ⟨node, _, _, _, _⟩ :: rest =>
    node.handed d incoming ++ handedAll d (node.init d incoming).1 rest

end

mutual

theorem map_snd_handed (d : Dataset) (incoming : AttributeOrder) :
    (n : Node) → (n.handed d incoming).map (·.2) = n.nodes
  | ⟨_, _, _, children, _, _, _, _, _, _, _, _, _⟩ =>
    congrArg (List.cons _) (map_snd_handedAll d _ children)

theorem map_snd_handedAll (d : Dataset) (incoming : AttributeOrder) :
    (ws : List (Window Node)) → (handedAll d incoming ws).map (·.2) = childNodes ws
  | [] => rfl
  | ⟨node, _, _, _, _⟩ :: rest => by
    rw [handedAll, List.map_append, map_snd_handed, map_snd_handedAll, childNodes]

end

mutual

/-- Settling a tree settles every node with the order that it is handed. -/
theorem nodes_init (d : Dataset) (incoming : AttributeOrder) :
    (n : Node) → (n.init d incoming).2.nodes
      = (n.handed d incoming).map fun p => (p.2.init d p.1).2
  | ⟨_, _, _, children, _, _, _, _, _, _, _, _, _⟩ => by
    rw [nodes_eq, handed, List.map_cons, init_eq, childNodes_initAll d _ children]

theorem childNodes_initAll (d : Dataset) (incoming : AttributeOrder) :
    (ws : List (Window Node)) → childNodes (initAll d incoming ws).2
      = (handedAll d incoming ws).map fun p => (p.2.init d p.1).2
  | [] => rfl
  | ⟨node, _, _, _, _⟩ :: rest => by
    rw [initAll_cons, childNodes, nodes_init, childNodes_initAll, handedAll, List.map_append]

end

mutual

theorem nodup_order_init (d : Dataset) (incoming : AttributeOrder) (distinct : incoming.vars.Nodup) :
    (n : Node) → (n.init d incoming).1.vars.Nodup
  | ⟨scan, _, _, children, _, _, _, _, _, _, _, _, _⟩ =>
    nodup_order_initAll d _ (scan.nodup_order_init d distinct) children

theorem nodup_order_initAll (d : Dataset) (incoming : AttributeOrder)
    (distinct : incoming.vars.Nodup) :
    (ws : List (Window Node)) → (initAll d incoming ws).1.vars.Nodup
  | [] => distinct
  | ⟨node, _, _, _, _⟩ :: rest =>
    nodup_order_initAll d _ (nodup_order_init d incoming distinct node) rest

end

mutual

/-- The returned order has the incoming variables and those of the tree. -/
theorem mem_order_init (d : Dataset) (incoming : AttributeOrder) :
    (n : Node) → (v ∈ (n.init d incoming).1.vars ↔ v ∈ incoming.vars ∨ v ∈ n.vars)
  | ⟨scan, _, _, children, _, _, _, _, _, _, _, _, _⟩ => by
    rw [init_eq, mem_order_initAll d _ children, Scan.mem_order_init, vars_eq, List.mem_append,
      or_assoc]

theorem mem_order_initAll (d : Dataset) (incoming : AttributeOrder) :
    (ws : List (Window Node)) →
      (v ∈ (initAll d incoming ws).1.vars ↔ v ∈ incoming.vars ∨ v ∈ childVars ws)
  | [] => by simp [initAll, childVars]
  | ⟨node, _, _, _, _⟩ :: rest => by
    rw [initAll_cons, mem_order_initAll d _ rest, mem_order_init d incoming node, childVars,
      List.mem_append, or_assoc]

end

/-- The returned order goes on behind the incoming one with what is new in the tree. -/
theorem exists_added (d : Dataset) (distinct : incoming.vars.Nodup) (n : Node) :
    ∃ added, (n.init d incoming).1.vars = incoming.vars ++ added ∧
      ∀ v, v ∈ added ↔ v ∈ n.vars ∧ v ∉ incoming.vars := by
  obtain ⟨added, longer⟩ := isPrefix_init d incoming n
  refine ⟨added, longer.symm, fun v => ?_⟩
  have nodup := nodup_order_init d incoming distinct n
  rw [← longer] at nodup
  have apart := (List.nodup_append.1 nodup).2.2
  have all := mem_order_init (v := v) d incoming n
  rw [← longer, List.mem_append] at all
  constructor
  · intro new
    have unknown : v ∉ incoming.vars := fun old => apart v old v new rfl
    exact ⟨(all.1 (.inr new)).resolve_left unknown, unknown⟩
  · rintro ⟨inTree, unknown⟩
    exact (all.2 (.inr inTree)).resolve_left unknown

/-- What the scan of a node returns is handed on, and the attributes of the scan become those of the
node. -/
theorem init_of_scan (d : Dataset) (incoming : AttributeOrder) {s : IndexScan}
    (scan : n.scan = .index s) :
    (s.init d incoming).1.vars <+: (n.init d incoming).1.vars ∧
      (n.init d incoming).2.attributes = (s.init d incoming).2.attributes := by
  rw [init_eq, scan]
  exact ⟨isPrefix_initAll d _ n.children, rfl⟩

/-- A node is handed an order without repetitions, and the order that it returns is the beginning of
another one. -/
def HandsOn (d : Dataset) (order : AttributeOrder) (p : AttributeOrder × Node) : Prop :=
  p.1.vars.Nodup ∧ (p.2.init d p.1).1.vars <+: order.vars

theorem HandsOn.mono {order longer : AttributeOrder} (more : order.vars <+: longer.vars)
    {p : AttributeOrder × Node} (h : HandsOn d order p) : HandsOn d longer p :=
  ⟨h.1, h.2.trans more⟩

mutual

theorem handsOn_handed (d : Dataset) (incoming : AttributeOrder) (distinct : incoming.vars.Nodup) :
    (n : Node) → ∀ p ∈ n.handed d incoming, HandsOn d (n.init d incoming).1 p
  | ⟨scan, _, _, children, _, _, _, _, _, _, _, _, _⟩ =>
    List.forall_mem_cons.2 ⟨⟨distinct, List.prefix_rfl⟩,
      handsOn_handedAll d _ (scan.nodup_order_init d distinct) children⟩

theorem handsOn_handedAll (d : Dataset) (incoming : AttributeOrder)
    (distinct : incoming.vars.Nodup) :
    (ws : List (Window Node)) → ∀ p ∈ handedAll d incoming ws, HandsOn d (initAll d incoming ws).1 p
  | [] => List.forall_mem_nil _
  | ⟨node, _, _, _, _⟩ :: rest => by
    refine List.forall_mem_append.2 ⟨fun p member => ?_, ?_⟩
    · exact (handsOn_handed d incoming distinct node p member).mono (isPrefix_initAll d _ rest)
    · exact handsOn_handedAll d _ (nodup_order_init d incoming distinct node) rest

end

/-! ## Main statement -/

/-- A tree over the dataset that is settled with an order without repetitions returns one as well:
the incoming order, and behind it exactly the variables of the patterns of the tree that it lacks.
Every node has the variables of its pattern for attributes, each once. Their places in the returned
order ascend, and those that the node found in the order that it was handed come before the
others. -/
theorem init_negotiates (indexed : n.Indexed) (distinct : incoming.vars.Nodup) (d : Dataset) :
    let order := (n.init d incoming).1
    let root := (n.init d incoming).2
    order.vars.Nodup ∧
    (∃ added, order.vars = incoming.vars ++ added ∧
      ∀ v, v ∈ added ↔ v ∈ n.vars ∧ v ∉ incoming.vars) ∧
    (n.handed d incoming).map (·.2) = n.nodes ∧
    root.nodes = (n.handed d incoming).map (fun p => (p.2.init d p.1).2) ∧
    ∀ known m, (known, m) ∈ n.handed d incoming →
      ∃ s, m.scan = .index s ∧
        let attributes := (m.init d known).2.attributes
        attributes.Nodup ∧ (∀ v, v ∈ attributes ↔ s.pattern.mentions v = true) ∧
        (∃ places : List Nat, attributes.map order.position? = places.map some ∧
          places.Pairwise (· < ·)) ∧
        ∃ old new, attributes = old ++ new ∧ (∀ v ∈ old, v ∈ known.vars) ∧
          ∀ v ∈ new, v ∉ known.vars := by
  intro order root
  have nodup : order.vars.Nodup := nodup_order_init d incoming distinct n
  refine ⟨nodup, exists_added d distinct n, map_snd_handed d incoming n, nodes_init d incoming n, ?_⟩
  intro known m member
  have inTree : m ∈ n.nodes := by
    rw [← map_snd_handed d incoming n]
    exact List.mem_map_of_mem member
  obtain ⟨s, scan⟩ :=
    (forall_mem_nodes (P := Indexed) (fun _ => Indexed.children) n indexed m inTree).exists_index
  obtain ⟨unique, onward⟩ := handsOn_handed d incoming distinct n (known, m) member
  obtain ⟨here, settled⟩ := init_of_scan d known scan
  have perm := IndexScan.perm_attributes_init s d known
  refine ⟨s, scan, ?_⟩
  rw [settled]
  refine ⟨perm.nodup_iff.2 BasicPattern.nodup_vars, fun v => ?_, ?_, ?_⟩
  · rw [perm.mem_iff, BasicPattern.mentions_iff]
  · have inOrder := IndexScan.attributes_sublist_order s d unique
    exact AttributeOrder.exists_places nodup (inOrder.trans (here.trans onward).sublist)
  · refine ⟨_, _, IndexScan.attributes_init s d unique, fun v old => ?_, fun v new => ?_⟩
    · exact (List.mem_filter.1 old).1
    · exact of_decide_eq_true (List.mem_filter.1 new).2

/-- Both children and the grandchild share variables with nodes that were settled before them. -/
theorem init_negotiates_shared :
    let pattern (s p o : Slot) : Scan := .index { pattern := ⟨[.triple s p o]⟩ }
    let first := (ofScan (pattern (.var ⟨"x"⟩) (.term (.iri "q")) (.var ⟨"o"⟩)) 1).addChild
      (ofScan (pattern (.var ⟨"y"⟩) (.var ⟨"x"⟩) (.var ⟨"s"⟩)) 1)
    let n := ((ofScan (pattern (.var ⟨"s"⟩) (.term (.iri "p")) (.var ⟨"o"⟩)) 1).addChild
      first).addChild (ofScan (pattern (.var ⟨"w"⟩) (.var ⟨"y"⟩) (.var ⟨"o"⟩)) 1)
    let root := (n.init ∅ ⟨[⟨"z"⟩, ⟨"o"⟩]⟩).2
    let order := (n.init ∅ ⟨[⟨"z"⟩, ⟨"o"⟩]⟩).1
    order.vars.Nodup ∧ order.vars = [⟨"z"⟩, ⟨"o"⟩, ⟨"s"⟩, ⟨"x"⟩, ⟨"y"⟩, ⟨"w"⟩] ∧
      root.nodes.map (·.attributes) = [[⟨"o"⟩, ⟨"s"⟩], [⟨"o"⟩, ⟨"x"⟩], [⟨"s"⟩, ⟨"x"⟩, ⟨"y"⟩],
        [⟨"o"⟩, ⟨"y"⟩, ⟨"w"⟩]] := by
  intro pattern first n root order
  have leaf (scan : IndexScan) : (ofScan (.index scan) 1).Indexed :=
    .intro rfl (List.forall_mem_nil _)
  have below : first.Indexed := .intro rfl (List.forall_mem_singleton.2 (leaf _))
  have indexed : n.Indexed :=
    .intro rfl (List.forall_mem_cons.2 ⟨below, List.forall_mem_singleton.2 (leaf _)⟩)
  have distinct : (⟨[⟨"z"⟩, ⟨"o"⟩]⟩ : AttributeOrder).vars.Nodup := by decide
  exact ⟨(init_negotiates indexed distinct ∅).1, by decide, by decide⟩

end Node

end QuadQuery
