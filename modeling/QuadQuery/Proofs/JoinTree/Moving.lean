import QuadQuery.Proofs.JoinTree.Ending

/-!
# The moves of children

Below the root of a join tree, nodes are moved by their parents only. `Node.moves` lists these moves
for a node that is advanced, in the order in which they are made. The list follows the functions that
advance the node: it goes on wherever these advance a child, and has an entry wherever they move one.
`Node.movesAlong` is the list for a whole run. It tells where every node was moved last
(`Whereabouts.after`).

The functions and their lists are apart, and so a list could miss a move or name another hint. It does
not: a parent loads the windows of its children with the listed contexts and hints
(`Window.loadAll_listed`), and it moves them nowhere else (`Node.extend_listed`).
-/

namespace QuadQuery

/-- A parent moves one of its children. -/
structure Move where
  /-- The way down to the child: which child to turn to at each node. -/
  path : List Nat
  /-- The parent, with its own row drawn. -/
  parent : Node
  /-- The child before it is moved. -/
  child : Node
  context : Binding
  firstChanged : Nat

/-- A move in the tree of the child with the number `i`, seen from its parent. -/
def Move.below (i : Nat) (m : Move) : Move :=
  { m with path := i :: m.path }

/-! ## Windows -/

namespace Window

/-- The moves while rows are drawn from a node. Those of an advance are given. -/
def drawMoves (advance : Advance) (moves : Node → List Move) : Nat → Node → List Move
  | 0, _ => []
  | count + 1, node =>
    moves node ++
      match advance node with
      | (.ok true, node) =>
        match node.take with
        | (.ok _, node) => drawMoves advance moves count node
        | (.error _, _) => []
      | (.ok false, _) | (.error _, _) => []

def fillMoves (advance : Advance) (moves : Node → List Move) (capacity : Nat) (w : Window Node) :
    List Move :=
  drawMoves advance moves capacity w.node ++
    match draw advance capacity w.node with
    | (.ok (), entries, node) => if entries.length = capacity then moves node else []
    | (.error _, _, _) => []

/-- The child is moved, and then the window may be filled. -/
def loadMoves (env : Env) (advance : Advance) (moves : Node → List Move) (parent : Node)
    (context : Binding) (firstChanged : Nat) (w : Window Node) : List Move :=
  { path := [], parent, child := w.node, context, firstChanged } ::
    match w.node.seek env context firstChanged with
    | (.ok true, node) => fillMoves advance moves parent.capacity { w with node, chunk := 0 }
    | (.ok false, _) | (.error _, _) => []

def refillMoves (advance : Advance) (moves : Node → List Move) (capacity : Nat) (w : Window Node) :
    List Move :=
  if !w.more then [] else fillMoves advance moves capacity w

def rewindMoves (advance : Advance) (moves : Node → List Move) (capacity : Nat) (w : Window Node) :
    List Move :=
  if w.chunk = 0 then []
  else fillMoves advance moves capacity { w with node := w.node.reset.2, chunk := 0 }

/-- The moves while the children from the number `i` on are moved. -/
def loadAllMoves (env : Env) (advance : Advance) (moves : Node → List Move) (parent : Node)
    (context : Binding) (firstChanged : Nat) : Nat → List (Window Node) → List Move
  | _, [] => []
  | i, w :: rest =>
    (loadMoves env advance moves parent context firstChanged w).map (.below i) ++
      match w.load env advance context firstChanged parent.capacity with
      | (.ok (), _) => loadAllMoves env advance moves parent context firstChanged (i + 1) rest
      | (.error _, _) => []

def rewindAllMoves (advance : Advance) (moves : Node → List Move) (capacity : Nat) :
    Nat → List (Window Node) → List Move
  | _, [] => []
  | i, w :: rest =>
    if w.isEmpty then rewindAllMoves advance moves capacity (i + 1) rest
    else
      (w.rewindMoves advance moves capacity).map (.below i) ++
        match w.rewind advance capacity with
        | (.ok (), _) => rewindAllMoves advance moves capacity (i + 1) rest
        | (.error _, _) => []

def moveFirstMoves (advance : Advance) (moves : Node → List Move) (capacity : Nat) :
    Nat → List (Window Node) → List Move
  | _, [] => []
  | i, w :: rest =>
    if w.isEmpty then moveFirstMoves advance moves capacity (i + 1) rest
    else
      match w.step? with
      | some _ => []
      | none =>
        (w.refillMoves advance moves capacity).map (.below i) ++
          match w.refill advance capacity with
          | (.ok false, _) => moveFirstMoves advance moves capacity (i + 1) rest
          | (.ok true, _) | (.error _, _) => []

end Window

/-! ## Nodes -/

namespace Node

/-- The moves while the next own row is drawn. -/
def findMoves (env : Env) (advance : Advance) (moves : Node → List Move) (n : Node) : List Move :=
  match n.scan.next? env.cancelled with
  | none => []
  | some (ids, scan) =>
    let own := Binding.ofRow n.attributes ids
    let n := { n with scan, stats.ownRows := n.stats.ownRows + 1 }
    match n.checkPre env.dataset own with
    | (false, _) => []
    | (true, n) =>
      let context := own.extendAbsent n.context
      let firstChanged := n.scan.order.firstChanged n.childContext context
      Window.loadAllMoves env advance moves n context firstChanged 0 n.children

/-- The moves while the next combination is put together. -/
def extendMoves (advance : Advance) (moves : Node → List Move) (n : Node) : List Move :=
  let turn := Window.moveFirst advance n.capacity n.children
  Window.moveFirstMoves advance moves n.capacity 0 n.children ++
    match turn.moved with
    | .ok true => Window.rewindAllMoves advance moves n.capacity 0 turn.lower
    | .ok false | .error _ => []

def movesWithin (env : Env) : Nat → Node → List Move
  | 0, _ => []
  | budget + 1, n =>
    let advance := advanceWithin env budget
    match n.state with
    | .exhausted | .ready _ => []
    | .active .find =>
      n.findMoves env advance (movesWithin env budget) ++
        match n.find env advance with
        | (.ok (), n) => movesWithin env budget n
        | (.error _, _) => []
    | .active .extend =>
      n.extendMoves advance (movesWithin env budget) ++
        match n.extend env advance with
        | (.ok (), n) => movesWithin env budget n
        | (.error _, _) => []

/-- The moves of all nodes below a node that is advanced. -/
def moves (env : Env) (n : Node) : List Move :=
  n.movesWithin env (n.budget env.dataset)

/-! ## Runs -/

/-- Nothing but advancing the root moves other nodes. -/
def Event.moves (now : Env × Node) : Event → List Move
  | .step .advance => now.2.moves now.1
  | .step .open | .step (.seek ..) | .step .reset | .step .take | .cancel => []

/-- The moves in a run of events. -/
def movesAlong (now : Env × Node) : List Event → List Move
  | [] => []
  | event :: rest => event.moves now ++ movesAlong (occur now event) rest

/-- The replies to the steps in a run of events. -/
def repliesAlong (now : Env × Node) : List Event → List Reply
  | [] => []
  | .step step :: rest =>
    (now.2.perform now.1 step).1 :: repliesAlong (occur now (.step step)) rest
  | .cancel :: rest => repliesAlong (occur now .cancel) rest

/-- The node that a way down leads to. -/
def down? : Node → List Nat → Option Node
  | n, [] => some n
  | n, i :: path => n.children[i]?.bind (·.node.down? path)

end Node

/-! ## Whereabouts -/

/-- What the nodes of a tree were last moved to, if they were, each under the way down to it. -/
abbrev Whereabouts := List Nat → Option Binding

namespace Whereabouts

variable {places : Whereabouts} {log later : List Move} {i j : Nat}

/-- Nothing was moved yet. -/
def unknown : Whereabouts := fun _ => none

def record (places : Whereabouts) (m : Move) : Whereabouts :=
  Function.update places m.path (some m.context)

/-- The whereabouts after some moves. -/
def after (places : Whereabouts) (log : List Move) : Whereabouts :=
  log.foldl record places

/-- The whereabouts in the tree of the child with the number `i`. -/
def below (places : Whereabouts) (i : Nat) : Whereabouts := fun path => places (i :: path)

@[simp]
theorem after_nil : places.after [] = places := rfl

@[simp]
theorem after_cons {m : Move} : places.after (m :: log) = (places.record m).after log := rfl

@[simp]
theorem after_append : places.after (log ++ later) = (places.after log).after later :=
  List.foldl_append

@[simp]
theorem below_apply (path : List Nat) : places.below i path = places (i :: path) := rfl

/-- Moving a node leaves those below it where they are. -/
theorem below_record {m : Move} (here : m.path = []) (i : Nat) :
    (places.record m).below i = places.below i := by
  funext path
  rw [below, below, record, here]
  exact Function.update_of_ne (List.cons_ne_nil i path) _ _

/-- A move in the tree of one child is known there. -/
theorem below_record_below (m : Move) :
    (places.record (m.below i)).below i = (places.below i).record m := by
  funext path
  simp [record, Move.below, Function.update_apply]

@[simp]
theorem below_after_map :
    (places.after (log.map (Move.below i))).below i = (places.below i).after log := by
  induction log generalizing places with
  | nil => rfl
  | cons m rest ih => rw [List.map_cons, after_cons, after_cons, ih, below_record_below]

theorem after_map_cons (path : List Nat) :
    places.after (log.map (Move.below i)) (i :: path) = (places.below i).after log path :=
  congrFun below_after_map path

/-- Such moves do not matter in the trees of the others. -/
theorem below_after_map_of_ne (other : j ≠ i) :
    (places.after (log.map (Move.below i))).below j = places.below j := by
  induction log generalizing places with
  | nil => rfl
  | cons m rest ih =>
    have first : (places.record (m.below i)).below j = places.below j := by
      funext path
      simp [record, Move.below, other]
    rw [List.map_cons, after_cons, ih, first]

theorem after_map_of_ne (other : j ≠ i) (path : List Nat) :
    places.after (log.map (Move.below i)) (j :: path) = places (j :: path) :=
  congrFun (below_after_map_of_ne other) path

/-- Nor do they for the parent itself. -/
@[simp]
theorem after_map_nil : places.after (log.map (Move.below i)) [] = places [] := by
  induction log generalizing places with
  | nil => rfl
  | cons m rest ih =>
    rw [List.map_cons, after_cons, ih]
    simp [record, Move.below]

end Whereabouts

/-! ## Moves and windows -/

/-- The move of a child of the very node whose moves are listed. -/
def Move.direct (m : Move) : Bool :=
  m.path.length == 1

/-- The nodes that are moved are at least so far down. -/
def Deep (depth : Nat) (log : List Move) : Prop :=
  ∀ m ∈ log, depth ≤ m.path.length

section Deep

variable {depth : Nat} {log : List Move}

theorem Deep.nil : Deep depth [] := List.forall_mem_nil _

theorem Deep.mono {less : Nat} (h : Deep depth log) (fewer : less ≤ depth) : Deep less log :=
  fun m member => fewer.trans (h m member)

theorem Deep.append {later : List Move} (h : Deep depth log) (h' : Deep depth later) :
    Deep depth (log ++ later) :=
  List.forall_mem_append.2 ⟨h, h'⟩

theorem Deep.map_below (h : Deep depth log) (i : Nat) : Deep (depth + 1) (log.map (.below i)) :=
  List.forall_mem_map.2 fun m member => Nat.succ_le_succ (h m member)

theorem Deep.filter_direct (h : Deep 2 log) : log.filter Move.direct = [] := by
  refine List.filter_eq_nil_iff.2 fun m member direct => ?_
  have deep := h m member
  rw [Move.direct, beq_iff_eq] at direct
  omega

end Deep

namespace Window

variable {env : Env} {advance : Advance} {moves : Node → List Move} {parent : Node}
  {context : Binding} {firstChanged capacity : Nat}

theorem deep_drawMoves (deep : ∀ node, Deep 1 (moves node)) (count : Nat) (node : Node) :
    Deep 1 (drawMoves advance moves count node) := by
  induction count generalizing node with
  | zero => exact .nil
  | succ count ih =>
    refine (deep node).append ?_
    split
    · split
      · exact ih _
      · exact .nil
    · exact .nil
    · exact .nil

theorem deep_fillMoves (deep : ∀ node, Deep 1 (moves node)) (w : Window Node) :
    Deep 1 (fillMoves advance moves capacity w) := by
  refine (deep_drawMoves deep capacity w.node).append ?_
  split
  · split
    · exact deep _
    · exact .nil
  · exact .nil

/-- Windows that start over move no children. -/
theorem deep_rewindAllMoves (deep : ∀ node, Deep 1 (moves node)) (i : Nat) (ws : List (Window Node)) :
    Deep 2 (rewindAllMoves advance moves capacity i ws) := by
  induction ws generalizing i with
  | nil => exact .nil
  | cons w rest ih =>
    have here : Deep 1 (w.rewindMoves advance moves capacity) := by
      unfold rewindMoves
      split
      · exact .nil
      · exact deep_fillMoves deep _
    unfold rewindAllMoves
    split
    · exact ih (i + 1)
    · refine (here.map_below i).append ?_
      split
      · exact ih (i + 1)
      · exact .nil

/-- Nor do windows that go on. -/
theorem deep_moveFirstMoves (deep : ∀ node, Deep 1 (moves node)) (i : Nat) (ws : List (Window Node)) :
    Deep 2 (moveFirstMoves advance moves capacity i ws) := by
  induction ws generalizing i with
  | nil => exact .nil
  | cons w rest ih =>
    have here : Deep 1 (w.refillMoves advance moves capacity) := by
      unfold refillMoves
      split
      · exact .nil
      · exact deep_fillMoves deep _
    unfold moveFirstMoves
    split
    · exact ih (i + 1)
    · split
      · exact .nil
      · refine (here.map_below i).append ?_
        split
        · exact ih (i + 1)
        · exact .nil
        · exact .nil

/-- A window that is loaded moves its child first of all. -/
theorem exists_loadMoves_eq (deep : ∀ node, Deep 1 (moves node)) (w : Window Node) :
    ∃ log, Deep 1 log ∧ loadMoves env advance moves parent context firstChanged w
      = { path := [], parent, child := w.node, context, firstChanged } :: log := by
  refine ⟨_, ?_, rfl⟩
  split
  · exact deep_fillMoves deep _
  · exact .nil
  · exact .nil

theorem deep_loadAllMoves (i : Nat) (ws : List (Window Node)) :
    Deep 1 (loadAllMoves env advance moves parent context firstChanged i ws) := by
  induction ws generalizing i with
  | nil => exact .nil
  | cons w rest ih =>
    have here : Deep 0 (loadMoves env advance moves parent context firstChanged w) :=
      fun _ _ => Nat.zero_le _
    refine (here.map_below i).append ?_
    split
    · exact ih (i + 1)
    · exact .nil

/-- The windows `ws` were loaded in turn, up to the first that failed, with the contexts and the hints
that are listed as direct moves. If nothing failed, all of them were or none. -/
def LoadedAsListed (env : Env) (advance : Advance) (capacity : Nat) (fine : Prop) (log : List Move)
    (ws ws' : List (Window Node)) : Prop :=
  ∃ parent context firstChanged loaded others, ws = loaded ++ others ∧
    ws' = loaded.map (fun w => (w.load env advance context firstChanged capacity).2) ++ others ∧
    (fine → loaded = [] ∨ others = []) ∧
    log.filter Move.direct = loaded.zipIdx.map fun c =>
      { path := [c.2], parent, child := c.1.node, context, firstChanged }

variable (env advance parent context firstChanged) in
theorem loadAll_listed (deep : ∀ node, Deep 1 (moves node)) (i : Nat) (ws : List (Window Node)) :
    ∃ loaded others, ws = loaded ++ others ∧
      (loadAll env advance context firstChanged parent.capacity ws).2
        = loaded.map (fun w => (w.load env advance context firstChanged parent.capacity).2) ++ others ∧
      ((loadAll env advance context firstChanged parent.capacity ws).1 = .ok () → others = []) ∧
      (loadAllMoves env advance moves parent context firstChanged i ws).filter Move.direct
        = (loaded.zipIdx i).map fun c =>
          { path := [c.2], parent, child := c.1.node, context, firstChanged } := by
  induction ws generalizing i with
  | nil => exact ⟨[], [], rfl, rfl, fun _ => rfl, rfl⟩
  | cons w rest ih =>
    obtain ⟨log, below, moved⟩ : ∃ log, Deep 1 log ∧
        loadMoves env advance moves parent context firstChanged w
          = { path := [], parent, child := w.node, context, firstChanged } :: log :=
      exists_loadMoves_eq deep w
    rw [loadAllMoves, moved, List.map_cons, List.cons_append, List.filter_cons_of_pos rfl,
      List.filter_append, (below.map_below i).filter_direct, List.nil_append]
    unfold loadAll
    rcases here : w.load env advance context firstChanged parent.capacity with ⟨_ | _, w'⟩
    · refine ⟨[w], rest, rfl, ?_, fun fine => ?_, rfl⟩
      · rw [List.map_singleton, here]
        rfl
      · cases fine
    · obtain ⟨loaded, others, rfl, after, all, listed⟩ := ih (i + 1)
      refine ⟨w :: loaded, others, rfl, ?_, all, ?_⟩
      · rw [List.map_cons, here, List.cons_append, ← after]
      · rw [listed]
        rfl

end Window

namespace Node

variable {env : Env} {advance : Advance} {moves : Node → List Move}

theorem deep_extendMoves (deep : ∀ node, Deep 1 (moves node)) (n : Node) :
    Deep 2 (n.extendMoves advance moves) := by
  refine (Window.deep_moveFirstMoves deep 0 n.children).append ?_
  split
  · exact Window.deep_rewindAllMoves deep 0 _
  · exact .nil
  · exact .nil

theorem deep_findMoves (n : Node) :
    Deep 1 (n.findMoves env advance moves) := by
  unfold findMoves
  split
  · exact .nil
  · dsimp only
    split
    · exact .nil
    · exact Window.deep_loadAllMoves 0 _

/-- Only nodes below the one that is advanced are moved. -/
theorem deep_movesWithin (env : Env) (budget : Nat) (n : Node) : Deep 1 (n.movesWithin env budget) := by
  induction budget generalizing n with
  | zero => exact .nil
  | succ budget ih =>
    unfold movesWithin
    dsimp only
    split
    · exact .nil
    · exact .nil
    · refine (deep_findMoves n).append ?_
      split
      · exact ih _
      · exact .nil
    · refine ((deep_extendMoves ih n).mono one_le_two).append ?_
      split
      · exact ih _
      · exact .nil

/-- A node that turns its odometer moves none of its children. -/
theorem extend_listed (env : Env) (budget : Nat) (n : Node) :
    (n.extendMoves (advanceWithin env budget) (movesWithin env budget)).filter Move.direct = [] :=
  (deep_extendMoves (deep_movesWithin env budget) n).filter_direct

end Node

end QuadQuery
