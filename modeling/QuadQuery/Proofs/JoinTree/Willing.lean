import QuadQuery.Proofs.JoinTree.Counting
import QuadQuery.Proofs.JoinTree.Ordering

/-!
# Join trees without refusals

A scan of given rows may refuse to be opened or to be moved. As long as it does not, it does the same
as one that never refuses. So a tree in which no step has failed yet does what the tree without any
refusals does, step by step (`Node.after_willing`).
-/

namespace QuadQuery

/-! ## Scans -/

namespace Scan

/-- The scan without any refusal. -/
def willing : Scan → Scan
  | .index s => .index s
  | .fixed s => .fixed { s with openRefusal := none, seekRefusal := none }

/-- A scan that has not been used yet, whether it refuses or not: a basic pattern, or given rows that
are as long as their variables. -/
def Fresh : Scan → Prop
  | .index s => s = { pattern := s.pattern }
  | .fixed s => s.rest = s.rows ∧ ∀ row ∈ s.rows, row.length = s.vars.length

variable {d : Dataset} {s s' : Scan} {context : Binding} {firstChanged : Nat}

theorem fresh_index (pattern : BasicPattern) : Fresh (.index { pattern }) := rfl

theorem Fresh.unused_willing (h : s.Fresh) : s.willing.Unused := by
  cases s with
  | index s => exact h
  | fixed s => exact ⟨rfl, rfl, h⟩

@[simp]
theorem attributes_willing (s : Scan) : s.willing.attributes = s.attributes := by cases s <;> rfl

@[simp]
theorem openTerms_willing (s : Scan) : s.willing.openTerms = s.openTerms := by cases s <;> rfl

@[simp]
theorem hasVariable_willing (s : Scan) : s.willing.hasVariable = s.hasVariable := by cases s <;> rfl

@[simp]
theorem order_willing (s : Scan) : s.willing.order = s.order := by cases s <;> rfl

@[simp]
theorem rowsAt_willing (s : Scan) (d : Dataset) (context : Binding) :
    s.willing.rowsAt d context = s.rowsAt d context := by
  cases s <;> rfl

@[simp]
theorem rest_willing (s : Scan) : s.willing.rest = s.rest := by cases s <;> rfl

@[simp]
theorem left_willing (s : Scan) : s.willing.left = s.left := by cases s <;> rfl

@[simp]
theorem limit_willing (s : Scan) (d : Dataset) : s.willing.limit d = s.limit d := by cases s <;> rfl

@[simp]
theorem needsPlace_willing (s : Scan) : s.willing.needsPlace = s.needsPlace := by cases s <;> rfl

@[simp]
theorem positioned_willing (s : Scan) : s.willing.Positioned ↔ s.Positioned := by
  cases s <;> exact .rfl

theorem next?_willing (s : Scan) (cancelled : Bool) :
    s.willing.next? cancelled
      = (s.next? cancelled).map fun drawn => (drawn.1, drawn.2.willing) := by
  cases s with
  | index s =>
    simp only [willing, next?, Option.map_map]
    rfl
  | fixed s =>
    simp only [willing, next?, FixedScan.next?]
    cases s.rest <;> rfl

theorem reset_willing (s : Scan) : s.willing.reset = (s.reset.1, s.reset.2.willing) := by
  cases s <;> rfl

theorem init_willing (s : Scan) (d : Dataset) (incoming : AttributeOrder) :
    s.willing.init d incoming = ((s.init d incoming).1, (s.init d incoming).2.willing) := by
  cases s <;> rfl

theorem open_willing (opened : s.open d = (.ok (), s')) :
    s.willing.open d = (.ok (), s'.willing) := by
  cases s with
  | index s =>
    simp only [willing, Scan.open] at opened ⊢
    split at opened <;> cases opened
    rfl
  | fixed s =>
    simp only [willing, Scan.open, FixedScan.open] at opened ⊢
    cases refusal : s.openRefusal with
    | none =>
      rw [refusal] at opened
      cases opened
      rfl
    | some reason =>
      rw [refusal] at opened
      cases opened

theorem seek_willing {found : Bool} (sought : s.seek d context firstChanged = (.ok found, s')) :
    s.willing.seek d context firstChanged = (.ok found, s'.willing) := by
  cases s with
  | index s =>
    simp only [willing, Scan.seek] at sought ⊢
    split at sought <;> cases sought
    rfl
  | fixed s =>
    simp only [willing, Scan.seek, FixedScan.seek] at sought ⊢
    cases refusal : s.seekRefusal with
    | none =>
      rw [refusal] at sought
      cases sought
      rfl
    | some reason =>
      rw [refusal] at sought
      cases sought

end Scan

/-! ## Trees -/

namespace Node

mutual

/-- The tree without any refusal. -/
def willing : Node → Node
  | ⟨scan, capacity, attributes, children, preFilters, postFilters, state, neverMatches, context,
      own, extended, childContext, stats⟩ =>
    ⟨scan.willing, capacity, attributes, willingAll children, preFilters, postFilters, state,
      neverMatches, context, own, extended, childContext, stats⟩

/-- The windows without any refusal of their children. -/
def willingAll : List (Window Node) → List (Window Node)
  | [] => []
  | ⟨node, entries, cursor, more, chunk⟩ :: rest =>
    ⟨node.willing, entries, cursor, more, chunk⟩ :: willingAll rest

end

end Node

/-- The window without any refusal of its child. -/
def Window.willing (w : Window Node) : Window Node :=
  { w with node := w.node.willing }

namespace Node

variable {d : Dataset} {n n' : Node} {w : Window Node} {ws : List (Window Node)} {env : Env}
  {advance : Advance} {context : Binding} {firstChanged : Nat}

theorem willingAll_eq (ws : List (Window Node)) : willingAll ws = ws.map Window.willing := by
  induction ws with
  | nil => rfl
  | cons w rest ih => cases w; rw [willingAll, ih, List.map_cons, Window.willing]

theorem willing_eq (n : Node) :
    n.willing = { n with scan := n.scan.willing, children := n.children.map Window.willing } := by
  cases n
  simp only [willing, willingAll_eq]

mutual

/-- The order of variables is settled in the same way. -/
theorem init_willing (d : Dataset) (incoming : AttributeOrder) : (n : Node) →
    n.willing.init d incoming = ((n.init d incoming).1, (n.init d incoming).2.willing)
  | ⟨scan, _, _, children, _, _, _, _, _, _, _, _, _⟩ => by
    simp only [willing, init, Scan.init_willing, Scan.openTerms_willing, Scan.attributes_willing,
      initAll_willing d _ children]

theorem initAll_willing (d : Dataset) (incoming : AttributeOrder) : (ws : List (Window Node)) →
    initAll d incoming (willingAll ws)
      = ((initAll d incoming ws).1, willingAll (initAll d incoming ws).2)
  | [] => rfl
  | ⟨node, _, _, _, _⟩ :: rest => by
    simp only [willingAll, initAll, init_willing d incoming node, initAll_willing d _ rest]

end

mutual

/-- Scans that refuse have no other rows. -/
theorem rows_willing (d : Dataset) (context : Binding) : (n : Node) →
    n.willing.rows d context = n.rows d context
  | ⟨scan, _, _, children, _, _, _, _, _, _, _, _, _⟩ => by
    simp only [willing, rows, Scan.openTerms_willing, Scan.rowsAt_willing, Scan.attributes_willing,
      columns_willing d _ children]

theorem columns_willing (d : Dataset) (context : Binding) : (ws : List (Window Node)) →
    columns d context (willingAll ws) = columns d context ws
  | [] => rfl
  | ⟨node, _, _, _, _⟩ :: rest => by
    simp only [willingAll, columns, rows_willing d context node, columns_willing d context rest]

end

theorem rowsOf_willing (d : Dataset) (context : Binding) (n : Node) :
    n.willing.rowsOf d context = n.rowsOf d context := by
  funext ids
  cases n
  simp only [willing, rowsOf, Scan.attributes_willing, columns_willing]

mutual

theorem remaining_willing (d : Dataset) : (n : Node) → n.willing.remaining d = n.remaining d
  | ⟨scan, capacity, attributes, children, preFilters, postFilters, state, neverMatches, context,
      own, extended, childContext, stats⟩ => by
    have fresh := rowsOf_willing d context ⟨scan, capacity, attributes, children, preFilters,
      postFilters, state, neverMatches, context, own, extended, childContext, stats⟩
    simp only [willing] at fresh
    simp only [willing, remaining, Scan.rest_willing, wheels_willing d _ children, fresh]

theorem wheels_willing (d : Dataset) (context : Binding) : (ws : List (Window Node)) →
    wheels d context (willingAll ws) = wheels d context ws
  | [] => rfl
  | ⟨node, _, _, _, _⟩ :: rest => by
    simp only [willingAll, wheels, remaining_willing d node, rows_willing d context node,
      wheels_willing d context rest]

end

mutual

theorem work_willing (d : Dataset) : (n : Node) → n.willing.work d = n.work d
  | ⟨scan, _, _, children, _, _, _, _, _, _, _, _, _⟩ => by
    simp only [willing, work, workOf, Scan.left_willing, Scan.limit_willing,
      odometerWork_willing d children]

theorem odometerWork_willing (d : Dataset) : (ws : List (Window Node)) →
    odometerWork d (willingAll ws) = odometerWork d ws
  | [] => rfl
  | ⟨node, _, _, _, _⟩ :: rest => by
    simp only [willingAll, odometerWork, work_willing d node, odometerWork_willing d rest]

end

mutual

theorem nodes_willing : (n : Node) → n.willing.nodes = n.nodes.map willing
  | ⟨_, _, _, children, _, _, _, _, _, _, _, _, _⟩ => by
    simp only [willing, nodes, List.map_cons, childNodes_willing children]

theorem childNodes_willing : (ws : List (Window Node)) →
    childNodes (willingAll ws) = (childNodes ws).map willing
  | [] => rfl
  | ⟨node, _, _, _, _⟩ :: rest => by
    simp only [willingAll, childNodes, List.map_append, nodes_willing node, childNodes_willing rest]

end

/-- Trees that are put together from unused scans, some of which may refuse, have no other shape. -/
theorem MadeOf.built_willing (made : n.MadeOf Scan.Fresh) : n.willing.Built := by
  induction made with
  | ofScan fresh capacity => exact .ofScan fresh.unused_willing capacity
  | @addChild n child _ _ first second =>
    have same : (n.addChild child).willing = n.willing.addChild child.willing := by
      rw [willing_eq, willing_eq n]
      simp only [Node.addChild, List.map_append, List.map_cons, List.map_nil, Window.willing]
    rw [same]
    exact .addChild first second
  | @addFilter n _ e first =>
    have same : (n.addFilter e).willing = n.willing.addFilter e := by
      have decides : n.willing.decides e = n.decides e := by
        rw [willing_eq, Node.decides, Node.decides, Scan.hasVariable_willing]
      unfold Node.addFilter
      rw [decides]
      split <;> simp only [willing_eq]
    rw [same]
    exact .addFilter first e

/-! ## Steps of one node -/

theorem take_willing {row : Binding} (taken : n.take = (.ok row, n')) :
    n.willing.take = (.ok row, n'.willing) := by
  rw [willing_eq n]
  unfold take at taken ⊢
  cases state : n.state <;> simp only [state] at taken ⊢ <;> cases taken
  rw [willing_eq]

theorem open_willing (opened : n.open env = (.ok (), n')) :
    n.willing.open env = (.ok (), n'.willing) := by
  rw [willing_eq n]
  unfold Node.open at opened ⊢
  dsimp only at opened ⊢
  split at opened
  · next never =>
    cases opened
    rw [if_pos never, willing_eq]
  · next possible =>
    rw [if_neg possible]
    rcases moved : n.scan.open env.dataset with ⟨_ | _, scan⟩
    · rw [moved] at opened
      cases opened
    · rw [moved] at opened
      cases opened
      rw [Scan.open_willing moved, willing_eq]

theorem seek_willing {found : Bool} (sought : n.seek env context firstChanged = (.ok found, n')) :
    n.willing.seek env context firstChanged = (.ok found, n'.willing) := by
  rw [willing_eq n]
  unfold seek at sought ⊢
  dsimp only at sought ⊢
  split at sought
  · next never =>
    cases sought
    rw [if_pos never, willing_eq]
  · next possible =>
    rw [if_neg possible]
    rcases moved : n.scan.seek env.dataset context firstChanged with ⟨_ | _, scan⟩
    · rw [moved] at sought
      cases sought
    · rw [moved] at sought
      cases sought
      rw [Scan.seek_willing moved, willing_eq]

theorem reset_willing (n : Node) : n.willing.reset = (n.reset.1, n.reset.2.willing) := by
  rw [willing_eq n]
  unfold reset
  dsimp only
  split
  · rw [willing_eq]
  · rw [Scan.reset_willing, willing_eq]

/-- A way to advance nodes that does the same where there are no refusals. -/
def KeepsWilling (advance : Advance) : Prop :=
  ∀ (n : Node) (found : Bool) (n' : Node), advance n = (.ok found, n') →
    advance n.willing = (.ok found, n'.willing)

end Node

/-! ## Windows -/

namespace Window

open Node (KeepsWilling)

variable {w w' : Window Node} {ws ws' : List (Window Node)} {env : Env} {advance : Advance}
  {capacity : Nat} {context : Binding} {firstChanged : Nat}

theorem draw_willing (keeps : KeepsWilling advance) (count : Nat) {node node' : Node}
    {rows : List Binding} (drawn : draw advance count node = (.ok (), rows, node')) :
    draw advance count node.willing = (.ok (), rows, node'.willing) := by
  induction count generalizing node rows with
  | zero =>
    cases drawn
    rfl
  | succ count ih =>
    unfold draw at drawn ⊢
    rcases advanced : advance node with ⟨_ | _ | _, next⟩
    · rw [advanced] at drawn
      cases drawn
    · rw [advanced] at drawn
      cases drawn
      rw [keeps _ _ _ advanced]
    · rw [advanced] at drawn
      rw [keeps _ _ _ advanced]
      rcases taken : next.take with ⟨_ | row, last⟩
      · simp only [taken] at drawn
        cases drawn
      · rcases others : draw advance count last with ⟨result, rows', end'⟩
        simp only [taken, others] at drawn
        cases drawn
        simp only [Node.take_willing taken, ih others]

theorem fill_willing (keeps : KeepsWilling advance)
    (filled : w.fill advance capacity = (.ok (), w')) :
    w.willing.fill advance capacity = (.ok (), w'.willing) := by
  unfold fill at filled ⊢
  rcases drawn : draw advance capacity w.node with ⟨_ | _, entries, node⟩
  · rw [drawn] at filled
    cases filled
  · rw [drawn] at filled
    simp only [willing, draw_willing keeps capacity drawn] at filled ⊢
    split at filled
    · next full =>
      rw [if_pos full]
      rcases advanced : advance node with ⟨_ | more, next⟩
      · rw [advanced] at filled
        cases filled
      · rw [advanced] at filled
        cases filled
        rw [keeps _ _ _ advanced]
    · next short =>
      cases filled
      rw [if_neg short]

theorem load_willing (keeps : KeepsWilling advance)
    (loaded : w.load env advance context firstChanged capacity = (.ok (), w')) :
    w.willing.load env advance context firstChanged capacity = (.ok (), w'.willing) := by
  unfold load at loaded ⊢
  rcases sought : w.node.seek env context firstChanged with ⟨_ | _ | _, node⟩
  · simp only [sought] at loaded
    cases loaded
  · simp only [sought] at loaded
    cases loaded
    simp only [willing, Node.seek_willing sought]
  · simp only [sought] at loaded
    simp only [willing, Node.seek_willing sought]
    exact fill_willing keeps loaded

theorem rewind_willing (keeps : KeepsWilling advance)
    (rewound : w.rewind advance capacity = (.ok (), w')) :
    w.willing.rewind advance capacity = (.ok (), w'.willing) := by
  unfold rewind at rewound ⊢
  split at rewound
  · next first =>
    cases rewound
    exact if_pos first
  · next later =>
    rw [if_neg (show ¬ w.willing.chunk = 0 from later)]
    have same : w.willing.node.reset.2 = w.node.reset.2.willing :=
      congrArg Prod.snd (Node.reset_willing w.node)
    rw [same]
    exact fill_willing keeps rewound

theorem refill_willing (keeps : KeepsWilling advance) {found : Bool}
    (refilled : w.refill advance capacity = (.ok found, w')) :
    w.willing.refill advance capacity = (.ok found, w'.willing) := by
  unfold refill at refilled ⊢
  split at refilled
  · next last =>
    cases refilled
    exact if_pos last
  · next more =>
    rw [if_neg (show ¬ (!w.willing.more) = true from more)]
    rcases filled : w.fill advance capacity with ⟨_ | _, v⟩
    · rw [filled] at refilled
      cases refilled
    · rw [filled] at refilled
      cases refilled
      rw [fill_willing keeps filled]
      rfl

theorem step?_willing (w : Window Node) : w.willing.step? = w.step?.map willing := by
  unfold step? willing
  split <;> rfl

theorem loadAll_willing (keeps : KeepsWilling advance)
    (loaded : loadAll env advance context firstChanged capacity ws = (.ok (), ws')) :
    loadAll env advance context firstChanged capacity (ws.map willing)
      = (.ok (), ws'.map willing) := by
  induction ws generalizing ws' with
  | nil =>
    cases loaded
    rfl
  | cons w rest ih =>
    rw [List.map_cons]
    unfold loadAll at loaded ⊢
    rcases here : w.load env advance context firstChanged capacity with ⟨_ | _, v⟩
    · rw [here] at loaded
      cases loaded
    · rcases later : loadAll env advance context firstChanged capacity rest with ⟨result, vs⟩
      rw [here] at loaded
      simp only [later] at loaded
      cases loaded
      simp only [load_willing keeps here, ih later, List.map_cons]

theorem rewindAll_willing (keeps : KeepsWilling advance)
    (rewound : rewindAll advance capacity ws = (.ok (), ws')) :
    rewindAll advance capacity (ws.map willing) = (.ok (), ws'.map willing) := by
  induction ws generalizing ws' with
  | nil =>
    cases rewound
    rfl
  | cons w rest ih =>
    rw [List.map_cons]
    unfold rewindAll at rewound ⊢
    rcases later : rewindAll advance capacity rest with ⟨result, vs⟩
    split at rewound
    · next empty =>
      simp only [later] at rewound
      cases rewound
      rw [if_pos (show w.willing.isEmpty = true from empty), ih later, List.map_cons]
    · next filled =>
      rw [if_neg (show ¬ w.willing.isEmpty = true from filled)]
      rcases here : w.rewind advance capacity with ⟨_ | _, v⟩
      · rw [here] at rewound
        cases rewound
      · rw [here] at rewound
        simp only [later] at rewound
        cases rewound
        simp only [rewind_willing keeps here, ih later, List.map_cons]

/-- The turn without any refusal of the children. -/
def Turn.willing (turn : Turn) : Turn :=
  { turn with lower := turn.lower.map Window.willing, upper := turn.upper.map Window.willing }

theorem moveFirst_willing (keeps : KeepsWilling advance) {found : Bool}
    (moved : (moveFirst advance capacity ws).moved = .ok found) :
    moveFirst advance capacity (ws.map willing) = (moveFirst advance capacity ws).willing := by
  induction ws with
  | nil => rfl
  | cons w rest ih =>
    rw [List.map_cons]
    unfold moveFirst at moved ⊢
    dsimp only at moved ⊢
    by_cases empty : w.isEmpty = true
    · have empty' : w.willing.isEmpty = true := empty
      simp only [if_pos empty, if_pos empty'] at moved ⊢
      rw [ih moved]
      rfl
    · have filled : ¬ w.willing.isEmpty = true := empty
      simp only [if_neg empty, if_neg filled, step?_willing] at moved ⊢
      cases stepped : w.step? with
      | some v => rfl
      | none =>
        simp only [stepped] at moved
        rcases refilled : w.refill advance capacity with ⟨_ | _ | _, v⟩
        · rw [refilled] at moved
          cases moved
        · simp only [refilled] at moved
          simp only [Option.map_none, refill_willing keeps refilled, ih moved]
          rfl
        · simp only [Option.map_none, refill_willing keeps refilled]
          rfl

end Window

/-! ## The loop -/

namespace Node

variable {n n' : Node} {env : Env} {advance : Advance}

theorem combined_willing (own : Binding) (ws : List (Window Node)) :
    combined own (ws.map Window.willing) = combined own ws := by
  rw [combined, combined, List.foldl_map]
  rfl

theorem phaseFor_willing (ws : List (Window Node)) :
    phaseFor (ws.map Window.willing) = phaseFor ws := by
  rw [phaseFor, phaseFor, List.any_map]
  rfl

theorem nextCombination_willing (keeps : KeepsWilling advance) {found : Bool}
    (turned : n.nextCombination advance = (.ok found, n')) :
    n.willing.nextCombination advance = (.ok found, n'.willing) := by
  rw [willing_eq n]
  unfold nextCombination at turned ⊢
  dsimp only at turned ⊢
  rcases moved : (Window.moveFirst advance n.capacity n.children).moved with _ | _ | _
  · rw [moved] at turned
    cases turned
  · rw [moved] at turned
    cases turned
    rw [Window.moveFirst_willing keeps moved, willing_eq]
    simp only [Window.Turn.willing, moved, List.map_append]
  · rw [moved] at turned
    dsimp only at turned
    rcases rewound : Window.rewindAll advance n.capacity
      (Window.moveFirst advance n.capacity n.children).lower with ⟨_ | _, ws⟩
    · rw [rewound] at turned
      cases turned
    · rw [rewound] at turned
      cases turned
      rw [Window.moveFirst_willing keeps moved, willing_eq]
      simp only [Window.Turn.willing, moved, Window.rewindAll_willing keeps rewound,
        List.map_append]

theorem find_willing (keeps : KeepsWilling advance) (found : n.find env advance = (.ok (), n')) :
    n.willing.find env advance = (.ok (), n'.willing) := by
  rw [willing_eq n]
  unfold find at found ⊢
  dsimp only
  rw [Scan.next?_willing]
  rcases drawn : n.scan.next? env.cancelled with _ | ⟨ids, scan⟩
  · rw [drawn] at found
    cases found
    rw [willing_eq]
    rfl
  · rw [drawn] at found
    simp only [Option.map_some, checkPre_counts] at found ⊢
    rcases holds : n.preFilters.all fun e =>
      e.isSatisfied (view env.dataset (.ofRow n.attributes ids) ∅)
    · simp only [holds] at found ⊢
      cases found
      rw [willing_eq]
    · simp only [holds, Scan.order_willing] at found ⊢
      rcases loaded : Window.loadAll env advance
          ((Binding.ofRow n.attributes ids).extendAbsent n.context)
          (scan.order.firstChanged n.childContext
            ((Binding.ofRow n.attributes ids).extendAbsent n.context)) n.capacity n.children
        with ⟨_ | _, ws⟩
      · simp only [loaded] at found
        cases found
      · simp only [loaded, Window.loadAll_willing keeps loaded, combine, combined_willing,
          phaseFor_willing, checkPost_counts] at found ⊢
        split at found <;>
        · next judged =>
          obtain ⟨holds, rfl⟩ := Prod.mk.inj judged
          cases found
          simp only [holds]
          rw [willing_eq]

theorem extend_willing (keeps : KeepsWilling advance)
    (extended : n.extend env advance = (.ok (), n')) :
    n.willing.extend env advance = (.ok (), n'.willing) := by
  unfold extend at extended ⊢
  rcases turned : n.nextCombination advance with ⟨_ | _ | _, m⟩
  · rw [turned] at extended
    cases extended
  · rw [turned] at extended
    cases extended
    rw [nextCombination_willing keeps turned, willing_eq, willing_eq]
  · rw [turned] at extended
    rw [nextCombination_willing keeps turned, willing_eq m]
    simp only [combine, combined_willing, checkPost_counts] at extended ⊢
    split at extended <;>
    · next judged =>
      obtain ⟨holds, rfl⟩ := Prod.mk.inj judged
      cases extended
      simp only [holds]
      rw [willing_eq]

theorem advanceWithin_willing (env : Env) (budget : Nat) :
    KeepsWilling (advanceWithin env budget) := by
  induction budget with
  | zero =>
    intro n found n' advanced
    cases advanced
  | succ budget ih =>
    intro n found n' advanced
    have same : n.willing.state = n.state := by rw [willing_eq]
    unfold advanceWithin at advanced ⊢
    rw [same]
    cases state : n.state with
    | exhausted =>
      simp only [state] at advanced ⊢
      cases advanced
      rfl
    | ready phase =>
      simp only [state] at advanced ⊢
      cases advanced
      rfl
    | active phase =>
      simp only [state] at advanced ⊢
      cases phase with
      | find =>
        rcases ticked : n.find env (advanceWithin env budget) with ⟨_ | _, m⟩
        · simp only [ticked] at advanced
          cases advanced
        · simp only [ticked] at advanced
          simp only [find_willing ih ticked]
          exact ih m found n' advanced
      | extend =>
        rcases ticked : n.extend env (advanceWithin env budget) with ⟨_ | _, m⟩
        · simp only [ticked] at advanced
          cases advanced
        · simp only [ticked] at advanced
          simp only [extend_willing ih ticked]
          exact ih m found n' advanced

theorem advance_willing {found : Bool} (advanced : n.advance env = (.ok found, n')) :
    n.willing.advance env = (.ok found, n'.willing) := by
  unfold advance budget at advanced ⊢
  rw [work_willing]
  exact advanceWithin_willing env _ n found n' advanced

/-! ## Runs -/

/-- A step that does not fail is the same step without refusals. -/
theorem perform_willing {step : Step} (fine : (n.perform env step).1 ≠ .failed) :
    n.willing.perform env step = ((n.perform env step).1, (n.perform env step).2.willing) := by
  cases step with
  | «open» =>
    unfold perform at fine ⊢
    rcases opened : n.open env with ⟨_ | _, n'⟩
    · simp only [opened] at fine
      exact absurd rfl fine
    · simp only [open_willing opened]
  | seek context firstChanged =>
    unfold perform at fine ⊢
    rcases sought : n.seek env context firstChanged with ⟨_ | _, n'⟩
    · simp only [sought] at fine
      exact absurd rfl fine
    · simp only [sought, seek_willing sought]
  | reset =>
    unfold perform
    rw [reset_willing]
  | advance =>
    unfold perform at fine ⊢
    rcases advanced : n.advance env with ⟨_ | _, n'⟩
    · simp only [advanced] at fine
      exact absurd rfl fine
    · simp only [advance_willing advanced]
  | take =>
    unfold perform at fine ⊢
    rcases taken : n.take with ⟨_ | _, n'⟩
    · simp only [taken] at fine
      exact absurd rfl fine
    · simp only [take_willing taken]

/-- As long as no step fails, a tree is where it would be without refusals. -/
theorem after_willing {steps : List Step} (fine : .failed ∉ n.replies env steps) :
    n.willing.after env steps = (n.after env steps).willing := by
  induction steps generalizing n with
  | nil => rfl
  | cons step rest ih =>
    rw [replies, List.mem_cons, not_or] at fine
    have same := perform_willing (Ne.symm fine.1)
    calc n.willing.after env (step :: rest)
        = (n.willing.perform env step).2.after env rest := rfl
      _ = ((n.perform env step).2.willing).after env rest := by rw [same]
      _ = (n.after env (step :: rest)).willing := ih fine.2

end Node

end QuadQuery
