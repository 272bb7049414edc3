import QuadQuery.AttributeOrder
import QuadQuery.Binding
import QuadQuery.Failure

/-!
# Scans of a dataset

An index scan matches a basic pattern against the quads of a dataset, for one context of
variables bound further up at a time. Its rows list the variables of the pattern in the order
of its attributes and come in strictly ascending order.

A context is sought with a hint: how much of the shared order has not changed since the last
one. Where nothing that matters to the scan has changed, it starts over without matching anew.
-/

namespace QuadQuery

/-- A slot with its term looked up. -/
inductive ResolvedSlot where
  | id (id : TermId)
  | var (v : Variable)
deriving DecidableEq

/-- The numbers of the terms of one match, in the order of the attributes. -/
abbrev Row := List TermId

namespace Row

/-- Puts a row in its place in an ascending list that does not hold it twice. -/
def insert (row : Row) : List Row → List Row
  | [] => [row]
  | first :: rest =>
    if row < first then row :: first :: rest
    else if first < row then first :: insert row rest
    else first :: rest

/-- The rows in strictly ascending order. -/
def sorted (rows : List Row) : List Row :=
  rows.foldr insert []

end Row

/-- A basic pattern with its slots resolved. -/
abbrev ResolvedPattern := List (Quad ResolvedSlot)

namespace ResolvedPattern

/-- What a slot is bound to: its own term, or the value of its variable. -/
def slotValue? (env : Binding) : ResolvedSlot → Option TermId
  | .id id => some id
  | .var v => env.get? v

/-- Binds the variable of a slot to a value; fails if it has another one. -/
def bindSlot (env : Binding) : ResolvedSlot × TermId → Option Binding
  | (.id _, _) => some env
  | (.var v, id) =>
    match env.get? v with
    | none => some (env.insert v id)
    | some bound => if bound = id then some env else none

/-- Binds the variables of a pattern to the values of a quad. -/
def bindQuad (env : Binding) (pattern : Quad ResolvedSlot) (q : Quad TermId) : Option Binding :=
  (pattern.zip q).toList.foldlM bindSlot env

/-- All ways to extend `env` so that every pattern is a quad of the index. -/
def solve (index : QuadIndex) : ResolvedPattern → Binding → List Binding
  | [], env => [env]
  | pattern :: rest, env =>
    (index.find (pattern.map (slotValue? env))).flatMap fun q =>
      match bindQuad env pattern q with
      | none => []
      | some env => solve index rest env

/-- A slot with its term looked up; a term that no quad has in this place cannot be met. -/
def resolveSlot (d : Dataset) (place : Place) : Slot → Option ResolvedSlot
  | .var v => some (.var v)
  | .term t =>
    match d.lookup? t with
    | some id => if d.index.occurs place id then some (.id id) else none
    | none => none

def resolveQuad (d : Dataset) (pattern : QuadPattern) : Option (Quad ResolvedSlot) := do
  let subject ← resolveSlot d .subject pattern.subject
  let predicate ← resolveSlot d .predicate pattern.predicate
  let object ← resolveSlot d .object pattern.object
  let graph ← resolveSlot d .graph pattern.graph
  return { subject, predicate, object, graph }

/-- The pattern with all terms looked up, unless one of them cannot be met. -/
def resolve (d : Dataset) (pattern : BasicPattern) : Option ResolvedPattern :=
  pattern.patterns.mapM (resolveQuad d)

end ResolvedPattern

/-- A basic pattern with the rows of one context. -/
structure IndexScan where
  pattern : BasicPattern
  initialized : Bool := false
  /-- The variables of the pattern; those bound further up come first. -/
  attributes : List Variable := []
  order : AttributeOrder := ∅
  /-- Places in the shared order of the attributes that are bound further up. -/
  inherited : List Nat := []
  /-- The pattern with its terms looked up, if it can match at all. -/
  resolved : Option ResolvedPattern := some []
  /-- The values of the inherited attributes that the rows were made for. -/
  context : Option (List (Option TermId)) := none
  /-- All rows of the context. -/
  rows : List Row := []
  /-- The rows not handed out yet. -/
  rest : List Row := []

namespace IndexScan

/-- The variables that the incoming order has, with their places, in the order of the places. -/
def inheritedVars (pattern : BasicPattern) (incoming : AttributeOrder) : List (Variable × Nat) :=
  (pattern.vars.filterMap fun v => (incoming.position? v).map (v, ·)).foldr insertByPlace []
where
  insertByPlace (e : Variable × Nat) : List (Variable × Nat) → List (Variable × Nat)
    | [] => [e]
    | first :: rest =>
      if e.2 ≤ first.2 then e :: first :: rest else first :: insertByPlace e rest

/-- The variables that the incoming order lacks. -/
def freshVars (pattern : BasicPattern) (incoming : AttributeOrder) : List Variable :=
  pattern.vars.filter fun v => (incoming.position? v).isNone

/-- Fixes the order of the attributes and looks the terms of the pattern up. -/
def init (s : IndexScan) (d : Dataset) (incoming : AttributeOrder) :
    AttributeOrder × IndexScan :=
  let inherited := inheritedVars s.pattern incoming
  let fresh := freshVars s.pattern incoming
  let order := incoming.extend fresh
  (order, { s with
    initialized := true
    attributes := inherited.map (·.1) ++ fresh
    order
    inherited := inherited.map (·.2)
    resolved := ResolvedPattern.resolve d s.pattern })

/-- Whether the pattern can match at all. -/
def openTerms (s : IndexScan) : Bool :=
  s.resolved.isSome

/-- The attributes that are bound further up. -/
def inheritedAttributes (s : IndexScan) : List Variable :=
  s.attributes.take s.inherited.length

/-- The rows for given values of the inherited attributes. -/
def rowsFor (s : IndexScan) (d : Dataset) (key : List (Option TermId)) : List Row :=
  match s.resolved with
  | none => []
  | some patterns =>
    let env := (s.attributes.zip key).foldl
      (fun env e => match e.2 with
        | some id => env.insert e.1 id
        | none => env) ∅
    Row.sorted ((patterns.solve d.index env).filterMap fun env => s.attributes.mapM env.get?)

/-- Makes the rows for a context and starts at the first of them. -/
def derive (s : IndexScan) (d : Dataset) (key : List (Option TermId)) : IndexScan :=
  let rows := s.rowsFor d key
  { s with context := some key, rows, rest := rows }

/-- Starts without any context. -/
def «open» (s : IndexScan) (d : Dataset) : Except ScanFault IndexScan :=
  if s.initialized then .ok (s.derive d (s.inherited.map fun _ => none))
  else .error (.openedBeforeInit s.pattern)

/-- Starts at the first row of the current context; says whether there is one. -/
def reset (s : IndexScan) : Bool × IndexScan :=
  (!s.rows.isEmpty, { s with rest := s.rows })

/-- Moves to a context of which only variables at or after the place `firstChanged` of the
shared order differ from the last one; says whether it has rows. -/
def seek (s : IndexScan) (d : Dataset) (context : Binding) (firstChanged : Nat) :
    Except ScanFault (Bool × IndexScan) :=
  if !s.initialized then .error (.soughtBeforeInit s.pattern)
  else if !s.openTerms then .ok (false, s)
  else if s.context.isSome && s.inherited.all (· < firstChanged) then .ok s.reset
  else
    let key := s.inheritedAttributes.map context.get?
    if s.context = some key then .ok s.reset
    else
      let s := s.derive d key
      .ok (!s.rows.isEmpty, s)

/-- There is a row left and nobody has cancelled. -/
def hasNext (s : IndexScan) (cancelled : Bool) : Bool :=
  !cancelled && !s.rest.isEmpty

/-- Hands out the next row. -/
def next? (s : IndexScan) (cancelled : Bool) : Option (Row × IndexScan) :=
  if cancelled then none
  else
    match s.rest with
    | [] => none
    | row :: rest => some (row, { s with rest })

def hasVariable (s : IndexScan) (v : Variable) : Bool :=
  s.pattern.mentions v

end IndexScan

/-- The first place of the order where two bindings differ; without an old binding all places
count as different. -/
def AttributeOrder.firstChanged (order : AttributeOrder) (old : Option Binding) (new : Binding) :
    Nat :=
  match old with
  | none => 0
  | some old => order.vars.findIdx fun v => old.get? v != new.get? v

end QuadQuery
