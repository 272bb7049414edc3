/-!
# Quads

A quad has four places. `Quad α` serves for quads of term numbers, of terms, of pattern slots
and of optional values alike.
-/

namespace QuadQuery

/-- The places of a quad. -/
inductive Place where
  | subject
  | predicate
  | object
  | graph
deriving DecidableEq

/-- Four values, one for each place. -/
structure Quad (α : Type) where
  subject : α
  predicate : α
  object : α
  graph : α
deriving DecidableEq

namespace Quad

variable {α β : Type}

/-- The value at a place. -/
def get (q : Quad α) : Place → α
  | .subject => q.subject
  | .predicate => q.predicate
  | .object => q.object
  | .graph => q.graph

/-- The quad with another value at a place. -/
def set (q : Quad α) (value : α) : Place → Quad α
  | .subject => { q with subject := value }
  | .predicate => { q with predicate := value }
  | .object => { q with object := value }
  | .graph => { q with graph := value }

def map (f : α → β) (q : Quad α) : Quad β :=
  ⟨f q.subject, f q.predicate, f q.object, f q.graph⟩

/-- The values in the order of the places. -/
def toList (q : Quad α) : List α :=
  [q.subject, q.predicate, q.object, q.graph]

/-- The quad of four values. -/
def ofList? : List α → Option (Quad α)
  | [s, p, o, g] => some ⟨s, p, o, g⟩
  | _ => none

/-- The values of two quads side by side. -/
def zip (q : Quad α) (r : Quad β) : Quad (α × β) :=
  ⟨(q.subject, r.subject), (q.predicate, r.predicate), (q.object, r.object), (q.graph, r.graph)⟩

@[simp]
theorem get_map (f : α → β) (q : Quad α) (p : Place) : (q.map f).get p = f (q.get p) := by
  cases p <;> rfl

/-- Quads with the same value at every place are equal. -/
theorem ext_get {q r : Quad α} (h : ∀ p, q.get p = r.get p) : q = r := by
  cases q; cases r
  congr
  · exact h .subject
  · exact h .predicate
  · exact h .object
  · exact h .graph

end Quad

end QuadQuery
