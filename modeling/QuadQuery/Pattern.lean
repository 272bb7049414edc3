import QuadQuery.Quad
import QuadQuery.Term
import QuadQuery.Variable

/-!
# Patterns

A slot holds a term or a variable, a quad pattern has four slots, and a basic pattern is a
list of quad patterns that are to match together.
-/

namespace QuadQuery

/-- A term that must be met, or a variable that takes what it meets. -/
inductive Slot where
  | term (t : Term)
  | var (v : Variable)
deriving DecidableEq

namespace Slot

def isVar : Slot → Bool
  | .term _ => false
  | .var _ => true

/-- The variable in the slot. -/
def var? : Slot → Option Variable
  | .term _ => none
  | .var v => some v

def text : Slot → String
  | .term t => t.text
  | .var v => v.text

end Slot

/-- A quad of slots. -/
abbrev QuadPattern := Quad Slot

namespace QuadPattern

/-- A pattern over the default graph. -/
def triple (s p o : Slot) : QuadPattern :=
  ⟨s, p, o, .term Term.defaultGraph⟩

/-- The pattern with its graph slot replaced. -/
def inGraph (pattern : QuadPattern) (graph : Slot) : QuadPattern :=
  { pattern with graph }

def variableCount (pattern : QuadPattern) : Nat :=
  pattern.toList.countP Slot.isVar

/-- The variables in the order of the places, with repetitions. -/
def vars (pattern : QuadPattern) : List Variable :=
  pattern.toList.filterMap Slot.var?

/-- The slots in parentheses; the graph comes first and is left out if it is the default one. -/
def text (pattern : QuadPattern) : String :=
  let body := pattern.subject.text ++ " " ++ pattern.predicate.text ++ " " ++ pattern.object.text
  if pattern.graph = .term Term.defaultGraph then "(" ++ body ++ ")"
  else "(" ++ pattern.graph.text ++ " " ++ body ++ ")"

end QuadPattern

/-- Quad patterns that are to match together. -/
structure BasicPattern where
  patterns : List QuadPattern
deriving DecidableEq

namespace BasicPattern

def size (b : BasicPattern) : Nat :=
  b.patterns.length

def isEmpty (b : BasicPattern) : Bool :=
  b.patterns.isEmpty

/-- The variables in the order of their first appearance. -/
def vars (b : BasicPattern) : List Variable :=
  Variable.firstAppearances (b.patterns.flatMap QuadPattern.vars)

/-- Some slot holds the variable. -/
def mentions (b : BasicPattern) (v : Variable) : Bool :=
  b.patterns.any fun p => p.vars.contains v

/-- Every pattern moved to the graph. -/
def inGraph (b : BasicPattern) (graph : Slot) : BasicPattern :=
  ⟨b.patterns.map (·.inGraph graph)⟩

def text (b : BasicPattern) : String :=
  " ".intercalate (b.patterns.map QuadPattern.text)

end BasicPattern

/-! ## The order in which patterns are matched -/

/-- How the patterns of a basic pattern are ordered before they are matched. -/
inductive Reorder where
  | asWritten
  | boundFirst
deriving DecidableEq

namespace Reorder

/-- Puts a pattern in front of the first that has more variables or as many. -/
def insertByCount (p : QuadPattern) : List QuadPattern → List QuadPattern
  | [] => [p]
  | q :: rest =>
    if p.variableCount ≤ q.variableCount then p :: q :: rest
    else q :: insertByCount p rest

/-- Sorts by the number of variables; patterns with as many keep their order. -/
def sortByCount (patterns : List QuadPattern) : List QuadPattern :=
  patterns.foldr insertByCount []

/-- Leaves the patterns as written, or moves those with fewer variables to the front. -/
def apply : Reorder → BasicPattern → BasicPattern
  | .asWritten, b => b
  | .boundFirst, b => ⟨sortByCount b.patterns⟩

end Reorder

end QuadQuery
