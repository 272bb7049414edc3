import QuadQuery.QuadIndex

/-!
# Datasets

A dataset is a term table with an index of quads of its numbers.
-/

namespace QuadQuery

/-- Three terms and the graph they stand in, if one is named. -/
structure Statement where
  subject : Term
  predicate : Term
  object : Term
  graph : Option Term
deriving DecidableEq

/-- The terms seen so far and the quads over them. -/
structure Dataset where
  terms : TermTable
  index : QuadIndex

namespace Dataset

/-- The dataset without quads; it knows the default graph alone. -/
def empty : Dataset :=
  ⟨∅, ∅⟩

instance : EmptyCollection Dataset := ⟨empty⟩

/-- Interns the terms in the order subject, predicate, object, graph and adds the quad; says
whether it was new. A statement that names no graph belongs to the default graph. -/
def add (d : Dataset) (st : Statement) : Bool × Dataset :=
  let (s, terms) := d.terms.intern st.subject
  let (p, terms) := terms.intern st.predicate
  let (o, terms) := terms.intern st.object
  let (g, terms) := match st.graph with
    | some graph => terms.intern graph
    | none => (TermTable.defaultGraph, terms)
  let (new, index) := d.index.insert ⟨s, p, o, g⟩
  (new, ⟨terms, index⟩)

/-- Adds the statements in turn; says how many were new. -/
def addAll (d : Dataset) : List Statement → Nat × Dataset
  | [] => (0, d)
  | st :: rest =>
    let (new, d) := d.add st
    let (count, d) := d.addAll rest
    (if new then count + 1 else count, d)

def lookup? (d : Dataset) (term : Term) : Option TermId :=
  d.terms.id? term

def term? (d : Dataset) (id : TermId) : Option Term :=
  d.terms.term? id

/-- The number of quads. -/
def size (d : Dataset) : Nat :=
  d.index.size

def isEmpty (d : Dataset) : Bool :=
  d.index.isEmpty

end Dataset

end QuadQuery
