import QuadQuery.Term

/-!
# Interned terms

A term table numbers the terms it has seen, in the order of their first appearance. The
default graph has the number 0 from the start. Equal decimals share a number and are kept in
the form in which they came first.
-/

namespace QuadQuery

/-- The number of an interned term. -/
abbrev TermId := Nat

/-- How a term number is written in bindings and messages. -/
def TermId.text (id : TermId) : String :=
  "#" ++ toString id

/-- The terms seen so far; a term's number is its place. -/
structure TermTable where
  terms : List Term

namespace TermTable

/-- The table that knows only the default graph. -/
def empty : TermTable :=
  ⟨[Term.defaultGraph]⟩

instance : EmptyCollection TermTable := ⟨empty⟩

def defaultGraph : TermId := 0

/-- The number of `term`, if it was interned. -/
def id? (table : TermTable) (term : Term) : Option TermId :=
  table.terms.findIdx? (·.same term)

/-- The term with the number `id`. -/
def term? (table : TermTable) (id : TermId) : Option Term :=
  table.terms[id]?

def size (table : TermTable) : Nat :=
  table.terms.length

def isEmpty (table : TermTable) : Bool :=
  table.terms.isEmpty

/-- The number of `term`, a new one if the term was not seen before. -/
def intern (table : TermTable) (term : Term) : TermId × TermTable :=
  match table.id? term with
  | some id => (id, table)
  | none => (table.size, ⟨table.terms ++ [term]⟩)

end TermTable

end QuadQuery
