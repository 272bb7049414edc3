import QuadQuery.Binding

/-!
# Solutions

A solution is a binding with the terms themselves in the place of their numbers. It lists its
variables in ascending order, as the binding does that it was made from.
-/

namespace QuadQuery

/-- One row of variables with their terms. -/
structure Solution where
  entries : List (Variable × Term)
deriving DecidableEq

namespace Solution

/-- Looks the term of every number up; the result is a number without a term if there is one. -/
def ofEntries (table : TermTable) :
    List (Variable × TermId) → Except TermId (List (Variable × Term))
  | [] => .ok []
  | (v, id) :: rest =>
    match table.term? id with
    | none => .error id
    | some term => (ofEntries table rest).map ((v, term) :: ·)

/-- The solution that a binding stands for, or a number in it that no term has. -/
def ofBinding (table : TermTable) (b : Binding) : Except TermId Solution :=
  (ofEntries table b.entries).map Solution.mk

/-- The term of `v`. -/
def get? (s : Solution) (v : Variable) : Option Term :=
  (s.entries.find? fun e => e.1 == v).map (·.2)

def contains (s : Solution) (v : Variable) : Bool :=
  (s.get? v).isSome

def size (s : Solution) : Nat :=
  s.entries.length

def isEmpty (s : Solution) : Bool :=
  s.entries.isEmpty

def vars (s : Solution) : List Variable :=
  s.entries.map (·.1)

/-- Entries in braces, in the order of the variables. -/
def text (s : Solution) : String :=
  "\x7b" ++ ", ".intercalate (s.entries.map fun e => e.1.text ++ "=" ++ e.2.text) ++ "\x7d"

end Solution

end QuadQuery
