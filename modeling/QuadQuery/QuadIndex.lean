import QuadQuery.Quad
import QuadQuery.TermTable

/-!
# The quad index

The index keeps the same quads in four arrangements. Each arrangement is sorted by a
permutation of the places, so that for every choice of bound places the quads that agree with
it can be cut out of an arrangement whose leading places are bound. Besides it knows which
numbers occur at each place.
-/

namespace QuadQuery

/-- A choice of values for some places of a quad. -/
abbrev Bound := Quad (Option TermId)

namespace Bound

/-- The quad has the chosen value at every place where there is one. -/
def admits (bound : Bound) (q : Quad TermId) : Bool :=
  (bound.zip q).toList.all fun e => e.1.all (· == e.2)

end Bound

/-- Quads in ascending order of their values, read in the order of `places`. -/
structure Arrangement where
  places : List Place
  quads : List (Quad TermId)

namespace Arrangement

/-- The values of a quad in the order of the arrangement. -/
def key (a : Arrangement) (q : Quad TermId) : List TermId :=
  a.places.map q.get

/-- Puts `q` in its place unless it is there already, and says whether it was new. -/
def insertSorted (key : Quad TermId → List TermId) (q : Quad TermId) :
    List (Quad TermId) → Bool × List (Quad TermId)
  | [] => (true, [q])
  | r :: rest =>
    if key q < key r then (true, q :: r :: rest)
    else if key r < key q then
      let (new, rest) := insertSorted key q rest
      (new, r :: rest)
    else (false, r :: rest)

def insert (a : Arrangement) (q : Quad TermId) : Bool × Arrangement :=
  let (new, quads) := insertSorted a.key q a.quads
  (new, { a with quads })

/-- The values chosen for the leading places, up to the first place without one. -/
def boundLead (a : Arrangement) (bound : Bound) : List TermId :=
  (a.places.map bound.get).takeWhile Option.isSome |>.filterMap id

/-- The stretch of quads whose keys begin with `lead`. -/
def stretch (a : Arrangement) (lead : List TermId) : List (Quad TermId) :=
  let start (q : Quad TermId) : List TermId := (a.key q).take lead.length
  (a.quads.dropWhile fun q => start q < lead).takeWhile fun q => start q == lead

/-- The quads that agree with `bound`, in the order of the arrangement. -/
def find (a : Arrangement) (bound : Bound) : List (Quad TermId) :=
  (a.stretch (a.boundLead bound)).filter bound.admits

end Arrangement

/-- Quads in four arrangements, and the numbers that occur at each place. -/
structure QuadIndex where
  bySubject : Arrangement
  byPredicate : Arrangement
  byObject : Arrangement
  byGraph : Arrangement
  members : Quad (List TermId)

namespace QuadIndex

/-- The index without quads. -/
def empty : QuadIndex where
  bySubject := ⟨[.subject, .predicate, .object, .graph], []⟩
  byPredicate := ⟨[.predicate, .object, .subject, .graph], []⟩
  byObject := ⟨[.object, .subject, .predicate, .graph], []⟩
  byGraph := ⟨[.graph, .subject, .predicate, .object], []⟩
  members := ⟨[], [], [], []⟩

instance : EmptyCollection QuadIndex := ⟨empty⟩

/-- Adds a number to the numbers seen at a place. -/
def addMember (ids : List TermId) (id : TermId) : List TermId :=
  if ids.contains id then ids else id :: ids

/-- Adds a quad to every arrangement, and says whether it was new to one of them. -/
def insert (index : QuadIndex) (q : Quad TermId) : Bool × QuadIndex :=
  let (newS, bySubject) := index.bySubject.insert q
  let (newP, byPredicate) := index.byPredicate.insert q
  let (newO, byObject) := index.byObject.insert q
  let (newG, byGraph) := index.byGraph.insert q
  let members := (index.members.zip q).map fun e => addMember e.1 e.2
  (newS || newP || newO || newG, { bySubject, byPredicate, byObject, byGraph, members })

/-- Some quad has the number `id` at the place. -/
def occurs (index : QuadIndex) (place : Place) (id : TermId) : Bool :=
  (index.members.get place).contains id

/-- The arrangement with the longest bound lead, the first of them if several are as long. -/
def choose (index : QuadIndex) (bound : Bound) : Arrangement :=
  [index.byPredicate, index.byObject, index.byGraph].foldl
    (fun best a => if (best.boundLead bound).length < (a.boundLead bound).length then a else best)
    index.bySubject

/-- The quads that agree with `bound`, in the order of the chosen arrangement. -/
def find (index : QuadIndex) (bound : Bound) : List (Quad TermId) :=
  (index.choose bound).find bound

def size (index : QuadIndex) : Nat :=
  index.bySubject.quads.length

def isEmpty (index : QuadIndex) : Bool :=
  index.size == 0

end QuadIndex

end QuadQuery
