import QuadQuery.AttributeOrder
import QuadQuery.Failure
import QuadQuery.Scan.Index

/-!
# Scans of rows given in advance

A fixed scan hands out the same rows whatever the context. It may be told to refuse to open or
to seek, or to say that it can never match.
-/

namespace QuadQuery

/-- Rows over some variables, known in advance. -/
structure FixedScan where
  vars : List Variable
  rows : List Row
  openTerms : Bool := true
  openRefusal : Option String := none
  seekRefusal : Option String := none
  order : AttributeOrder := ∅
  /-- The rows not handed out yet. -/
  rest : List Row := rows

namespace FixedScan

def init (s : FixedScan) (incoming : AttributeOrder) : AttributeOrder × FixedScan :=
  let order := incoming.extend s.vars
  (order, { s with order })

/-- Starts at the first row. -/
def rewind (s : FixedScan) : FixedScan :=
  { s with rest := s.rows }

def reset (s : FixedScan) : Bool × FixedScan :=
  (!s.rows.isEmpty, s.rewind)

/-- Starts at the first row, or refuses. -/
def «open» (s : FixedScan) : Except ScanFault Unit × FixedScan :=
  match s.openRefusal with
  | some reason => (.error (.refused reason), s.rewind)
  | none => (.ok (), s.rewind)

/-- Starts at the first row whatever the context, or refuses; says whether there is a row. -/
def seek (s : FixedScan) : Except ScanFault Bool × FixedScan :=
  match s.seekRefusal with
  | some reason => (.error (.refused reason), s.rewind)
  | none => (.ok !s.rows.isEmpty, s.rewind)

/-- Hands out the next row. -/
def next? (s : FixedScan) : Option (Row × FixedScan) :=
  match s.rest with
  | [] => none
  | row :: rest => some (row, { s with rest })

def hasVariable (s : FixedScan) (v : Variable) : Bool :=
  s.vars.contains v

end FixedScan

end QuadQuery
