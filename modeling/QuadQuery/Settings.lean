import QuadQuery.Failure

/-!
# Settings

What can be chosen about how queries run.
-/

namespace QuadQuery

/-- The name that the program is called by. Its settings file and the variables of the environment
that it looks at are named after it. -/
def programName : String := "leapjoin"

/-- The choices, with their default values. -/
structure Settings where
  /-- How many rows of an optional child are kept for an own row. -/
  capacity : Nat := 1000
  reorder : Reorder := .boundFirst
  /-- What is to be logged. -/
  logFilter : String := "info"
deriving DecidableEq

namespace Settings

/-- Settings are refused if no row could be kept. -/
def validated (s : Settings) : Except Failure Settings :=
  if s.capacity = 0 then .error (.settings .zeroCapacity) else .ok s

def withCapacity (s : Settings) (capacity : Nat) : Except Failure Settings :=
  validated { s with capacity }

def withReorder (s : Settings) (reorder : Reorder) : Settings :=
  { s with reorder }

end Settings

namespace Reorder

/-- The word for a way of ordering patterns. -/
def name : Reorder → String
  | .asWritten => "none"
  | .boundFirst => "bound-first"

def all : List Reorder := [.asWritten, .boundFirst]

end Reorder

end QuadQuery
