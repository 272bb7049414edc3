import QuadQuery.Grammar.Meaning

/-!
# Reading texts

A query or a list of statements is read from a whole text, or the text is refused with the
cause and the line and column where it was found.
-/

namespace QuadQuery.Grammar

/-- A place in a text; lines and columns are counted from one. -/
structure Location where
  line : Nat
  column : Nat
deriving DecidableEq

/-- The place behind the first `offset` characters of a text. -/
def Location.ofOffset (text : List Char) (offset : Nat) : Location :=
  let before := text.take offset
  ⟨before.count '\n' + 1, (before.reverse.takeWhile (· != '\n')).length + 1⟩

/-- Why and where a text was refused. -/
structure Refusal where
  cause : Cause
  location : Location
deriving DecidableEq

/-- Reads a whole text; a text that does not follow the grammar is refused where the trace says
that it went furthest. -/
def recognize {α : Type} (p : Recognizer α) (text : List Char) : Except Flaw α :=
  let reading := p ⟨0, text⟩
  match reading.result with
  | some (a, _) => .ok a
  | none =>
    let trace := reading.effect {}
    .error ⟨.expected trace.expected, trace.position⟩

/-- Places a flaw in the text. -/
def located {α : Type} (text : List Char) : Except Flaw α → Except Refusal α
  | .ok a => .ok a
  | .error flaw => .error ⟨flaw.cause, .ofOffset text flaw.offset⟩

end QuadQuery.Grammar

namespace QuadQuery

open Grammar

/-- The query that a text writes. -/
def Algebra.ofChars (text : List Char) : Except Refusal Algebra :=
  located text ((recognize Recognizer.algebra text).bind AlgebraTree.meaning)

@[inherit_doc Algebra.ofChars]
def Algebra.ofText (text : String) : Except Refusal Algebra :=
  Algebra.ofChars text.toList

/-- The statements that a text writes. -/
def Statement.ofChars (text : List Char) : Except Refusal (List Statement) :=
  located text ((recognize Recognizer.statements text).bind fun trees =>
    trees.mapM StatementTree.meaning)

@[inherit_doc Statement.ofChars]
def Statement.ofText (text : String) : Except Refusal (List Statement) :=
  Statement.ofChars text.toList

namespace Dataset

/-- Adds the statements of a text; says how many quads were new. Nothing is added if the text
is refused. -/
def load (d : Dataset) (text : String) : Except Refusal (Nat × Dataset) :=
  (Statement.ofText text).map d.addAll

end Dataset

end QuadQuery
