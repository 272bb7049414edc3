import QuadQuery.Grammar.Rule

/-!
# Recognizers

A recognizer reads from a position of a text and either yields a value and the position behind
it, or fails. Alternatives are ordered: the first that succeeds is taken.

Besides, it keeps a trace for the error message: the furthest position at which a rule was
tried in vain, and the rules tried there. The trace has no influence on what is recognized, so
a reading consists of the result and, apart from it, the effect on the trace.
-/

namespace QuadQuery.Grammar

/-- The furthest position at which rules failed, with these rules in the order of failing. -/
structure Trace where
  position : Nat := 0
  expected : List Rule := []

namespace Trace

/-- How many rules have failed at `position`, as far as the trace remembers it. -/
def countAt (t : Trace) (position : Nat) : Nat :=
  if position = t.position then t.expected.length else 0

/-- A rule that was tried at `start`, where `before` rules had failed, has failed. If exactly
one rule has failed there since, that one tells more and is kept. Otherwise the rule takes the
place of those that failed there since. -/
def recordFailure (t : Trace) (rule : Rule) (start before : Nat) : Trace :=
  if t.countAt start = before + 1 then t
  else if start = t.position then { t with expected := t.expected.take before ++ [rule] }
  else if t.position < start then ⟨start, [rule]⟩
  else t

end Trace

/-- A position in a text: the number of characters before it and the characters after it. -/
structure Cursor where
  offset : Nat
  rest : List Char

namespace Cursor

/-- The cursor `count` characters further on. -/
def advance (c : Cursor) (count : Nat) : Cursor :=
  ⟨c.offset + count, c.rest.drop count⟩

end Cursor

/-- What came of reading: a value and the cursor behind it, or nothing; and the effect on the
trace. -/
structure Reading (α : Type) where
  result : Option (α × Cursor)
  effect : Trace → Trace

/-- A way to read a value from a cursor. -/
def Recognizer (α : Type) : Type := Cursor → Reading α

namespace Recognizer

variable {α β : Type}

/-- Reads nothing and yields `a`. -/
def succeed (a : α) : Recognizer α :=
  fun c => ⟨some (a, c), id⟩

def fail : Recognizer α :=
  fun _ => ⟨none, id⟩

/-- Reads with `p`, and where it ends with what `f` makes of its value. -/
def andThen (p : Recognizer α) (f : α → Recognizer β) : Recognizer β :=
  fun c =>
    let first := p c
    match first.result with
    | none => ⟨none, first.effect⟩
    | some (a, c) =>
      let second := f a c
      ⟨second.result, fun t => second.effect (first.effect t)⟩

instance : Monad Recognizer where
  pure := succeed
  bind := andThen

/-- Reads with `p`, or with `q` from the same place if `p` fails. -/
def orElse (p : Recognizer α) (q : Recognizer α) : Recognizer α :=
  fun c =>
    let first := p c
    match first.result with
    | some _ => first
    | none =>
      let second := q c
      ⟨second.result, fun t => second.effect (first.effect t)⟩

/-- The first of several recognizers that succeeds. -/
def firstOf : List (Recognizer α) → Recognizer α
  | [] => fail
  | p :: rest => p.orElse (firstOf rest)

/-- The number of characters before the cursor. -/
def offset : Recognizer Nat :=
  fun c => ⟨some (c.offset, c), id⟩

/-- Reads as the rule says and keeps track of its failure. -/
def tracked (rule : Rule) (p : Recognizer α) : Recognizer α :=
  fun c =>
    let reading := p c
    ⟨reading.result, fun t =>
      let after := reading.effect t
      if reading.result.isSome then after
      else after.recordFailure rule c.offset (t.countAt c.offset)⟩

/-- Reads what `scan` takes from the front of the text. -/
def scanned (scan : List Char → Option (List Char × List Char)) : Recognizer (List Char) :=
  fun c =>
    match scan c.rest with
    | none => ⟨none, id⟩
    | some (taken, rest) => ⟨some (taken, ⟨c.offset + taken.length, rest⟩), id⟩

/-- Reads a fixed text. -/
def exactly (text : List Char) : Recognizer Unit :=
  fun c =>
    if text.isPrefixOf c.rest then ⟨some ((), c.advance text.length), id⟩ else ⟨none, id⟩

/-! ## Blanks and comments -/

/-- The blanks of the syntax. -/
def isLayoutBlank (c : Char) : Bool :=
  c == ' ' || c == '\t' || c == '\r' || c == '\n'

/-- How many characters at the front are blanks or belong to comments, which reach from a
number sign to the end of the line; `inside` tells that a comment has begun. -/
def layoutLength (inside : Bool) : List Char → Nat
  | [] => 0
  | c :: rest =>
    if inside then layoutLength (c != '\n') rest + 1
    else if isLayoutBlank c then layoutLength false rest + 1
    else if c == '#' then layoutLength true rest + 1
    else 0

/-- Skips blanks and comments. -/
def layout : Recognizer Unit :=
  fun c => ⟨some ((), c.advance (layoutLength false c.rest)), id⟩

/-- Reads with `p` and skips the blanks after it. -/
def spaced (p : Recognizer α) : Recognizer α := do
  let a ← p
  layout
  return a

/-- A fixed text with the blanks after it. -/
def symbol (text : List Char) : Recognizer Unit :=
  spaced (exactly text)

/-- Reads as often as `p` succeeds, at most `bound` times, skipping the blanks in between. -/
def repeated (p : Recognizer α) : Nat → Recognizer (List α)
  | 0 => succeed []
  | bound + 1 => fun c =>
    let first := spaced p c
    match first.result with
    | none => ⟨some ([], c), first.effect⟩
    | some (a, c) =>
      let others := repeated p bound c
      ⟨others.result.map fun (as, c) => (a :: as, c), fun t => others.effect (first.effect t)⟩

/-- Reads as often as `p` succeeds. A recognizer that takes up characters succeeds no more
often than there are characters. -/
def many (p : Recognizer α) : Recognizer (List α) :=
  fun c => repeated p (c.rest.length + 1) c

/-- Reads with `p` if it succeeds. -/
def optional (p : Recognizer α) : Recognizer (Option α) :=
  orElse (do return some (← p)) (succeed none)

/-- The end of the text. -/
def endOfText : Recognizer Unit :=
  tracked .endOfText fun c => if c.rest.isEmpty then ⟨some ((), c), id⟩ else ⟨none, id⟩

/-- A recognizer that may call itself inside brackets: `p n` reads what is nested less than `n`
deep, and no text is nested deeper than it is long. -/
def nested (p : Nat → Recognizer α) : Recognizer α :=
  fun c => p (c.rest.length + 1) c

end Recognizer

end QuadQuery.Grammar
