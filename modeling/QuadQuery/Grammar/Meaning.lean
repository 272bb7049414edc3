import QuadQuery.Algebra
import QuadQuery.Dataset
import QuadQuery.Grammar.Tree

/-!
# What syntax trees mean

Not every tree has a meaning: a date may not be in the calendar, a number may be too large, a
call may have the wrong arguments. The first flaw is reported, in the order of the text,
except that a flaw of a call itself comes after those of its arguments.
-/

namespace QuadQuery.Grammar

/-- Why a text was not read. -/
inductive Cause where
  /-- The text does not follow the grammar; these rules would have allowed it to go on. -/
  | expected (rules : List Rule)
  | invalidDate (word : List Char)
  | invalidDecimal (word : List Char)
  | invalidInteger (word : List Char) (fault : IntegerFault)
  | wrongArity (f : Function) (wanted found : Nat)
  | tooFewOperands (f : Function)
  | boundWithoutVariable
  | regexWithoutPattern
  | invalidRegex
deriving DecidableEq

namespace Cause

def message : Cause → String
  | .expected rules => "expected " ++ Rule.enumerate (Rule.all.filter rules.contains)
  | .invalidDate word => "invalid date " ++ String.ofList word
  | .invalidDecimal word => "invalid decimal " ++ String.ofList word
  | .invalidInteger word fault => "invalid integer " ++ String.ofList word ++ ": " ++ fault.message
  | .wrongArity f wanted found =>
    f.name ++ " takes " ++ toString wanted ++ " argument(s), found " ++ toString found
  | .tooFewOperands f => f.name ++ " takes at least two operands"
  | .boundWithoutVariable => "bound takes a variable"
  | .regexWithoutPattern => "regex takes an operand and a string pattern"
  | .invalidRegex => "invalid regex"

end Cause

/-- A cause and the position that it is found at. -/
structure Flaw where
  cause : Cause
  offset : Nat
deriving DecidableEq

namespace TermTree

/-- The word without its first and its last character. -/
def inside (word : List Char) : String :=
  String.ofList (word.drop 1).dropLast

/-- The term that a word stands for. -/
def meaning (t : TermTree) : Except Flaw Term :=
  match t.kind with
  | .iri => .ok (.iri (inside t.word))
  | .blank => .ok (.blank (String.ofList (t.word.drop 2)))
  | .string => .ok (.str (inside t.word))
  | .date =>
    match Date.ofText? (inside t.word) with
    | some d => .ok (.date d)
    | none => .error ⟨.invalidDate t.word, t.offset⟩
  | .decimal =>
    match Decimal.ofChars? t.word with
    | some d => .ok (.decimal d)
    | none => .error ⟨.invalidDecimal t.word, t.offset⟩
  | .integer =>
    match Term.integerOfChars t.word with
    | .ok term => .ok term
    | .error fault => .error ⟨.invalidInteger t.word fault, t.offset⟩

end TermTree

namespace SlotTree

/-- The slot that a tree stands for. -/
def meaning : SlotTree → Except Flaw Slot
  | .var word => .ok (.var (Variable.ofText (String.ofList word)))
  | .term t => t.meaning.map .term

end SlotTree

namespace TripleTree

/-- The pattern over the default graph that a tree stands for. -/
def meaning (t : TripleTree) : Except Flaw QuadPattern := do
  let s ← t.subject.meaning
  let p ← t.predicate.meaning
  let o ← t.object.meaning
  return QuadPattern.triple s p o

/-- The basic pattern of some triples. -/
def meanings (triples : List TripleTree) : Except Flaw BasicPattern :=
  (triples.mapM meaning).map .mk

end TripleTree

namespace Function

/-- The call of a function with arguments, if they fit. -/
def call (f : Function) (args : List Expr) : Except Cause Expr :=
  match f, args with
  | .compare c, [l, r] => .ok (.compare c l r)
  | .compare c, args => .error (.wrongArity (.compare c) 2 args.length)
  | .bound, [.var v] => .ok (.bound v)
  | .bound, [_] => .error .boundWithoutVariable
  | .bound, args => .error (.wrongArity .bound 1 args.length)
  | .not, [e] => .ok (.not e)
  | .not, args => .error (.wrongArity .not 1 args.length)
  | .regex, [e, .const (.str source)] =>
    match Regex.ofText? source with
    | some pattern => .ok (.regex e pattern)
    | none => .error .invalidRegex
  | .regex, [_, _] => .error .regexWithoutPattern
  | .regex, args => .error (.wrongArity .regex 2 args.length)
  | .and, e :: e' :: others => .ok (others.foldl .and (.and e e'))
  | .and, _ => .error (.tooFewOperands .and)
  | .or, e :: e' :: others => .ok (others.foldl .or (.or e e'))
  | .or, _ => .error (.tooFewOperands .or)

end Function

namespace ExprTree

mutual

/-- The expression that a tree stands for. -/
def meaning : ExprTree → Except Flaw Expr
  | .slot s =>
    match s.meaning with
    | .ok (.var v) => .ok (.var v)
    | .ok (.term t) => .ok (.const t)
    | .error flaw => .error flaw
  | .call offset f args =>
    match meanings args with
    | .ok args =>
      match f.call args with
      | .ok e => .ok e
      | .error cause => .error ⟨cause, offset⟩
    | .error flaw => .error flaw

/-- The expressions that some trees stand for. -/
def meanings : List ExprTree → Except Flaw (List Expr)
  | [] => .ok []
  | t :: rest => do
    let e ← t.meaning
    let es ← meanings rest
    return e :: es

end

end ExprTree

namespace AlgebraTree

mutual

/-- The query that a tree stands for. -/
def meaning : AlgebraTree → Except Flaw Algebra
  | .bgp triples => do
    return .bgp (← TripleTree.meanings triples)
  | .quadPattern graph triples => do
    let graph ← graph.meaning
    return .quadPattern graph (← TripleTree.meanings triples)
  | .leftJoin left right exprs => do
    let left ← left.meaning
    let right ← right.meaning
    return .leftJoin left right (← ExprTree.meanings exprs)
  | .conditional left right => do
    let left ← left.meaning
    return .conditional left (← right.meaning)
  | .filter exprs sub => do
    let exprs ← ExprTree.meanings exprs
    return .filter exprs (← sub.meaning)
  | .join left right => do
    let left ← left.meaning
    return .join left (← right.meaning)
  | .union left right => do
    let left ← left.meaning
    return .union left (← right.meaning)
  | .sequence parts => do
    return .sequence (← meanings parts)
  | .project vars sub => do
    return .project (vars.map fun word => Variable.ofText (String.ofList word)) (← sub.meaning)
  | .distinct sub => do
    return .distinct (← sub.meaning)

/-- The queries that some trees stand for. -/
def meanings : List AlgebraTree → Except Flaw (List Algebra)
  | [] => .ok []
  | t :: rest => do
    let a ← t.meaning
    let as ← meanings rest
    return a :: as

end

end AlgebraTree

namespace StatementTree

/-- The statement that a tree stands for. -/
def meaning (t : StatementTree) : Except Flaw Statement := do
  let subject ← t.subject.meaning
  let predicate ← t.predicate.meaning
  let object ← t.object.meaning
  let graph ← match t.graph with
    | some graph => graph.meaning.map some
    | none => pure none
  return { subject, predicate, object, graph }

end StatementTree

end QuadQuery.Grammar
