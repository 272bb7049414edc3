import QuadQuery.Grammar.Token
import QuadQuery.Expr

/-!
# Syntax trees

What the grammar recognizes before any of it is given a meaning: the words of terms and
variables as they are written, with the positions that an error would have to name.
-/

namespace QuadQuery.Grammar

/-- The kinds of words for terms. -/
inductive TermKind where
  | iri
  | blank
  | string
  | date
  | decimal
  | integer
deriving DecidableEq

/-- A word for a term and the position where it starts. -/
structure TermTree where
  kind : TermKind
  word : List Char
  offset : Nat

/-- A variable or a term. -/
inductive SlotTree where
  | var (word : List Char)
  | term (t : TermTree)

/-- Three slots in parentheses. -/
structure TripleTree where
  subject : SlotTree
  predicate : SlotTree
  object : SlotTree

/-- What stands at the head of a call. -/
inductive Function where
  | bound
  | regex
  | not
  | and
  | or
  | compare (c : Comparison)
deriving DecidableEq

namespace Function

def name : Function → String
  | .bound => "bound"
  | .regex => "regex"
  | .not => "!"
  | .and => "&&"
  | .or => "||"
  | .compare c => c.symbol

/-- The function that a word stands for. -/
def ofWord? (word : List Char) : Option Function :=
  match String.ofList word with
  | "bound" => some .bound
  | "regex" => some .regex
  | "&&" => some .and
  | "||" => some .or
  | "!=" => some (.compare .ne)
  | "!" => some .not
  | "<=" => some (.compare .le)
  | ">=" => some (.compare .ge)
  | "<" => some (.compare .lt)
  | ">" => some (.compare .gt)
  | "=" => some (.compare .eq)
  | _ => none

theorem ofWord?_name (f : Function) : ofWord? f.name.toList = some f := by
  cases f with
  | compare c => cases c <;> rfl
  | bound | regex | and | or | not => rfl

end Function

/-- An expression: a slot, or a call with the position of its opening parenthesis. -/
inductive ExprTree where
  | slot (s : SlotTree)
  | call (offset : Nat) (f : Function) (args : List ExprTree)

/-- An operator with its operands. -/
inductive AlgebraTree where
  | bgp (triples : List TripleTree)
  | quadPattern (graph : SlotTree) (triples : List TripleTree)
  | leftJoin (left right : AlgebraTree) (exprs : List ExprTree)
  | conditional (left right : AlgebraTree)
  | filter (exprs : List ExprTree) (sub : AlgebraTree)
  | join (left right : AlgebraTree)
  | union (left right : AlgebraTree)
  | sequence (parts : List AlgebraTree)
  | project (vars : List (List Char)) (sub : AlgebraTree)
  | distinct (sub : AlgebraTree)

/-- Three terms, a fourth one for the graph if there is one, and a full stop. -/
structure StatementTree where
  subject : TermTree
  predicate : TermTree
  object : TermTree
  graph : Option TermTree

namespace Recognizer

/-! ## Terms and slots -/

def termWord (rule : Rule) (kind : TermKind) (scan : Token.Scan) : Recognizer TermTree :=
  tracked rule do
    let start ← offset
    let word ← scanned scan
    return ⟨kind, word, start⟩

def term : Recognizer TermTree :=
  tracked .term (firstOf [
    termWord .iri .iri Token.iri,
    termWord .blank .blank Token.blank,
    termWord .string .string Token.string,
    termWord .date .date Token.date,
    termWord .decimal .decimal Token.decimal,
    termWord .integer .integer Token.integer])

def var : Recognizer (List Char) :=
  tracked .var (scanned Token.var)

def slot : Recognizer SlotTree :=
  tracked .slot (firstOf [do return .var (← var), do return .term (← term)])

/-! ## Expressions -/

def opening : Recognizer Unit :=
  symbol ['(']

def closing : Recognizer Unit :=
  exactly [')']

/-- Every word that is taken here is the name of a function. -/
def function : Recognizer Function :=
  tracked .function do
    match Function.ofWord? (← scanned Token.function) with
    | some f => return f
    | none => fail

/-- Expressions whose calls are nested less than the given number deep. -/
def exprWithin : Nat → Recognizer ExprTree
  | 0 => fail
  | depth + 1 =>
    let call : Recognizer ExprTree := tracked .call do
      let start ← offset
      opening
      let f ← spaced function
      let args ← many (exprWithin depth)
      layout
      closing
      return .call start f args
    tracked .expr (firstOf [call, do return .slot (← slot)])

def expr : Recognizer ExprTree :=
  nested exprWithin

def exprs : Recognizer (List ExprTree) :=
  tracked .exprs do
    opening
    symbol "exprs".toList
    let exprs ← many expr
    layout
    closing
    return exprs

/-! ## Operators -/

def triple : Recognizer TripleTree :=
  tracked .triple do
    opening
    let subject ← spaced slot
    let predicate ← spaced slot
    let object ← spaced slot
    closing
    return ⟨subject, predicate, object⟩

/-- An operator: a word and what follows it, in parentheses. -/
def operator (rule : Rule) (body : Recognizer AlgebraTree) : Recognizer AlgebraTree :=
  tracked rule do
    opening
    symbol rule.name.toList
    let tree ← body
    layout
    closing
    return tree

def twoOperands (op : Recognizer AlgebraTree) (make : AlgebraTree → AlgebraTree → AlgebraTree) :
    Recognizer AlgebraTree := do
  let left ← spaced op
  let right ← op
  return make left right

/-- The operators, with `op` for their operands. -/
def operators (op : Recognizer AlgebraTree) : List (Recognizer AlgebraTree) := [
  operator .bgp do return .bgp (← many triple),
  operator .quadPattern do
    let graph ← spaced slot
    return .quadPattern graph (← many triple),
  operator .leftJoin do
    let left ← spaced op
    let right ← spaced op
    let condition ← optional exprs
    return .leftJoin left right (condition.getD []),
  operator .conditional (twoOperands op .conditional),
  operator .filter do
    let condition ← spaced (firstOf [exprs, do return [← expr]])
    return .filter condition (← op),
  operator .join (twoOperands op .join),
  operator .union (twoOperands op .union),
  operator .sequence do return .sequence (← many op),
  operator .project do
    opening
    let vars ← many var
    layout
    symbol [')']
    return .project vars (← op),
  operator .distinct do return .distinct (← op)]

/-- Operators nested less than the given number deep. -/
def opWithin : Nat → Recognizer AlgebraTree
  | 0 => fail
  | depth + 1 => tracked .op (firstOf (operators (opWithin depth)))

def op : Recognizer AlgebraTree :=
  nested opWithin

/-- A whole text of one operator. -/
def algebra : Recognizer AlgebraTree :=
  tracked .algebra do
    layout
    let tree ← spaced op
    endOfText
    return tree

/-! ## Data -/

def statement : Recognizer StatementTree :=
  tracked .statement do
    let subject ← spaced term
    let predicate ← spaced term
    let object ← spaced term
    let graph ← spaced (optional term)
    exactly ['.']
    return ⟨subject, predicate, object, graph⟩

/-- A whole text of statements. -/
def statements : Recognizer (List StatementTree) :=
  tracked .statements do
    layout
    let trees ← many statement
    layout
    endOfText
    return trees

end Recognizer

end QuadQuery.Grammar
