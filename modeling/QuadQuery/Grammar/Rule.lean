/-!
# The rules of the text syntax

The names by which a syntax error tells what it expected, in the order in which it lists them.
-/

namespace QuadQuery.Grammar

/-- A rule of the grammar, or the end of the text. -/
inductive Rule where
  | endOfText
  | var
  | iri
  | blank
  | string
  | date
  | decimal
  | integer
  | term
  | slot
  | function
  | call
  | expr
  | exprs
  | triple
  | bgp
  | quadPattern
  | leftJoin
  | conditional
  | filter
  | join
  | union
  | sequence
  | project
  | distinct
  | op
  | algebra
  | statement
  | statements
deriving DecidableEq

namespace Rule

/-- The rules in the order in which errors list them. -/
def all : List Rule := [
  endOfText, var, iri, blank, string, date, decimal, integer, term, slot, function, call, expr,
  exprs, triple, bgp, quadPattern, leftJoin, conditional, filter, join, union, sequence, project,
  distinct, op, algebra, statement, statements]

def name : Rule → String
  | endOfText => "EOI"
  | var => "var"
  | iri => "iri"
  | blank => "blank"
  | string => "string"
  | date => "date"
  | decimal => "decimal"
  | integer => "integer"
  | term => "term"
  | slot => "slot"
  | function => "function"
  | call => "call"
  | expr => "expr"
  | exprs => "exprs"
  | triple => "triple"
  | bgp => "bgp"
  | quadPattern => "quadpattern"
  | leftJoin => "leftjoin"
  | conditional => "conditional"
  | filter => "filter"
  | join => "join"
  | union => "union"
  | sequence => "sequence"
  | project => "project"
  | distinct => "distinct"
  | op => "op"
  | algebra => "algebra"
  | statement => "statement"
  | statements => "statements"

/-- Names in a row, with `or` before the last of them. -/
def enumerate : List Rule → String
  | [] => ""
  | [a] => a.name
  | [a, b] => a.name ++ " or " ++ b.name
  | rules =>
    ", ".intercalate (rules.dropLast.map name) ++ ", or " ++ (rules.getLast?.map name).getD ""

end Rule

end QuadQuery.Grammar
