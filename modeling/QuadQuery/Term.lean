import QuadQuery.Date
import QuadQuery.Decimal

/-!
# Terms

The values that quads are made of. Two terms are the same (`Term.same`) if they are equal
after decimals are brought to their canonical form; an integer and a decimal are never the
same term, although filters compare them by value.
-/

namespace QuadQuery

/-- What a quad states something about, or says of it. -/
inductive Term where
  | iri (name : String)
  | blank (label : String)
  | str (content : String)
  | integer (value : Int)
  | decimal (value : Decimal)
  | date (value : Date)
deriving DecidableEq

namespace Term

/-- The graph of the quads that name none. -/
def defaultGraph : Term :=
  .iri "urn:x-arq:DefaultGraph"

def isLiteral : Term → Bool
  | .iri _ | .blank _ => false
  | _ => true

def isNumeric : Term → Bool
  | .integer _ | .decimal _ => true
  | _ => false

/-- The value of a numeric term. -/
def asDecimal? : Term → Option Decimal
  | .integer i => some (Decimal.ofInt i)
  | .decimal d => some d
  | _ => none

/-- The term with a decimal in canonical form. -/
def canonical : Term → Term
  | .decimal d => .decimal d.canonical
  | t => t

/-- Equality of terms, decimals taken by value. -/
def same (a b : Term) : Bool :=
  a.canonical == b.canonical

/-- The place of a kind of term among the kinds. -/
def rank : Term → Nat
  | .iri _ => 0
  | .blank _ => 1
  | .str _ => 2
  | .integer _ => 3
  | .decimal _ => 4
  | .date _ => 5

/-- Orders terms by kind, then by content: texts by code points, numbers and dates by value. -/
def compare : Term → Term → Ordering
  | .iri a, .iri b | .blank a, .blank b | .str a, .str b => Ord.compare a b
  | .integer a, .integer b => Ord.compare a b
  | .decimal a, .decimal b => a.compare b
  | .date a, .date b => a.compare b
  | a, b => Ord.compare a.rank b.rank

/-- The written form of a term. Nothing is escaped. -/
def text : Term → String
  | .iri name => "<" ++ name ++ ">"
  | .blank label => "_:" ++ label
  | .str content => "\"" ++ content ++ "\""
  | .integer value => toString value
  | .decimal value => value.text
  | .date value => "'" ++ value.text ++ "'"

/-- The decimal term written as `text`. -/
def decimalOfText? (text : String) : Option Term :=
  (Decimal.ofText? text).map .decimal

/-- The date term written as `text`. -/
def dateOfText? (text : String) : Option Term :=
  (Date.ofText? text).map .date

@[simp]
theorem same_self (t : Term) : t.same t = true := by
  simp [same]

theorem same_iff {a b : Term} : a.same b = true ↔ a.canonical = b.canonical := by
  simp [same]

/-! ## Whole numbers -/

/-- The integer term that is written as digits after at most one sign. -/
def integerOfChars (cs : List Char) : Except IntegerFault Term :=
  (Numeral.readInteger cs).map .integer

@[inherit_doc integerOfChars]
def integerOfText (text : String) : Except IntegerFault Term :=
  integerOfChars text.toList

end Term

end QuadQuery
