import QuadQuery.Regex.Escape

/-!
# Bracketed classes

A class in brackets is made from characters, ranges, other classes and classes in brackets. Its
parts may be combined by intersection and by two kinds of difference, from left to right.
-/

namespace QuadQuery.Regex.Reader

/-- Closes a class under letter case where the flags say so, then takes the complement. -/
def foldAndNegate (among : CharClass) (negated : Bool) : Reader CharClass := do
  let flags ← flags
  let among := if !flags.ignoreCase then among
    else if flags.unicode then .foldCase among
    else .foldAsciiCase among
  let among := if negated then .compl among else among
  require (flags.unicode || !among.exceedsAscii)
  return among

/-- One member of a class. -/
def member : Reader Primitive := do
  if (← peek) == '\\' then escape
  else
    let c ← peek
    bump
    return .literal c false

/-- The code point of a literal in a class; without Unicode only ASCII is allowed. -/
def memberCode : Primitive → Reader Nat
  | .literal c _ => do
    require ((← flags).unicode || c.toNat < 128)
    return c.toNat
  | _ => refuse

/-- A member of a class or a range of them. -/
def memberOrRange : Reader CharClass := do
  let start ← member
  skipBlanks
  let c ← peek
  let second ← peekSecond?
  if c != '-' || second == some ']' || second == some '-' then
    match start with
    | .literal _ _ =>
      let n ← memberCode start
      return .range n n
    | .charClass among => return among
    | .look _ => refuse
  else
    advance
    let stop ← member
    let first ← memberCode start
    let last ← memberCode stop
    require (first ≤ last)
    return .range first last

/-- A class of ASCII between colons in brackets, if one comes next. -/
def bracketed? : Reader (Option CharClass) := do
  let s ← get
  match s.rest with
  | '[' :: ':' :: cs =>
    let (negated, cs) := match cs with
      | '^' :: cs => (true, cs)
      | cs => (false, cs)
    let name := cs.takeWhile (· != ':')
    match cs.dropWhile (· != ':'), CharClass.bracketed? (String.ofList name) with
    | ':' :: ']' :: rest, some among =>
      set { s with rest }
      return some (← foldAndNegate among negated)
    | _, _ => return none
  | _ => return none

/-- How two parts of a class are combined. -/
inductive SetOperation where
  | inter
  | diff
  | symmDiff

def SetOperation.apply : SetOperation → CharClass → CharClass → CharClass
  | .inter => .inter
  | .diff => .diff
  | .symmDiff => .symmDiff

/-- The members of a part of a class that have been read. -/
structure Members where
  among : CharClass := .empty
  count : Nat := 0
  /-- The greatest depth of a member. -/
  depth : Nat := 0

namespace Members

def add (m : Members) (member : Nested CharClass) : Members :=
  ⟨.union m.among member.value, m.count + 1, max m.depth member.depth⟩

/-- The members as one class. -/
def toClass (m : Members) : Nested CharClass :=
  ⟨m.among, if m.count < 2 then m.depth else m.depth + 1⟩

end Members

/-- The parts combined so far with the operation that waits for another part. -/
abbrev Pending := Option (Nested CharClass × SetOperation)

/-- Combines the part read last with those before it. -/
def combine (pending : Pending) (members : Members) : Reader (Nested CharClass) := do
  let last := members.toClass
  match pending with
  | none => return last
  | some (before, operation) =>
    let fold (a : CharClass) : Reader CharClass := foldAndNegateUnchecked a
    return ⟨operation.apply (← fold before.value) (← fold last.value),
      max before.depth last.depth + 1⟩
where
  foldAndNegateUnchecked (a : CharClass) : Reader CharClass := do
    let flags ← flags
    return if !flags.ignoreCase then a
      else if flags.unicode then .foldCase a
      else .foldAsciiCase a

/-- The hyphens and the closing bracket that stand for themselves at the start of a class. -/
def leadingMembers : Nat → Members → Reader Members
  | 0, members => pure members
  | bound + 1, members => do
    if (← peek) == '-' then
      advance
      leadingMembers bound (members.add ⟨.single '-', 0⟩)
    else
      return members

/-- The inside of a class up to its closing bracket. -/
def classBody : Nat → Pending → Members → Reader (Nested CharClass)
  | 0, _, _ => refuse
  | bound + 1, pending, members => do
    skipBlanks
    let c ← peek
    let operator (text : List Char) (operation : SetOperation) : Reader (Nested CharClass) := do
      let _ ← takeText text
      classBody bound (some (← combine pending members, operation)) {}
    let second := ((← get).rest.drop 1).head?
    if c == '[' then
      match ← bracketed? with
      | some inner => classBody bound pending (members.add ⟨inner, 0⟩)
      | none =>
        let inner ← nestedClass bound
        classBody bound pending (members.add inner)
    else if c == ']' then
      bump
      combine pending members
    else if c == '&' && second == some '&' then operator ['&', '&'] .inter
    else if c == '-' && second == some '-' then operator ['-', '-'] .diff
    else if c == '~' && second == some '~' then operator ['~', '~'] .symmDiff
    else
      let inner ← memberOrRange
      classBody bound pending (members.add ⟨inner, 0⟩)
where
  /-- A class from its opening to its closing bracket. -/
  nestedClass (bound : Nat) : Reader (Nested CharClass) := do
    advance
    let negated := (← peek) == '^'
    if negated then
      advance
    let start ← leadingMembers (← get).rest.length {}
    let start ← if start.count = 0 && (← peek) == ']' then do
        advance
        pure (start.add ⟨.single ']', 0⟩)
      else pure start
    let inner ← classBody bound none start
    return ⟨← foldAndNegate inner.value negated, inner.depth + 1⟩

/-- A class from its opening to its closing bracket. -/
def bracketClass : Reader (Nested CharClass) := do
  classBody.nestedClass (← get).rest.length

end QuadQuery.Regex.Reader
