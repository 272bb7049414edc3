import QuadQuery.Regex.Bracket

/-!
# Sequences and alternatives

The parts of a regular expression follow each other or stand for choice, may be repeated, and are
grouped by parentheses. A text is refused if its parts are nested too deeply, or if its pattern
takes too much room when all repetitions are written out.
-/

namespace QuadQuery.Regex

/-- What stands in a sequence: a pattern or a setting of flags, which cannot be repeated. -/
inductive Item where
  | pattern (p : Nested Pattern)
  | setting

/-- The depth of an item. -/
def Item.depth : Item → Nat
  | .pattern p => p.depth
  | .setting => 0

namespace Reader

/-! ## Groups -/

/-- A letter of any script, or a digit where one may stand. -/
def isNameChar (first : Bool) (c : Char) : Bool :=
  let isLetter := Category.alphabetic.contains c.toNat
  if first then c == '_' || isLetter
  else c == '_' || c == '.' || c == '[' || c == ']' || isLetter
    || Category.number.contains c.toNat

/-- The name of a group up to its closing angle bracket; names are not used twice. -/
def groupName : Reader Unit := do
  let s ← get
  let name := s.rest.takeWhile (· != '>')
  match s.rest.dropWhile (· != '>') with
  | [] => refuse
  | _ :: rest =>
    require (!name.isEmpty && (name.take 1).all (isNameChar true)
      && (name.drop 1).all (isNameChar false) && !s.groupNames.contains name)
    set { s with rest, groupNames := name :: s.groupNames }

/-- The letters of flags up to a colon or a closing parenthesis, each at most once, with at
most one hyphen in front of those that are switched off. -/
def flagLetters : Nat → List Char → Flags → Reader (List Char × Flags)
  | 0, _, _ => refuse
  | bound + 1, seen, flags => do
    let c ← peek
    if c == ':' || c == ')' then
      require (seen.head? != some '-')
      return (seen, flags)
    require !seen.contains c
    bump
    if c == '-' then
      flagLetters bound (c :: seen) flags
    else
      match flags.put? c (!seen.contains '-') with
      | some flags => flagLetters bound (c :: seen) flags
      | none => refuse

/-- How a parenthesis opens. -/
inductive Opening where
  | group (flags : Flags)
  | setting (flags : Flags)

/-- What follows an opening parenthesis, up to the start of the group. -/
def opening : Reader Opening := do
  bump
  skipBlanks
  let current ← flags
  for lookaround in [['?', '='], ['?', '!'], ['?', '<', '='], ['?', '<', '!']] do
    require !(← takeText lookaround)
  if (← takeText ['?', 'P', '<']) || (← takeText ['?', '<']) then
    groupName
    return .group current
  else if ← takeText ['?'] then
    let (seen, flags) ← flagLetters ((← get).rest.length + 1) [] current
    let closed := (← peek) == ')'
    bump
    if closed then
      require !seen.isEmpty
      return .setting flags
    else
      return .group flags
  else
    return .group current

/-! ## Sequences and alternatives -/

def literalPattern (c : Char) : Reader Pattern := do
  let flags ← flags
  if !flags.ignoreCase then
    return .char (.single c)
  else if flags.unicode then
    return .char (if (CaseFold.partners c.toNat).isEmpty then .single c else .foldCase (.single c))
  else
    return .char (.foldAsciiCase (.single c))

def primitivePattern : Primitive → Reader Pattern
  | .literal c code => do
    require ((← flags).unicode || !code || c.toNat < 128)
    literalPattern c
  | .charClass among => return .char among
  | .look condition => return .look condition

/-- Any character, but as a rule not those that end lines. -/
def dot : Reader Pattern := do
  let flags ← flags
  require flags.unicode
  if flags.dotMatchesLineFeed then
    return .char Category.any
  else if flags.returnEndsLine then
    return .char (.compl (.ofRanges [('\n', '\n'), ('\r', '\r')]))
  else
    return .char (.compl (.single '\n'))

def lineStart : Reader Pattern := do
  let flags ← flags
  return .look (if !flags.multiLine then .textStart
    else if flags.returnEndsLine then .returnLineStart else .lineStart)

def lineEnd : Reader Pattern := do
  let flags ← flags
  return .look (if !flags.multiLine then .textEnd
    else if flags.returnEndsLine then .returnLineEnd else .lineEnd)

/-- A character that is no operator. -/
def primitive : Reader Pattern := do
  match ← peek with
  | '\\' => primitivePattern (← escape)
  | '.' => bump; dot
  | '^' => bump; lineStart
  | '$' => bump; lineEnd
  | c => bump; primitivePattern (.literal c false)

/-- The counts in braces after something that is repeated. -/
def counts : Reader (Nat × Option Nat) := do
  advance
  let least ← decimal?
  if (← peek) == ',' then
    advance
    match least with
    | none => refuse
    | some least =>
      if (← peek) == '\x7d' then
        advanceToEnd
        return (least, none)
      else
        let most ← decimal?
        require ((← peek) == '\x7d')
        advanceToEnd
        match most with
        | none => refuse
        | some most =>
          require (least ≤ most)
          return (least, some (most - least))
  else
    require ((← peek) == '\x7d')
    advanceToEnd
    match least with
    | none => refuse
    | some least => return (least, some 0)

/-- Repeats the item read last; a question mark after the operator makes no difference to
whether a text matches. -/
def repetition (items : List Item) : Reader (List Item) := do
  match items with
  | .pattern p :: before =>
    let c ← peek
    let (least, further) ← match c with
      | '?' => do bump; pure (0, some 1)
      | '*' => do bump; pure (0, none)
      | '+' => do bump; pure (1, none)
      | _ => counts
    let _ ← takeText ['?']
    return .pattern ⟨.repeated p.value least further, p.depth + 1⟩ :: before
  | _ => refuse

/-- The items in the order in which they were read, the last of them first. -/
def sequence (items : List Item) : Nested Pattern where
  value := items.foldl (fun p item => match item with
    | .pattern q => if p = .empty then q.value else .seq q.value p
    | .setting => p) .empty
  depth := levels (items.map Item.depth)
where
  /-- The depth of several things side by side. -/
  levels (depths : List Nat) : Nat :=
    if depths.length < 2 then depths.foldl max 0 else depths.foldl max 0 + 1

/-- The alternatives, the last of them first. -/
def choice (last : Nested Pattern) (before : List (Nested Pattern)) : Nested Pattern where
  value := before.foldl (fun p q => .alt q.value p) last.value
  depth := sequence.levels ((last :: before).map Nested.depth)

/-- Alternatives up to the end of the group or of the text. -/
def alternatives : Nat → List (Nested Pattern) → List Item → Reader (Nested Pattern)
  | 0, _, _ => refuse
  | bound + 1, before, items => do
    skipBlanks
    match ← peek? with
    | none | some ')' => return choice (sequence items) before
    | some '|' =>
      bump
      alternatives bound (sequence items :: before) []
    | some '(' =>
      match ← opening with
      | .setting flags =>
        setFlags flags
        alternatives bound before (.setting :: items)
      | .group inner =>
        let outer ← flags
        setFlags inner
        let p ← alternatives bound [] []
        require ((← peek) == ')')
        bump
        setFlags outer
        alternatives bound before (.pattern p.deeper :: items)
    | some '[' =>
      let among ← bracketClass
      alternatives bound before (.pattern ⟨.char among.value, among.depth⟩ :: items)
    | some '?' | some '*' | some '+' | some '\x7b' =>
      alternatives bound before (← repetition items)
    | some _ =>
      let p ← primitive
      alternatives bound before (.pattern ⟨p, 0⟩ :: items)

end Reader

/-- The room that a pattern may take when all its repetitions are written out. -/
def roomLimit : Nat := 10 * 0x100000

/-- How deep the parts of a regular expression may be written inside each other. -/
def depthLimit : Nat := 250

/-- Reads a whole text as a regular expression. -/
def Pattern.ofChars? (cs : List Char) : Option Pattern :=
  match (Reader.alternatives (cs.length + 1) [] []).run ⟨cs, {}, []⟩ with
  | some (p, s) =>
    if s.rest.isEmpty && p.depth ≤ depthLimit && p.value.room ≤ roomLimit then some p.value
    else none
  | none => none

end QuadQuery.Regex
