import QuadQuery.Regex.Property

/-!
# Matching

A pattern says which stretches of a text match it. Matching works on sets of positions: from
the positions where a match may start, `Pattern.ends` computes the positions where it may
end, by recursion on the pattern. A set of positions is a list of truth values, one for each
position between the characters of the text, the ends included.
-/

namespace QuadQuery.Regex

/-- A condition on a position, which takes up no characters. -/
inductive Look where
  | textStart
  | textEnd
  | lineStart
  | lineEnd
  /-- As `lineStart`, with carriage returns ending lines too. -/
  | returnLineStart
  /-- As `lineEnd`, with carriage returns ending lines too. -/
  | returnLineEnd
  | wordEdge (word : CharClass)
  | notWordEdge (word : CharClass)
  | wordStart (word : CharClass)
  | wordEnd (word : CharClass)
  /-- The character before is not of a word. -/
  | wordStartHalf (word : CharClass)
  /-- The character after is not of a word. -/
  | wordEndHalf (word : CharClass)
deriving DecidableEq

namespace Look

/-- Whether the condition holds between the characters `before` and `after`. -/
def holds (before after : Option Char) : Look → Bool
  | .textStart => before.isNone
  | .textEnd => after.isNone
  | .lineStart => before.all (· == '\n')
  | .lineEnd => after.all (· == '\n')
  | .returnLineStart =>
    match before with
    | none | some '\n' => true
    | some '\r' => after != some '\n'
    | _ => false
  | .returnLineEnd =>
    match after with
    | none | some '\r' => true
    | some '\n' => before != some '\r'
    | _ => false
  | .wordEdge word => inWord word before != inWord word after
  | .notWordEdge word => inWord word before == inWord word after
  | .wordStart word => !inWord word before && inWord word after
  | .wordEnd word => inWord word before && !inWord word after
  | .wordStartHalf word => !inWord word before
  | .wordEndHalf word => !inWord word after
where
  inWord (word : CharClass) (c : Option Char) : Bool :=
    c.any fun c => word.contains c.toNat

end Look

/-- A regular expression in its bare form. -/
inductive Pattern where
  /-- Matches between any two characters. -/
  | empty
  | char (among : CharClass)
  | look (condition : Look)
  | seq (a b : Pattern)
  | alt (a b : Pattern)
  /-- At least `least` times, and at most `least + further` times if that is bounded. -/
  | repeated (a : Pattern) (least : Nat) (further : Option Nat)
deriving DecidableEq

/-- Truth values for the positions of a text. -/
abbrev Positions := List Bool

namespace Positions

def union (s t : Positions) : Positions :=
  List.zipWith (· || ·) s t

/-- The characters before and after each position. -/
def surroundings (text : List Char) : List (Option Char × Option Char) :=
  (none :: text.map some).zip (text.map some ++ [none])

/-- Applies `step` up to `count` times, less often if it changes nothing any more. -/
def iterate (step : Positions → Positions) : Nat → Positions → Positions
  | 0, s => s
  | count + 1, s =>
    let next := step s
    if next == s then s else iterate step count next

end Positions

namespace Pattern

/-- The positions where a match may end that starts at one of `starts`.

A text of `n` characters has `n + 1` positions and matches only move on, so after `n + 1`
rounds a further round of a repetition reaches nothing new. -/
def ends (text : List Char) : Pattern → Positions → Positions
  | .empty, starts => starts
  | .char among, starts =>
    false :: List.zipWith (fun start c => start && among.contains c.toNat) starts text
  | .look condition, starts =>
    List.zipWith (fun start e => start && condition.holds e.1 e.2) starts
      (Positions.surroundings text)
  | .seq a b, starts => b.ends text (a.ends text starts)
  | .alt a b, starts => (a.ends text starts).union (b.ends text starts)
  | .repeated a least further, starts =>
    let rounds := text.length + 1
    let first := Positions.iterate (a.ends text) (min least rounds) starts
    let most := match further with
      | none => rounds
      | some n => min n rounds
    Positions.iterate (fun s => s.union (a.ends text s)) most first

/-- Some stretch of the text matches. -/
def matchesWithin (p : Pattern) (text : List Char) : Bool :=
  (p.ends text (List.replicate (text.length + 1) true)).any id

/-- A bound on the room that a pattern takes when all its repetitions are written out. -/
def room : Pattern → Nat
  | .empty => 32
  | .char among => if among.pieces = 1 then 32 else 32 + 64 * among.pieces
  | .look _ => 32
  | .seq a b => a.room + b.room
  | .alt a b => a.room + b.room + 40
  | .repeated a least further => least * a.room + further.getD 1 * (a.room + 40)

end Pattern

end QuadQuery.Regex
