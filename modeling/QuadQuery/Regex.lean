import QuadQuery.Regex.Sequence

/-!
# Regular expressions

A regular expression is kept with its text. The text determines the pattern, so regular
expressions of one text are equal (`Regex.ext_source`).
-/

namespace QuadQuery

/-- A regular expression: its text and the pattern that it stands for. -/
structure Regex where
  source : String
  pattern : Regex.Pattern
  reads : Regex.Pattern.ofChars? source.toList = some pattern

namespace Regex

/-- The regular expression written as `source`, unless it is refused. -/
def ofText? (source : String) : Option Regex :=
  match reads : Pattern.ofChars? source.toList with
  | some pattern => some ⟨source, pattern, reads⟩
  | none => none

/-- Some stretch of the text matches. -/
def isMatch (r : Regex) (text : String) : Bool :=
  r.pattern.matchesWithin text.toList

/-- Regular expressions of one text are equal. -/
theorem ext_source {a b : Regex} (h : a.source = b.source) : a = b := by
  obtain ⟨s, p, hp⟩ := a
  obtain ⟨t, q, hq⟩ := b
  cases h
  obtain rfl : p = q := Option.some.inj (hp.symm.trans hq)
  rfl

end Regex

end QuadQuery
