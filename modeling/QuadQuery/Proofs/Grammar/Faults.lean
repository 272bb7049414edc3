import QuadQuery.Grammar.Text
import QuadQuery.Proofs.Grammar.Places
import QuadQuery.Proofs.Grammar.RoundTrip

/-!
# Which queries are refused, and where

A text that follows the grammar is a query exactly if none of its pieces is at fault, and otherwise it is
refused at the place of the first piece that is (`Algebra.ofText_of_recognized`).
-/

namespace QuadQuery.Grammar

open Recognizer Numeral

namespace TermTree

variable {sign digits year month day : List Char}

theorem integerValue_eq (signed : sign = [] ∨ sign = ['-']) (numeral : isNumeral digits = true) :
    integerValue (sign ++ digits) = withSign sign (ofDigits digits) := by
  rcases signed with rfl | rfl
  · unfold integerValue
    split
    · next others same =>
      have minus : '-' ∈ digits := by
        rw [← List.nil_append digits, same]
        exact List.mem_cons_self
      exact absurd minus (notMem_of_isNumeral numeral rfl)
    · rfl
  · rfl

theorem isRealDate_iff (lengthYear : year.length = 4) (lengthMonth : month.length = 2)
    (lengthDay : day.length = 2) :
    IsRealDate ('\'' :: ((year ++ '-' :: (month ++ '-' :: day)) ++ ['\''])) ↔
      isCalendarDay (ofDigits year) (ofDigits month) (ofDigits day) = true := by
  have noYear {n : Nat} (behind : 4 ≤ n) : year.drop n = [] := List.drop_eq_nil_of_le (by omega)
  have noMonth {n : Nat} (behind : 2 ≤ n) : month.drop n = [] := List.drop_eq_nil_of_le (by omega)
  simp [IsRealDate, lengthYear, lengthMonth, lengthDay, List.drop_append, noYear, noMonth]

end TermTree

variable {text : List Char} {ps before after : List Piece} {p : Piece} {w : TermTree}

/-- Words that stand in a text have a meaning if they are not at fault. For decimals, the text must not
be longer than 64 bits can count. -/
theorem Piece.StandsIn.judged (h : (Piece.word w).StandsIn text)
    (fits : (text.length : Int) ≤ integerMax) : flawOf w.meaning = (Piece.word w).flaw? := by
  obtain ⟨rest, taken⟩ := h
  have found := Token.scan_of_term taken
  have whole := Token.append_of_term taken
  obtain ⟨kind, word, offset⟩ := w
  cases kind with
  | iri | blank | string => rfl
  | date =>
    obtain ⟨year, month, day, numeralY, lengthY, numeralM, lengthM, numeralD, lengthD, rfl⟩ :=
      Token.word_of_date found
    simp only [TermTree.meaning, Date.ofText?, inside_word, String.toList_ofList, Date.ofNumbers?,
      Date.ofChars?_digits numeralY lengthY numeralM lengthM numeralD lengthD, Piece.flaw?,
      Piece.fault?, TermTree.fault?, TermTree.isRealDate_iff lengthY lengthM lengthD]
    split_ifs <;> rfl
  | decimal =>
    obtain ⟨sign, lead, trail, signed, numeral, numeral', rfl⟩ := Token.word_of_decimal found
    have short : trail.length ≤ text.length := by
      have length := congrArg List.length whole
      simp only [List.length_append, List.length_cons, List.length_drop] at length
      omega
    have scale : Decimal.scaleFits trail.length = true := by
      simp only [Decimal.scaleFits, Bool.and_eq_true, decide_eq_true_eq]
      simp only [integerMin, integerMax] at fits ⊢
      omega
    rw [TermTree.meaning, Decimal.ofChars?_digits signed numeral numeral', scale, if_pos rfl]
    rfl
  | integer =>
    obtain ⟨sign, digits, signed, numeral, rfl⟩ := Token.word_of_integer found
    simp only [TermTree.meaning, Term.integerOfChars, readInteger_digits signed numeral, Piece.flaw?,
      Piece.fault?, TermTree.fault?, TermTree.integerValue_eq signed numeral]
    split_ifs <;> rfl

theorem flaw?_eq_none_iff : p.flaw? = none ↔ p.Sound := by
  rw [Piece.flaw?, Option.map_eq_none_iff, Piece.fault?_eq_none_iff]

theorem firstFlaw_eq_none_iff : firstFlaw ps = none ↔ ∀ p ∈ ps, p.Sound := by
  simp only [firstFlaw, List.findSome?_eq_none_iff, flaw?_eq_none_iff]

/-- The first flaw is that of a piece at fault with none in front of it. -/
theorem exists_of_firstFlaw {flaw : Flaw} (h : firstFlaw ps = some flaw) :
    ∃ before p after, ps = before ++ p :: after ∧ (∀ q ∈ before, q.Sound) ∧
      p.fault? = some flaw.cause ∧ p.offset = flaw.offset := by
  obtain ⟨before, p, after, listed, own, sound⟩ := List.findSome?_eq_some_iff.1 h
  obtain ⟨cause, fault, rfl⟩ := Option.map_eq_some_iff.1 own
  exact ⟨before, p, after, listed, fun q front => flaw?_eq_none_iff.1 (sound q front), fault, rfl⟩

end QuadQuery.Grammar

namespace QuadQuery

open Grammar Recognizer Numeral

/-- The pieces of a text that follows the grammar stand in it, each call behind its arguments and
otherwise in the order of the text. The text is accepted exactly if none of them is at fault.
Otherwise it is refused for the fault of the first piece that is, at the place where this piece starts.
No text in memory is too long for its length to fit into 64 bits. -/
theorem Algebra.ofText_of_recognized {text : String} {tree : AlgebraTree}
    (accepted : recognize algebra text.toList = .ok tree) (fits : (text.length : Int) ≤ integerMax) :
    ((∀ p ∈ tree.pieces, p.StandsIn text.toList) ∧ InOrder tree.pieces) ∧
    ((∃ op, Algebra.ofText text = .ok op) ↔ ∀ p ∈ tree.pieces, p.Sound) ∧
    ((∃ p ∈ tree.pieces, ¬ p.Sound) → ∃ before p after cause,
      tree.pieces = before ++ p :: after ∧ (∀ q ∈ before, q.Sound) ∧ p.fault? = some cause ∧
      Algebra.ofText text = .error ⟨cause, .ofOffset text.toList p.offset⟩) := by
  obtain ⟨last, read⟩ := recognize_eq_ok_iff.1 accepted
  obtain ⟨_, place⟩ := locates_algebra text.toList 0 ⟨0, text.toList⟩ tree last rfl (.nil le_rfl) read
  have judged : Judged tree.pieces := fun w listed =>
    (place.stands _ listed).1.judged (by rwa [String.length_toList])
  have flaws := tree.flawOf_meaning judged
  have means : Algebra.ofText text = located text.toList tree.meaning := by
    rw [Algebra.ofText, Algebra.ofChars, accepted]
    rfl
  refine ⟨⟨fun p listed => (place.stands p listed).1, place.inOrder⟩, ?_, ?_⟩
  · rw [← firstFlaw_eq_none_iff, ← flaws, means]
    cases tree.meaning <;> simp [located, flawOf]
  · rintro ⟨p, listed, fault⟩
    cases here : tree.meaning with
    | ok op =>
      rw [here] at flaws
      exact absurd (firstFlaw_eq_none_iff.1 flaws.symm p listed) fault
    | error flaw =>
      rw [here] at flaws
      obtain ⟨before, p, after, split, sound, fault, place⟩ := exists_of_firstFlaw flaws.symm
      refine ⟨before, p, after, flaw.cause, split, sound, fault, ?_⟩
      rw [means, here, place]
      rfl

/-- A comparison of one argument around a date that is not in the calendar. -/
theorem Algebra.ofText_of_recognized_nested :
    let text := "(filter (< '2004-02-30')\n  (bgp (?s <p> 1.50)))"
    ∃ tree, recognize algebra text.toList = .ok tree ∧ (text.length : Int) ≤ integerMax ∧
      (∃ p ∈ tree.pieces, ¬ p.Sound) ∧ ∃ before p after cause,
        tree.pieces = before ++ p :: after ∧ (∀ q ∈ before, q.Sound) ∧ p.fault? = some cause ∧
        Algebra.ofText text = .error ⟨cause, .ofOffset text.toList p.offset⟩ := by
  intro text
  have fits : (text.length : Int) ≤ integerMax := by decide +kernel
  have whole : (recognize algebra text.toList).toOption.isSome = true := by decide +kernel
  have refused : (Algebra.ofText text).toOption.isSome = false := by decide +kernel
  cases accepted : recognize algebra text.toList with
  | error flaw =>
    rw [accepted] at whole
    cases whole
  | ok tree =>
    obtain ⟨_, iff, first⟩ := ofText_of_recognized accepted fits
    have fault : ∃ p ∈ tree.pieces, ¬ p.Sound := by
      by_contra none
      obtain ⟨op, ok⟩ := iff.2 (by simpa using none)
      rw [ok] at refused
      cases refused
    exact ⟨tree, rfl, fits, fault, first fault⟩

/-- The date is reported, and the comparison around it if the date is in the calendar. -/
example :
    ["(filter (< '2004-02-30') (bgp))", "(filter (< '2004-02-29') (bgp))"].map (fun text =>
      match Algebra.ofText text with
      | .ok _ => none
      | .error refusal => some (refusal.cause, refusal.location.column)) =
    [some (.invalidDate "'2004-02-30'".toList, 12), some (.wrongArity (.compare .lt) 2 1, 9)] := by
  decide +kernel

end QuadQuery
