import QuadQuery.Proofs.Grammar.TermWords

/-!
# Terms read back from their texts

A term that was read is read again as itself from the text that is written for it, except for some
decimals (`Term.IsWrittenInFull`): zeros are written like the integer, and with more than five zeros
behind the point a decimal is written with an exponent, which the syntax does not have. From the
texts of these nothing is read, or another term (`Term.reads_back_iff`).
-/

namespace QuadQuery

open Grammar Numeral

/-- The term that the whole text writes, if it writes one. -/
def Term.ofChars? (text : List Char) : Option Term :=
  match (Recognizer.term ⟨0, text⟩).result with
  | some (tree, ⟨_, []⟩) => tree.meaning.toOption
  | _ => none

/-- The term is not a decimal that is zero or has more than five zeros behind the point. -/
def Term.IsWrittenInFull : Term → Prop
  | .decimal d => d.digits ≠ 0 ∧ d.scale - Decimal.digitCount d.digits.natAbs ≤ 5
  | _ => True

namespace Decimal

variable {d : Decimal} {n : Nat} {scale : Int}

theorem length_toString (n : Nat) : (toString n).length = digitCount n := by
  rw [Nat.toString_eq_repr, ← String.length_toList, Nat.toList_repr, digitCount]

/-- A magnitude is written with an exponent if it is too small. -/
theorem exists_magnitudeText (small : 5 < scale - digitCount n) : ∃ c cs,
    (magnitudeText n scale).toList = c :: cs ∧ c.isDigit = true ∧ 'E' ∈ cs := by
  obtain ⟨nonempty, all⟩ := isNumeral_iff.1 (isNumeral_toDigits n)
  obtain ⟨c, cs, digits⟩ := List.exists_cons_of_ne_nil nonempty
  have leads : ∃ more, (leadingPoint (toString n)).toList = c :: more := by
    unfold leadingPoint
    rw [Nat.toString_eq_repr, Nat.toList_repr, digits]
    cases cs <;> exact ⟨_, String.toList_ofList⟩
  obtain ⟨more, leads⟩ := leads
  have exponent : ∃ power : String,
      magnitudeText n scale = leadingPoint (toString n) ++ "E-" ++ power := by
    unfold magnitudeText
    dsimp only
    rw [if_pos (by rw [length_toString]; omega)]
    exact ⟨_, rfl⟩
  obtain ⟨power, written⟩ := exponent
  refine ⟨c, more ++ ("E-".toList ++ power.toList), ?_,
    all c (digits ▸ List.mem_cons_self), by simp⟩
  rw [written, String.toList_append, String.toList_append, leads, List.append_assoc, List.cons_append]

/-- A decimal with few enough zeros behind the point is written with a point. -/
theorem pointed_of_digitCount (nonzero : d.digits ≠ 0) (places : 0 < d.scale)
    (few : d.scale - digitCount d.digits.natAbs ≤ 5) : d.Pointed := by
  have written : magnitudeText d.digits.natAbs d.scale
      = withPoint (toString d.digits.natAbs) d.scale.toNat := by
    unfold magnitudeText
    dsimp only
    rw [if_neg (by rw [length_toString]; omega), if_neg (by omega), if_neg (by omega)]
  have some : 0 < d.scale.toNat := by omega
  obtain ⟨lead, trail, numeral, numeral', _, _, around⟩ := exists_withPoint d.digits.natAbs some
  have text : d.text.toList = signOf d.digits ++ (lead ++ '.' :: trail) := by
    by_cases neg : d.digits < 0
    · rw [Decimal.text, if_neg nonzero, if_pos neg, written, String.toList_append, around, signOf,
        if_pos neg]
      rfl
    · rw [Decimal.text, if_neg nonzero, if_neg neg, written, around, signOf, if_neg neg]
      rfl
  have noLetter : ∀ c, c.isDigit = false → c ≠ '-' → c ≠ '.' → c ∉ d.text.toList := by
    intro c notDigit notMinus notPoint member
    have inSign : c ∉ signOf d.digits := by
      rcases signOf_eq d.digits with same | same <;> simp [same, notMinus]
    rw [text] at member
    simp [inSign, notMem_of_isNumeral numeral notDigit, notMem_of_isNumeral numeral' notDigit,
      notPoint] at member
  exact ⟨by rw [text]; simp, noLetter 'e' rfl (by decide) (by decide),
    noLetter 'E' rfl (by decide) (by decide)⟩

end Decimal

namespace Grammar

variable {k : TermKind} {text word rest : List Char} {c : Char}

/-- Words that begin like numbers have no letters. -/
theorem notMem_of_number {cs : List Char} (start : c = '-' ∨ c.isDigit = true)
    (found : k.scan (c :: cs) = some (word, rest)) : 'E' ∉ word := by
  have notDigits : ∀ {cs}, isNumeral cs = true → 'E' ∉ cs := fun numeral =>
    notMem_of_isNumeral numeral rfl
  have notSign : ∀ {sign : List Char}, sign = [] ∨ sign = ['-'] → 'E' ∉ sign := by
    rintro _ (rfl | rfl) <;> decide
  obtain ⟨noIri, noBlank, noString, noDate⟩ := scans_none_of_number start cs
  cases k with
  | iri => exact absurd (noIri.symm.trans found) nofun
  | blank => exact absurd (noBlank.symm.trans found) nofun
  | string => exact absurd (noString.symm.trans found) nofun
  | date => exact absurd (noDate.symm.trans found) nofun
  | decimal =>
    obtain ⟨sign, lead, trail, signed, numeral, numeral', rfl⟩ := Token.word_of_decimal found
    simp [notSign signed, notDigits numeral, notDigits numeral']
  | integer =>
    obtain ⟨sign, digits, signed, numeral, rfl⟩ := Token.word_of_integer found
    simp [notSign signed, notDigits numeral]

theorem Spells.begins {t : Term} (h : Spells k t rest) : t.Begins (t.text.toList ++ rest) rest := by
  obtain ⟨after, same⟩ := k.exists_all_eq
  have none : (TermKind.all.takeWhile (· ≠ k)).findSome?
      (fun k => (k.scan (t.text.toList ++ rest)).map fun taken => (k, taken)) = none :=
    List.findSome?_eq_none_iff.2 fun k' before => by rw [h.others k' before, Option.map_none]
  refine ⟨k, t.text.toList, ?_, TermTree.meaning_eq_ok_iff.1 (h.meaning 0)⟩
  rw [Token.term, same, List.findSome?_append, none, List.findSome?_cons, h.scan]
  rfl

end Grammar

namespace Term

variable {text word : List Char} {t : Term}

theorem ofChars?_eq_some_iff : ofChars? text = some t ↔ t.Begins text [] := by
  rw [ofChars?, Recognizer.result_term]
  constructor
  · intro h
    split at h
    · next tree offset found =>
      obtain ⟨⟨k, word, rest⟩, taken, same⟩ := Option.map_eq_some_iff.1 found
      cases same
      refine ⟨k, word, taken, ?_⟩
      cases means : TermTree.meaning ⟨k, word, 0⟩ with
      | error flaw => rw [means] at h; cases h
      | ok t' =>
        rw [means] at h
        cases h
        exact TermTree.meaning_eq_ok_iff.1 means
    · cases h
  · rintro ⟨k, word, taken, denotes⟩
    have means : TermTree.meaning ⟨k, word, 0⟩ = .ok t := TermTree.meaning_eq_ok_iff.2 denotes
    simp only [taken, Option.map_some, means]
    rfl

/-- A decimal is read with digits behind its point. -/
theorem scale_pos_of_ofChars? {d : Decimal} (read : ofChars? word = some (.decimal d)) :
    0 < d.scale := by
  obtain ⟨k, word, taken, denotes⟩ := ofChars?_eq_some_iff.1 read
  cases k with
  | iri | blank | string => cases denotes
  | date | integer =>
    obtain ⟨_, _, same⟩ := denotes
    cases same
  | decimal =>
    obtain ⟨_, value, same⟩ := denotes
    cases same
    obtain ⟨sign, lead, trail, signed, numeral, numeral', rfl⟩ :=
      Token.word_of_decimal (Token.scan_of_term taken)
    rw [Decimal.ofChars?_digits signed numeral numeral'] at value
    split at value
    · obtain rfl := Option.some.inj value
      exact Int.natCast_pos.2 (List.length_pos_iff.2 (isNumeral_iff.1 numeral').1)
    · cases value

theorem ofChars?_text_of_isWrittenInFull (read : ofChars? word = some t) (full : t.IsWrittenInFull) :
    ofChars? t.text.toList = some t := by
  obtain ⟨k, word', taken, denotes⟩ := ofChars?_eq_some_iff.1 read
  have readable : (Slot.term t).Readable := by
    refine ⟨writable_of_denotes (Token.scan_of_term taken) denotes, ?_⟩
    rintro d ⟨⟩
    exact Decimal.pointed_of_digitCount full.1 (scale_pos_of_ofChars? read) full.2
  have stops : Stops [] := nofun
  obtain ⟨k', spells⟩ := exists_spells readable stops
  have begins := spells.begins
  rw [List.append_nil] at begins
  exact ofChars?_eq_some_iff.2 begins

/-- Nothing is read from the text of a decimal with an exponent. -/
theorem ofChars?_text_of_small {d : Decimal} (nonzero : d.digits ≠ 0)
    (small : 5 < d.scale - Decimal.digitCount d.digits.natAbs) :
    ofChars? (Term.decimal d).text.toList = none := by
  obtain ⟨c, cs, written, digit, letter⟩ := Decimal.exists_magnitudeText small
  have front : ∃ c' cs', (Term.decimal d).text.toList = c' :: cs' ∧
      (c' = '-' ∨ c'.isDigit = true) ∧ 'E' ∈ c' :: cs' := by
    by_cases neg : d.digits < 0
    · refine ⟨'-', c :: cs, ?_, .inl rfl, by simp [letter]⟩
      rw [text, Decimal.text, if_neg nonzero, if_pos neg, String.toList_append, written]
      rfl
    · refine ⟨c, cs, ?_, .inr digit, by simp [letter]⟩
      rw [text, Decimal.text, if_neg nonzero, if_neg neg, written]
  obtain ⟨c', cs', written, start, letter⟩ := front
  refine Option.eq_none_iff_forall_ne_some.2 fun t read => ?_
  obtain ⟨k, word', taken, _⟩ := ofChars?_eq_some_iff.1 read
  obtain rfl : word' = (Term.decimal d).text.toList := by simpa using Token.append_of_term taken
  rw [written] at taken
  exact notMem_of_number start (Token.scan_of_term taken) letter

/-- What is read from the text of a term is the same term exactly if the term is written in full,
and then it is equal to the term. -/
theorem reads_back_iff (read : ofChars? word = some t) :
    ((∃ t', ofChars? t.text.toList = some t' ∧ t'.same t = true) ↔ t.IsWrittenInFull) ∧
      (t.IsWrittenInFull → ofChars? t.text.toList = some t) := by
  refine ⟨⟨fun ⟨t', again, same⟩ => ?_, fun full =>
    ⟨t, ofChars?_text_of_isWrittenInFull read full, same_self t⟩⟩,
    ofChars?_text_of_isWrittenInFull read⟩
  cases t with
  | decimal d =>
    have nonzero : d.digits ≠ 0 := by
      intro zero
      have text : (Term.decimal d).text = "0" := by rw [text, Decimal.text, if_pos zero]
      have integer : ofChars? "0".toList = some (.integer 0) := by decide +kernel
      rw [text, integer] at again
      obtain rfl := Option.some.inj again
      simp [same_iff, canonical] at same
    refine ⟨nonzero, ?_⟩
    by_contra small
    rw [ofChars?_text_of_small nonzero (by omega)] at again
    cases again
  | iri | blank | str | integer | date => trivial

theorem reads_back_iff_three_digits :
    ofChars? "-4.20".toList = some (.decimal ⟨-420, 2⟩) ∧
      ((∃ t', ofChars? "-4.20".toList = some t' ∧ t'.same (.decimal ⟨-420, 2⟩) = true) ↔
        Term.IsWrittenInFull (.decimal ⟨-420, 2⟩)) ∧
      (Term.IsWrittenInFull (.decimal ⟨-420, 2⟩) →
        ofChars? "-4.20".toList = some (.decimal ⟨-420, 2⟩)) := by
  have read : ofChars? "-4.20".toList = some (.decimal ⟨-420, 2⟩) := by decide +kernel
  exact ⟨read, reads_back_iff read⟩

/-- A small decimal is written with an exponent, which the syntax does not have. -/
theorem not_reads_back : ¬ ∀ word t, ofChars? word = some t →
    ∃ t', ofChars? t.text.toList = some t' ∧ t'.same t = true := by
  intro all
  have read : ofChars? "0.0000001".toList = some (.decimal ⟨1, 7⟩) := by decide +kernel
  have lost : ofChars? (Term.decimal ⟨1, 7⟩).text.toList = none := by decide +kernel
  obtain ⟨t', again, _⟩ := all _ _ read
  exact absurd (lost.symm.trans again) nofun

/-- Zero is read again, but as an integer. -/
example : ofChars? "0.0".toList = some (.decimal ⟨0, 1⟩) ∧
    ofChars? (Term.decimal ⟨0, 1⟩).text.toList = some (.integer 0) := by
  decide +kernel

end Term

end QuadQuery
