import Mathlib
import QuadQuery.Term

/-!
# Numbers and dates as they are written

What is written for an integer, a decimal or a date is read as the same value again. For a decimal
this is so where its digits are written in full around a point (`Decimal.Pointed`): zeros in front of
the point and the exponents of very large and very small decimals are written in ways that the syntax
does not have.
-/

namespace QuadQuery

theorem Char.toNat_of_isDigit {c : Char} (digit : c.isDigit = true) :
    48 ≤ c.toNat ∧ c.toNat ≤ 57 := by
  simp only [Char.isDigit, Bool.and_eq_true, decide_eq_true_eq] at digit
  exact digit

theorem Char.ne_of_isDigit {c c' : Char} (digit : c.isDigit = true) (other : c'.isDigit = false) :
    c ≠ c' := by
  rintro rfl
  exact absurd (digit.symm.trans other) nofun

theorem isBlank_of_isDigit {c : Char} (digit : c.isDigit = true) : isBlank c = false := by
  have range := Char.toNat_of_isDigit digit
  simp only [isBlank, Bool.or_eq_false_iff, Bool.and_eq_false_iff, decide_eq_false_iff_not,
    beq_eq_false_iff_ne]
  omega

namespace Numeral

variable {cs : List Char} {width n : Nat}

theorem isNumeral_iff : isNumeral cs = true ↔ cs ≠ [] ∧ ∀ c ∈ cs, c.isDigit = true := by
  simp [isNumeral]

theorem ne_of_mem_isNumeral {c c' : Char} (numeral : isNumeral cs = true) (other : c'.isDigit = false)
    (member : c ∈ cs) : c ≠ c' :=
  Char.ne_of_isDigit ((isNumeral_iff.1 numeral).2 c member) other

theorem notMem_of_isNumeral {c : Char} (numeral : isNumeral cs = true) (other : c.isDigit = false) :
    c ∉ cs :=
  fun member => ne_of_mem_isNumeral numeral other member rfl

theorem isNumeral_append {cs' : List Char} (h : isNumeral cs = true) (h' : isNumeral cs' = true) :
    isNumeral (cs ++ cs') = true := by
  rw [isNumeral_iff] at *
  exact ⟨by simp [h.1], List.forall_mem_append.2 ⟨h.2, h'.2⟩⟩

theorem ofDigits_toDigits (n : Nat) : ofDigits (Nat.toDigits 10 n) = n :=
  Nat.ofDigitChars_toDigits (by decide) (by decide)

theorem isNumeral_toDigits (n : Nat) : isNumeral (Nat.toDigits 10 n) = true :=
  isNumeral_iff.2 ⟨Nat.toDigits_ne_nil, fun _ => Nat.isDigit_of_mem_toDigits (by decide) (by decide)⟩

/-- Zeros in front do not count. -/
theorem ofDigits_replicate_append (count : Nat) (cs : List Char) :
    ofDigits (List.replicate count '0' ++ cs) = ofDigits cs := by
  induction count with
  | zero => rfl
  | succ count ih => exact ih

theorem ofDigits_padded (width n : Nat) : ofDigits (padded width n) = n := by
  rw [padded, ofDigits_replicate_append, ofDigits_toDigits]

theorem isNumeral_padded (width n : Nat) : isNumeral (padded width n) = true := by
  obtain ⟨nonempty, digits⟩ := isNumeral_iff.1 (isNumeral_toDigits n)
  refine isNumeral_iff.2 ⟨by simp [padded, nonempty], List.forall_mem_append.2 ⟨?_, digits⟩⟩
  intro c zero
  rw [List.eq_of_mem_replicate zero]
  rfl

theorem le_length_padded (width n : Nat) : width ≤ (padded width n).length := by
  rw [padded, List.length_append, List.length_replicate]
  omega

/-- A number that is small enough is written with as many digits as are wanted. -/
theorem length_padded (pos : 0 < width) (small : n < 10 ^ width) : (padded width n).length = width := by
  have digits : (Nat.toDigits 10 n).length ≤ width :=
    (Nat.length_toDigits_le_iff (by decide) pos).2 small
  rw [padded, List.length_append, List.length_replicate]
  omega

theorem ofDigits_append_singleton (cs : List Char) (c : Char) :
    ofDigits (cs ++ [c]) = 10 * ofDigits cs + digitValue c := by
  rw [ofDigits, List.foldl_append]
  rfl

/-- Digits make a number below the power of ten of their count. -/
theorem ofDigits_lt (digits : ∀ c ∈ cs, c.isDigit = true) : ofDigits cs < 10 ^ cs.length := by
  induction cs using List.reverseRecOn with
  | nil => decide
  | append_singleton cs c ih =>
    obtain ⟨others, last⟩ := List.forall_mem_append.1 digits
    have bound := ih others
    have range := Char.toNat_of_isDigit (last c List.mem_cons_self)
    have value : digitValue c = c.toNat - 48 := rfl
    rw [ofDigits_append_singleton, List.length_append, List.length_singleton, pow_succ]
    omega

/-! ## Signs -/

/-- The sign that a number is written with. -/
def signOf (i : Int) : List Char :=
  if i < 0 then ['-'] else []

/-- The number with the sign and the magnitude. -/
def withSign (sign : List Char) (n : Nat) : Int :=
  if sign = [] then n else -n

theorem signOf_eq (i : Int) : signOf i = [] ∨ signOf i = ['-'] := by
  unfold signOf
  split
  · exact .inr rfl
  · exact .inl rfl

theorem withSign_signOf (i : Int) : withSign (signOf i) i.natAbs = i := by
  unfold withSign signOf
  by_cases neg : i < 0
  · rw [if_pos neg, if_neg (List.cons_ne_nil _ _)]
    omega
  · rw [if_neg neg, if_pos rfl]
    omega

/-! ## Whole numbers -/

/-- Digits with at most a minus in front are read as a number if it fits into 64 bits. -/
theorem readInteger_digits {sign digits : List Char} (signed : sign = [] ∨ sign = ['-'])
    (numeral : isNumeral digits = true) : readInteger (sign ++ digits) =
      if withSign sign (ofDigits digits) < integerMin then .error .tooSmall
      else if integerMax < withSign sign (ofDigits digits) then .error .tooLarge
      else .ok (withSign sign (ofDigits digits)) := by
  rcases signed with rfl | rfl
  · have plain : readInteger digits = readInteger.unsigned digits := by
      unfold readInteger
      split
      · exact absurd List.mem_cons_self (notMem_of_isNumeral (c := '-') numeral rfl)
      · exact absurd List.mem_cons_self (notMem_of_isNumeral (c := '+') numeral rfl)
      · rfl
    have notSmall : ¬ (ofDigits digits : Int) < integerMin := by
      simp only [integerMin]
      omega
    simp only [List.nil_append, plain, readInteger.unsigned, numeral, Bool.not_true,
      Bool.false_eq_true, if_false, withSign, if_true, notSmall]
  · have notLarge : ¬ integerMax < -(ofDigits digits : Int) := by
      simp only [integerMax]
      omega
    simp only [List.singleton_append, readInteger, numeral, Bool.not_true, Bool.false_eq_true,
      withSign, if_false, reduceCtorEq, notLarge]

/-- An integer of 64 bits is read as it is written. -/
theorem readInteger_toString {i : Int} (low : integerMin ≤ i) (high : i ≤ integerMax) :
    ∃ sign digits, (sign = [] ∨ sign = ['-']) ∧ isNumeral digits = true ∧
      (toString i).toList = sign ++ digits ∧ readInteger (toString i).toList = .ok i := by
  have numeral := isNumeral_toDigits i.natAbs
  have written : (toString i).toList = signOf i ++ Nat.toDigits 10 i.natAbs := by
    rw [Int.toString_eq_repr, Int.repr_eq_if, signOf]
    split
    · next pos =>
      rw [if_neg (by omega), Nat.toList_repr, List.nil_append, show i.toNat = i.natAbs by omega]
    · next neg =>
      rw [if_pos (by omega), String.toList_append, Nat.toList_repr,
        show (-i).toNat = i.natAbs by omega]
      rfl
  refine ⟨_, _, signOf_eq i, numeral, written, ?_⟩
  rw [written, readInteger_digits (signOf_eq i) numeral, ofDigits_toDigits, withSign_signOf,
    if_neg (by omega), if_neg (by omega)]

/-- What is read is an integer of 64 bits. -/
theorem readInteger_range {i : Int} (h : readInteger cs = .ok i) : integerMin ≤ i ∧ i ≤ integerMax := by
  have unsigned : ∀ cs, readInteger.unsigned cs = .ok i → integerMin ≤ i ∧ i ≤ integerMax := by
    intro cs h
    unfold readInteger.unsigned at h
    split_ifs at h with _ large
    obtain rfl := Except.ok.inj h
    simp only [integerMin]
    omega
  unfold readInteger at h
  split at h
  · split_ifs at h with _ small
    obtain rfl := Except.ok.inj h
    simp only [integerMax]
    omega
  · exact unsigned _ h
  · exact unsigned _ h

end Numeral

namespace Decimal

open Numeral

variable {d : Decimal} {n : Nat} {scale : Int}

/-- The decimal is written with a point and without an exponent. -/
def Pointed (d : Decimal) : Prop :=
  '.' ∈ d.text.toList ∧ 'e' ∉ d.text.toList ∧ 'E' ∉ d.text.toList

/-- Digits with a point in front of the last of them. -/
theorem exists_withPoint (n : Nat) {places : Nat} (some : 0 < places) : ∃ lead trail,
    isNumeral lead = true ∧ isNumeral trail = true ∧ trail.length = places ∧
      ofDigits (lead ++ trail) = n ∧
      (withPoint (toString n) places).toList = lead ++ '.' :: trail := by
  have long := le_length_padded (places + 1) n
  have value := ofDigits_padded (places + 1) n
  have digits := (isNumeral_iff.1 (isNumeral_padded (places + 1) n)).2
  have written : (withPoint (toString n) places).toList
      = (padded (places + 1) n).take ((padded (places + 1) n).length - places) ++
        '.' :: (padded (places + 1) n).drop ((padded (places + 1) n).length - places) := by
    rw [withPoint, String.toList_ofList, Nat.toString_eq_repr, Nat.toList_repr]
    rfl
  generalize padded (places + 1) n = cs at long value digits written
  refine ⟨_, _, isNumeral_iff.2 ⟨?_, fun c member => digits c (List.mem_of_mem_take member)⟩,
    isNumeral_iff.2 ⟨?_, fun c member => digits c (List.mem_of_mem_drop member)⟩, ?_, ?_, written⟩
  · rw [← List.length_pos_iff, List.length_take]
    omega
  · rw [← List.length_pos_iff, List.length_drop]
    omega
  · rw [List.length_drop]
    omega
  · rw [List.take_append_drop, value]

theorem magnitudeText_pointed (point : '.' ∈ (magnitudeText n scale).toList)
    (small : 'e' ∉ (magnitudeText n scale).toList) (large : 'E' ∉ (magnitudeText n scale).toList) :
    ∃ lead trail, isNumeral lead = true ∧ isNumeral trail = true ∧ (trail.length : Int) = scale ∧
      ofDigits (lead ++ trail) = n ∧ (magnitudeText n scale).toList = lead ++ '.' :: trail := by
  unfold magnitudeText at *
  dsimp only at *
  split_ifs at * with tiny huge whole
  · simp at large
  · simp at small
  · -- Only digits are written, and the point is none.
    have digits : ∀ c ∈ (toString n ++ String.ofList (List.replicate (-scale).toNat '0')).toList,
        c.isDigit = true := by
      rw [String.toList_append, String.toList_ofList, Nat.toString_eq_repr, Nat.toList_repr]
      refine List.forall_mem_append.2 ⟨(isNumeral_iff.1 (isNumeral_toDigits n)).2, fun c zero => ?_⟩
      rw [List.eq_of_mem_replicate zero]
      rfl
    exact absurd (digits '.' point) (by decide)
  · have places : 0 < scale.toNat := by omega
    obtain ⟨lead, trail, numeral, numeral', length, value, written⟩ := exists_withPoint n places
    exact ⟨lead, trail, numeral, numeral', by omega, value, written⟩

/-- The digits around the point. -/
theorem Pointed.exists_digits (h : d.Pointed) : ∃ lead trail,
    isNumeral lead = true ∧ isNumeral trail = true ∧ (trail.length : Int) = d.scale ∧
      ofDigits (lead ++ trail) = d.digits.natAbs ∧
      d.text.toList = signOf d.digits ++ (lead ++ '.' :: trail) := by
  obtain ⟨point, small, large⟩ := h
  by_cases zero : d.digits = 0
  · rw [text, if_pos zero] at point
    exact absurd point (by decide)
  by_cases neg : d.digits < 0
  · have text : d.text = "-" ++ magnitudeText d.digits.natAbs d.scale := by
      rw [text, if_neg zero, if_pos neg]
    rw [text] at point small large ⊢
    simp only [String.toList_append, List.mem_append, not_or] at point small large
    obtain ⟨lead, trail, numeral, numeral', length, value, written⟩ :=
      magnitudeText_pointed (point.resolve_left (by decide)) small.2 large.2
    refine ⟨lead, trail, numeral, numeral', length, value, ?_⟩
    rw [String.toList_append, written, signOf, if_pos neg]
    rfl
  · have text : d.text = magnitudeText d.digits.natAbs d.scale := by
      rw [text, if_neg zero, if_neg neg]
    rw [text] at point small large ⊢
    obtain ⟨lead, trail, numeral, numeral', length, value, written⟩ :=
      magnitudeText_pointed point small large
    refine ⟨lead, trail, numeral, numeral', length, value, ?_⟩
    rw [written, signOf, if_neg neg]
    rfl

theorem readDigits?_of_isNumeral {cs : List Char} (h : isNumeral cs = true) :
    readDigits? cs = some (ofDigits cs) := by
  obtain ⟨nonempty, digits⟩ := isNumeral_iff.1 h
  have plain : cs.filter (· != '_') = cs :=
    List.filter_eq_self.2 fun c member => bne_iff_ne.2 (ne_of_mem_isNumeral h rfl member)
  unfold readDigits?
  split
  · exact absurd rfl nonempty
  · exact absurd List.mem_cons_self (notMem_of_isNumeral (c := '_') h rfl)
  · rw [plain, if_pos (List.all_eq_true.2 digits)]

theorem readSigned?_of_isNumeral {cs : List Char} (h : isNumeral cs = true) :
    readSigned? cs = some (ofDigits cs : Int) := by
  unfold readSigned?
  split
  · exact absurd List.mem_cons_self (notMem_of_isNumeral (c := '-') h rfl)
  · exact absurd List.mem_cons_self (notMem_of_isNumeral (c := '+') h rfl)
  · rw [readDigits?_of_isNumeral h]
    rfl

/-- Digits around a point are read as the digits in a row, scaled by the number of those behind it. -/
theorem ofChars?_digits {sign lead trail : List Char} (signed : sign = [] ∨ sign = ['-'])
    (numeral : isNumeral lead = true) (numeral' : isNumeral trail = true) :
    ofChars? (sign ++ (lead ++ '.' :: trail)) = if scaleFits trail.length then
      some ⟨withSign sign (ofDigits (lead ++ trail)), trail.length⟩
    else none := by
  have digit : ∀ c ∈ lead ++ trail, c.isDigit = true :=
    List.forall_mem_append.2 ⟨(isNumeral_iff.1 numeral).2, (isNumeral_iff.1 numeral').2⟩
  have other : ∀ c ∈ sign ++ (lead ++ '.' :: trail), c = '-' ∨ c = '.' ∨ c.isDigit = true := by
    intro c member
    simp only [List.mem_append, List.mem_cons] at member
    rcases member with inSign | inLead | rfl | inTrail
    · rcases signed with rfl | rfl
      · cases inSign
      · exact .inl (List.mem_singleton.1 inSign)
    · exact .inr (.inr (digit c (List.mem_append_left _ inLead)))
    · exact .inr (.inl rfl)
    · exact .inr (.inr (digit c (List.mem_append_right _ inTrail)))
  have unmarked : ∀ c ∈ sign ++ (lead ++ '.' :: trail), (!(c == 'e' || c == 'E')) = true := by
    intro c member
    rcases other c member with rfl | rfl | digit
    · rfl
    · rfl
    · simp [Char.ne_of_isDigit digit]
  have whole : ∀ c ∈ sign ++ lead, (c != '.') = true := by
    refine List.forall_mem_append.2 ⟨fun c member => ?_, fun c member => ?_⟩
    · rcases signed with rfl | rfl
      · cases member
      · rw [List.mem_singleton.1 member]
        rfl
    · exact bne_iff_ne.2 (ne_of_mem_isNumeral numeral rfl member)
  have plain : trail.filter (· != '_') = trail := List.filter_eq_self.2 fun c member =>
    bne_iff_ne.2 (ne_of_mem_isNumeral numeral' rfl member)
  have digits : readSigned? (sign ++ lead ++ trail)
      = some (withSign sign (ofDigits (lead ++ trail))) := by
    have all := isNumeral_append numeral numeral'
    rcases signed with rfl | rfl
    · rw [List.nil_append, readSigned?_of_isNumeral all, withSign, if_pos rfl]
    · rw [List.append_assoc, List.singleton_append, readSigned?, readDigits?_of_isNumeral all]
      rfl
  rw [ofChars?]
  simp only [List.takeWhile_eq_self_iff.2 unmarked, List.dropWhile_eq_nil_iff.2 unmarked]
  rw [readBase?, ← List.append_assoc, List.takeWhile_append_of_pos whole,
    List.dropWhile_append_of_pos whole]
  simp only [List.takeWhile_cons, List.dropWhile_cons, bne_self_eq_false, Bool.false_eq_true,
    if_false, List.append_nil, List.drop_succ_cons, List.drop_zero, plain, digits, Int.sub_zero]

/-- A decimal that is written with a point is read as it is written. -/
theorem Pointed.ofChars?_text (h : d.Pointed) (fits : scaleFits d.scale = true) :
    ofChars? d.text.toList = some d := by
  obtain ⟨lead, trail, numeral, numeral', length, value, written⟩ := h.exists_digits
  rw [written, ofChars?_digits (signOf_eq _) numeral numeral', length, fits, if_pos rfl, value,
    withSign_signOf]

/-- A scale that was read fits into 64 bits. -/
theorem scaleFits_of_ofChars? {cs : List Char} (h : ofChars? cs = some d) :
    scaleFits d.scale = true := by
  have base : ∀ cs exponent, readBase? cs exponent = some d → scaleFits d.scale = true := by
    intro cs exponent h
    unfold readBase? at h
    dsimp only at h
    split at h
    · split at h
      · next fits =>
        obtain rfl := Option.some.inj h
        exact fits
      · cases h
    · cases h
  unfold ofChars? at h
  dsimp only at h
  split at h
  · exact base _ _ h
  · obtain ⟨exponent, _, h⟩ := Option.bind_eq_some_iff.1 h
    exact base _ _ h

end Decimal

namespace Date

open Numeral

variable {year month day rest : List Char} {width : Nat} {d : Date}

/-- As many digits as may be read are read. -/
theorem readNumber?_append (numeral : isNumeral year = true) (length : year.length = width) :
    readNumber? width (year ++ rest) = some (ofDigits year, rest) := by
  obtain ⟨nonempty, digits⟩ := isNumeral_iff.1 numeral
  have taken : ((year ++ rest).take width).takeWhile Char.isDigit = year := by
    rw [← length, List.take_left, List.takeWhile_eq_self_iff.2 digits]
  unfold readNumber?
  simp only [taken, List.drop_left]
  rw [if_neg (by simpa using nonempty)]

theorem dropWhile_isBlank (numeral : isNumeral year = true) :
    (year ++ rest).dropWhile isBlank = year ++ rest := by
  obtain ⟨nonempty, digits⟩ := isNumeral_iff.1 numeral
  obtain ⟨c, cs, rfl⟩ := List.exists_cons_of_ne_nil nonempty
  rw [List.cons_append, List.dropWhile_cons, isBlank_of_isDigit (digits c List.mem_cons_self)]
  rfl

theorem readPart?_append (numeral : isNumeral month = true) (length : month.length = 2) :
    readPart? (month ++ rest) = some (ofDigits month, rest) := by
  rw [readPart?, dropWhile_isBlank numeral, readNumber?_append numeral length]

theorem readYear?_append (numeral : isNumeral year = true) (length : year.length = 4) :
    readYear? (year ++ rest) = some ((ofDigits year : Int), rest) := by
  obtain ⟨nonempty, digits⟩ := isNumeral_iff.1 numeral
  have read : readNumber? 4 (year ++ rest) = some (ofDigits year, rest) :=
    readNumber?_append numeral length
  unfold readYear?
  rw [dropWhile_isBlank numeral]
  obtain ⟨c, cs, rfl⟩ := List.exists_cons_of_ne_nil nonempty
  have digit := digits c List.mem_cons_self
  split
  · next same => exact absurd (List.cons.inj same).1 (Char.ne_of_isDigit digit rfl)
  · next same => exact absurd (List.cons.inj same).1 (Char.ne_of_isDigit digit rfl)
  · rw [read]
    rfl

/-- Four, two and two digits are read as year, month and day. -/
theorem ofChars?_digits (numeralYear : isNumeral year = true) (lengthYear : year.length = 4)
    (numeralMonth : isNumeral month = true) (lengthMonth : month.length = 2)
    (numeralDay : isNumeral day = true) (lengthDay : day.length = 2) :
    ofChars? (year ++ '-' :: (month ++ '-' :: day))
      = ofNumbers? (ofDigits year) (ofDigits month) (ofDigits day) := by
  have last : readPart? (day ++ []) = some (ofDigits day, []) :=
    readPart?_append numeralDay lengthDay
  rw [List.append_nil] at last
  rw [ofChars?, readYear?_append numeralYear lengthYear]
  simp only [Option.bind_eq_bind, Option.bind_some, readHyphen?,
    readPart?_append numeralMonth lengthMonth, last, List.isEmpty_nil, if_true]

/-- Year, month and day with as many digits as the syntax has for them. -/
theorem exists_digits (low : 0 ≤ d.year) (high : d.year ≤ 9999) : ∃ year month day,
    (isNumeral year = true ∧ year.length = 4) ∧ (isNumeral month = true ∧ month.length = 2) ∧
      (isNumeral day = true ∧ day.length = 2) ∧
      d.text.toList = year ++ '-' :: (month ++ '-' :: day) ∧ ofChars? d.text.toList = some d := by
  have real := d.real
  simp only [isCalendarDay, Bool.and_eq_true, decide_eq_true_eq] at real
  have most : daysInMonth d.year d.month ≤ 31 := by
    unfold daysInMonth
    split_ifs <;> omega
  have written : d.text.toList = padded 4 d.year.natAbs ++
      '-' :: (padded 2 d.month ++ '-' :: padded 2 d.day) := by
    rw [text, yearText, if_neg (by omega), if_neg (by omega)]
    simp [String.toList_append]
  have lengthYear : (padded 4 d.year.natAbs).length = 4 := length_padded (by decide) (by omega)
  have lengthMonth : (padded 2 d.month).length = 2 := length_padded (by decide) (by omega)
  have lengthDay : (padded 2 d.day).length = 2 := length_padded (by decide) (by omega)
  refine ⟨_, _, _, ⟨isNumeral_padded .., lengthYear⟩, ⟨isNumeral_padded .., lengthMonth⟩,
    ⟨isNumeral_padded .., lengthDay⟩, written, ?_⟩
  rw [written, ofChars?_digits (isNumeral_padded ..) lengthYear (isNumeral_padded ..) lengthMonth
    (isNumeral_padded ..) lengthDay, ofDigits_padded, ofDigits_padded, ofDigits_padded,
    show (d.year.natAbs : Int) = d.year by omega]
  exact dif_pos d.real

/-- A year that is read from four digits is not before the year 0 and not behind the year 9999. -/
theorem year_range (numeralYear : isNumeral year = true) (lengthYear : year.length = 4)
    (numeralMonth : isNumeral month = true) (lengthMonth : month.length = 2)
    (numeralDay : isNumeral day = true) (lengthDay : day.length = 2)
    (read : ofChars? (year ++ '-' :: (month ++ '-' :: day)) = some d) :
    0 ≤ d.year ∧ d.year ≤ 9999 := by
  have small := ofDigits_lt (isNumeral_iff.1 numeralYear).2
  rw [lengthYear] at small
  rw [ofChars?_digits numeralYear lengthYear numeralMonth lengthMonth numeralDay lengthDay,
    ofNumbers?] at read
  split at read
  · obtain rfl := Option.some.inj read
    exact ⟨Int.natCast_nonneg _, by dsimp only; omega⟩
  · cases read

end Date

end QuadQuery
