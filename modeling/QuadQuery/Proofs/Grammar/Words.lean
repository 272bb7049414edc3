import QuadQuery.Grammar.Meaning
import QuadQuery.Proofs.Grammar.Numerals
import QuadQuery.Proofs.Grammar.Reading

/-!
# The words of terms and variables

The text of a term or a variable is taken as one word wherever a name or a number would end behind
it, and the word stands for the term or the variable again (`Slot.Readable.reaches`). What can be
written like this is what words can stand for (`yields_slot`), except that some decimals
are not written as they were read.
-/

namespace QuadQuery.Grammar

open Recognizer Numeral

/-! ## Scans -/

/-- A name or a number ends in front of the text. -/
def Stops (cs : List Char) : Prop :=
  ∀ c ∈ cs.head?, isLayoutBlank c = true ∨ c = '#' ∨ c = '(' ∨ c = ')'

theorem Layout.stops {gap : List Char} (layout : Layout gap) (some : gap ≠ []) (rest : List Char) :
    Stops (gap ++ rest) := by
  cases layout with
  | nil => exact absurd rfl some
  | blank isBlank _ =>
    rintro c ⟨⟩
    exact .inl isBlank
  | comment _ _ =>
    rintro c ⟨⟩
    exact .inr (.inl rfl)

theorem Stops.not_nameChar {cs : List Char} (h : Stops cs) :
    ∀ c ∈ cs.head?, Token.isNameChar c = false := by
  intro c first
  have blanks : ∀ c, isLayoutBlank c = true → c = ' ' ∨ c = '\t' ∨ c = '\r' ∨ c = '\n' := by
    simp [isLayoutBlank, or_assoc]
  rcases h c first with blank | rfl | rfl | rfl
  · rcases blanks c blank with rfl | rfl | rfl | rfl <;> rfl
  all_goals rfl

theorem Stops.not_digit {cs : List Char} (h : Stops cs) : ∀ c ∈ cs.head?, c.isDigit = false := by
  intro c first
  have name := h.not_nameChar c first
  simp only [Token.isNameChar, Bool.or_eq_false_iff, Char.isAlphanum] at name
  exact name.1.1.2

namespace Token

variable {text word rest mid : List Char} {first second : Scan} {kind : Char → Bool} {c c' : Char}
  {count : Nat}

/-- A name consists of name characters. -/
def IsName (cs : List Char) : Prop :=
  cs ≠ [] ∧ ∀ c ∈ cs, isNameChar c = true

/-- A name does not begin with a question mark. -/
theorem IsName.dropWhile_mark {cs : List Char} (h : IsName cs) : cs.dropWhile (· == '?') = cs := by
  obtain ⟨nonempty, all⟩ := h
  obtain ⟨c, cs, rfl⟩ := List.exists_cons_of_ne_nil nonempty
  have other : (c == '?') = false := beq_eq_false_iff_ne.2 fun mark =>
    absurd (mark ▸ all c List.mem_cons_self) (by decide)
  simp [other]

theorem fixed_append (word rest : List Char) : fixed word (word ++ rest) = some (word, rest) := by
  simp [fixed]

theorem both_of_some {more : List Char} (h : first text = some (word, mid))
    (h' : second mid = some (more, rest)) : both first second text = some (word ++ more, rest) := by
  simp [both, h, h']

theorem run_append (nonempty : word ≠ []) (all : ∀ c ∈ word, kind c = true)
    (ends : ∀ c ∈ rest.head?, kind c = false) : run kind (word ++ rest) = some (word, rest) := by
  have left : rest.takeWhile kind = [] ∧ rest.dropWhile kind = rest := by
    cases rest with
    | nil => exact ⟨rfl, rfl⟩
    | cons c rest => simp [ends c rfl]
  rw [run, List.takeWhile_append_of_pos all, List.dropWhile_append_of_pos all, left.1, left.2,
    List.append_nil, if_neg (by simpa using nonempty)]

theorem digits_append (numeral : isNumeral word = true) (length : word.length = count)
    (rest : List Char) : digits count (word ++ rest) = some (word, rest) := by
  have all := List.all_eq_true.2 (isNumeral_iff.1 numeral).2
  unfold digits
  simp only [← length, List.take_left, List.drop_left, all, decide_true, Bool.and_self, if_true]

theorem delimited_append (c : Char) (inside : c' ∉ word) (rest : List Char) :
    delimited c c' (c :: (word ++ c' :: rest)) = some (c :: (word ++ [c']), rest) := by
  have others : ∀ x ∈ word, (x != c') = true := fun x member =>
    bne_iff_ne.2 fun same => inside (same ▸ member)
  simp [delimited, List.takeWhile_append_of_pos others, List.dropWhile_append_of_pos others]

theorem sign_append {sign : List Char} (signed : sign = [] ∨ sign = ['-'])
    (numeral : isNumeral word = true) : Token.sign (sign ++ (word ++ rest)) = some (sign, word ++ rest) := by
  obtain ⟨nonempty, digits⟩ := isNumeral_iff.1 numeral
  obtain ⟨c, cs, rfl⟩ := List.exists_cons_of_ne_nil nonempty
  have other : ('-' == c) = false :=
    beq_eq_false_iff_ne.2 (Char.ne_of_isDigit (digits c List.mem_cons_self) rfl).symm
  rcases signed with rfl | rfl
  · simp [Token.sign, possibly, fixed, List.isPrefixOf, other]
  · simp [Token.sign, possibly, fixed]

/-! ## What was taken -/

theorem word_of_fixed {fixedWord : List Char} (h : fixed fixedWord text = some (word, rest)) :
    word = fixedWord := by
  unfold fixed at h
  split at h
  · exact (Prod.mk.inj (Option.some.inj h)).1.symm
  · cases h

theorem words_of_both (h : both first second text = some (word, rest)) : ∃ taken mid more,
    first text = some (taken, mid) ∧ second mid = some (more, rest) ∧ word = taken ++ more := by
  simp only [both, Option.bind_eq_bind, Option.bind_eq_some_iff, Prod.exists] at h
  obtain ⟨taken, mid, here, more, rest', there, same⟩ := h
  cases same
  exact ⟨taken, mid, more, here, there, rfl⟩

theorem isName_of_name (h : name text = some (word, rest)) : IsName word := by
  unfold name run at h
  split at h
  · cases h
  · next some =>
    cases h
    exact ⟨by simpa using some, fun c member => List.mem_takeWhile_imp member⟩

theorem numeral_of_digits (pos : 0 < count) (h : digits count text = some (word, rest)) :
    isNumeral word = true ∧ word.length = count := by
  unfold digits at h
  dsimp only at h
  split at h
  · next both =>
    cases h
    simp only [Bool.and_eq_true, decide_eq_true_eq, List.all_eq_true] at both
    refine ⟨isNumeral_iff.2 ⟨fun none => ?_, both.2⟩, both.1⟩
    rw [none, List.length_nil] at both
    omega
  · cases h

theorem word_of_delimited (h : delimited c c' text = some (word, rest)) :
    ∃ inside, c' ∉ inside ∧ word = c :: (inside ++ [c']) := by
  unfold delimited at h
  split at h
  · cases h
  · next x cs =>
    split at h
    · cases h
    · next opens =>
      split at h
      · cases h
      · next last more ends =>
        cases h
        obtain rfl : x = c := by simpa using opens
        have closes : last = c' := by
          have fails := List.head?_dropWhile_not (· != c') cs
          rw [ends] at fails
          simpa using fails
        refine ⟨cs.takeWhile (· != c'), fun member => ?_, by rw [closes]; rfl⟩
        simpa using List.mem_takeWhile_imp member

theorem word_of_date (h : date text = some (word, rest)) : ∃ year month day,
    isNumeral year = true ∧ year.length = 4 ∧ isNumeral month = true ∧ month.length = 2 ∧
      isNumeral day = true ∧ day.length = 2 ∧
      word = '\'' :: ((year ++ '-' :: (month ++ '-' :: day)) ++ ['\'']) := by
  obtain ⟨_, _, _, mark, fromYear, rfl⟩ := words_of_both h
  obtain ⟨year, _, _, digitsY, fromHyphen, rfl⟩ := words_of_both fromYear
  obtain ⟨_, _, _, hyphen, fromMonth, rfl⟩ := words_of_both fromHyphen
  obtain ⟨month, _, _, digitsM, fromHyphen', rfl⟩ := words_of_both fromMonth
  obtain ⟨_, _, _, hyphen', fromDay, rfl⟩ := words_of_both fromHyphen'
  obtain ⟨day, _, _, digitsD, mark', rfl⟩ := words_of_both fromDay
  obtain rfl := word_of_fixed mark
  obtain rfl := word_of_fixed hyphen
  obtain rfl := word_of_fixed hyphen'
  obtain rfl := word_of_fixed mark'
  obtain ⟨numeralY, lengthY⟩ := numeral_of_digits (by decide) digitsY
  obtain ⟨numeralM, lengthM⟩ := numeral_of_digits (by decide) digitsM
  obtain ⟨numeralD, lengthD⟩ := numeral_of_digits (by decide) digitsD
  exact ⟨year, month, day, numeralY, lengthY, numeralM, lengthM, numeralD, lengthD, by simp⟩

theorem numeral_of_run (h : run Char.isDigit text = some (word, rest)) : isNumeral word = true := by
  unfold run at h
  split at h
  · cases h
  · next some =>
    cases h
    exact isNumeral_iff.2 ⟨by simpa using some, fun c member => List.mem_takeWhile_imp member⟩

theorem word_of_sign (h : sign text = some (word, rest)) : word = [] ∨ word = ['-'] := by
  unfold sign possibly at h
  cases here : fixed ['-'] text with
  | none =>
    rw [here] at h
    cases h
    exact .inl rfl
  | some taken =>
    rw [here] at h
    cases h
    exact .inr (word_of_fixed here)

theorem word_of_decimal (h : decimal text = some (word, rest)) : ∃ sign lead trail,
    (sign = [] ∨ sign = ['-']) ∧ isNumeral lead = true ∧ isNumeral trail = true ∧
      word = sign ++ (lead ++ '.' :: trail) := by
  obtain ⟨sign, _, _, signed, fromLead, rfl⟩ := words_of_both h
  obtain ⟨lead, _, _, digits, fromPoint, rfl⟩ := words_of_both fromLead
  obtain ⟨_, _, trail, point, digits', rfl⟩ := words_of_both fromPoint
  obtain rfl := word_of_fixed point
  exact ⟨sign, lead, trail, word_of_sign signed, numeral_of_run digits, numeral_of_run digits', rfl⟩

theorem word_of_integer (h : integer text = some (word, rest)) : ∃ sign digits,
    (sign = [] ∨ sign = ['-']) ∧ isNumeral digits = true ∧ word = sign ++ digits := by
  obtain ⟨sign, _, digits, signed, ran, rfl⟩ := words_of_both h
  exact ⟨sign, digits, word_of_sign signed, numeral_of_run ran, rfl⟩

end Token

/-! ## Terms -/

namespace TermKind

/-- The kinds in the order in which they are tried. -/
def all : List TermKind := [iri, blank, string, date, decimal, integer]

/-- The scan for words of the kind. -/
def scan : TermKind → Token.Scan
  | iri => Token.iri
  | blank => Token.blank
  | string => Token.string
  | date => Token.date
  | decimal => Token.decimal
  | integer => Token.integer

/-- The rule for words of the kind. -/
def rule : TermKind → Rule
  | iri => .iri
  | blank => .blank
  | string => .string
  | date => .date
  | decimal => .decimal
  | integer => .integer

theorem exists_all_eq (k : TermKind) : ∃ after, all = all.takeWhile (· ≠ k) ++ k :: after := by
  cases k <;> exact ⟨_, rfl⟩

end TermKind

/-- The characters that the words of terms begin with. -/
def IsTermStart (c : Char) : Prop :=
  c ∈ ['<', '_', '"', '\'', '-'] ∨ c.isDigit = true

/-- The word is the one that stands for the term, and is taken in front of the rest. -/
structure Spells (k : TermKind) (t : Term) (rest : List Char) : Prop where
  head : ∃ c cs, t.text.toList = c :: cs ∧ IsTermStart c
  scan : k.scan (t.text.toList ++ rest) = some (t.text.toList, rest)
  others : ∀ k' ∈ TermKind.all.takeWhile (· ≠ k), k'.scan (t.text.toList ++ rest) = none
  meaning : ∀ offset, TermTree.meaning ⟨k, t.text.toList, offset⟩ = .ok t

end QuadQuery.Grammar

namespace QuadQuery

open Grammar Numeral

/-- The term is one that a word can stand for. -/
def Term.Writable : Term → Prop
  | .iri name => '>' ∉ name.toList
  | .blank label => Token.IsName label.toList
  | .str content => '"' ∉ content.toList
  | .integer value => integerMin ≤ value ∧ value ≤ integerMax
  | .decimal value => Decimal.scaleFits value.scale = true
  | .date value => 0 ≤ value.year ∧ value.year ≤ 9999

/-- The slot is one that a word can stand for. -/
def Slot.Writable : Slot → Prop
  | .term t => t.Writable
  | .var v => Token.IsName v.name.toList

/-- The slot is written as a word that stands for it: decimals need a point and no exponent. -/
def Slot.Readable (s : Slot) : Prop :=
  s.Writable ∧ ∀ d, s = .term (.decimal d) → d.Pointed

end QuadQuery

namespace QuadQuery.Grammar

open Recognizer Numeral

section

variable {rest : List Char} {c : Char} {cs : List Char}

theorem iri_none (other : c ≠ '<') : Token.iri (c :: cs) = none := by
  simp [Token.iri, Token.delimited, other]

theorem blank_none (other : c ≠ '_') : Token.blank (c :: cs) = none := by
  have differ : ('_' == c) = false := beq_eq_false_iff_ne.2 other.symm
  simp [Token.blank, Token.both, Token.fixed, List.isPrefixOf, differ]

theorem string_none (other : c ≠ '"') : Token.string (c :: cs) = none := by
  simp [Token.string, Token.delimited, other]

theorem date_none (other : c ≠ '\'') : Token.date (c :: cs) = none := by
  have differ : ('\'' == c) = false := beq_eq_false_iff_ne.2 other.symm
  simp [Token.date, Token.both, Token.fixed, List.isPrefixOf, differ]

theorem var_none (other : c ≠ '?') : Token.var (c :: cs) = none := by
  have differ : ('?' == c) = false := beq_eq_false_iff_ne.2 other.symm
  simp [Token.var, Token.both, Token.fixed, List.isPrefixOf, differ]

theorem inside_word (c c' : Char) (cs : List Char) :
    TermTree.inside (c :: (cs ++ [c'])) = String.ofList cs := by
  simp [TermTree.inside]

theorem spells_iri {name : String} (closed : '>' ∉ name.toList) (rest : List Char) :
    Spells .iri (.iri name) rest := by
  have written : (Term.iri name).text.toList = '<' :: (name.toList ++ ['>']) := by
    simp [Term.text, String.toList_append]
  refine ⟨⟨_, _, written, .inl (by simp)⟩, ?_, nofun, fun offset => ?_⟩
  · rw [written, List.cons_append, List.append_assoc]
    exact Token.delimited_append '<' closed rest
  · rw [written, TermTree.meaning, inside_word, String.ofList_toList]

theorem spells_blank {label : String} (name : Token.IsName label.toList) (stops : Stops rest) :
    Spells .blank (.blank label) rest := by
  have written : (Term.blank label).text.toList = ['_', ':'] ++ label.toList := by
    simp [Term.text, String.toList_append]
  refine ⟨⟨_, _, written, .inl (by simp)⟩, ?_, ?_, fun offset => ?_⟩
  · rw [written, List.append_assoc]
    exact Token.both_of_some (Token.fixed_append ..)
      (Token.run_append name.1 name.2 stops.not_nameChar)
  · rw [written]
    simp [TermKind.all, TermKind.scan, iri_none]
  · rw [written]
    simp [TermTree.meaning]

theorem spells_str {content : String} (closed : '"' ∉ content.toList) (rest : List Char) :
    Spells .string (.str content) rest := by
  have written : (Term.str content).text.toList = '"' :: (content.toList ++ ['"']) := by
    simp [Term.text, String.toList_append]
  refine ⟨⟨_, _, written, .inl (by simp)⟩, ?_, ?_, fun offset => ?_⟩
  · rw [written, List.cons_append, List.append_assoc]
    exact Token.delimited_append '"' closed rest
  · rw [written]
    simp [TermKind.all, TermKind.scan, iri_none, blank_none]
  · rw [written, TermTree.meaning, inside_word, String.ofList_toList]

theorem spells_date {value : Date} (low : 0 ≤ value.year) (high : value.year ≤ 9999)
    (rest : List Char) : Spells .date (.date value) rest := by
  obtain ⟨year, month, day, ⟨numeralY, lengthY⟩, ⟨numeralM, lengthM⟩, ⟨numeralD, lengthD⟩, digits,
    read⟩ := Date.exists_digits low high
  have written : (Term.date value).text.toList = '\'' :: (value.text.toList ++ ['\'']) := by
    simp [Term.text, String.toList_append]
  refine ⟨⟨_, _, written, .inl (by simp)⟩, ?_, ?_, fun offset => ?_⟩
  · have taken : Token.date (['\''] ++ (year ++ (['-'] ++ (month ++ (['-'] ++ (day ++
        (['\''] ++ rest)))))))
        = some (['\''] ++ (year ++ (['-'] ++ (month ++ (['-'] ++ (day ++ ['\'']))))), rest) :=
      Token.both_of_some (Token.fixed_append ..) <|
        Token.both_of_some (Token.digits_append numeralY lengthY _) <|
        Token.both_of_some (Token.fixed_append ..) <|
        Token.both_of_some (Token.digits_append numeralM lengthM _) <|
        Token.both_of_some (Token.fixed_append ..) <|
        Token.both_of_some (Token.digits_append numeralD lengthD _) (Token.fixed_append ..)
    rw [written, digits]
    simpa [TermKind.scan] using taken
  · rw [written]
    simp [TermKind.all, TermKind.scan, iri_none, blank_none, string_none]
  · rw [written, TermTree.meaning, inside_word, String.ofList_toList, Date.ofText?, read]

theorem start_of_number {sign digits : List Char} (signed : sign = [] ∨ sign = ['-'])
    (numeral : isNumeral digits = true) : ∃ c cs, sign ++ digits = c :: cs ∧
      (c = '-' ∨ c.isDigit = true) := by
  obtain ⟨nonempty, all⟩ := isNumeral_iff.1 numeral
  obtain ⟨c, cs, rfl⟩ := List.exists_cons_of_ne_nil nonempty
  rcases signed with rfl | rfl
  · exact ⟨c, cs, rfl, .inr (all c List.mem_cons_self)⟩
  · exact ⟨'-', _, rfl, .inl rfl⟩

/-- What begins like a number is no other word. -/
theorem scans_none_of_number (start : c = '-' ∨ c.isDigit = true) (cs : List Char) :
    Token.iri (c :: cs) = none ∧ Token.blank (c :: cs) = none ∧ Token.string (c :: cs) = none ∧
      Token.date (c :: cs) = none := by
  have other : ∀ x : Char, x ≠ '-' → x.isDigit = false → c ≠ x := by
    rintro x notMinus notDigit rfl
    exact start.elim notMinus fun digit => absurd (digit.symm.trans notDigit) nofun
  exact ⟨iri_none (other _ (by decide) rfl), blank_none (other _ (by decide) rfl),
    string_none (other _ (by decide) rfl), date_none (other _ (by decide) rfl)⟩

theorem spells_decimal {value : Decimal} (pointed : value.Pointed)
    (fits : Decimal.scaleFits value.scale = true) (stops : Stops rest) :
    Spells .decimal (.decimal value) rest := by
  obtain ⟨lead, trail, numeral, numeral', _, _, written⟩ := pointed.exists_digits
  have signed := signOf_eq value.digits
  generalize signOf value.digits = sign at signed written
  have written : (Term.decimal value).text.toList = sign ++ (lead ++ '.' :: trail) := written
  obtain ⟨c, cs, begins, start⟩ := start_of_number signed numeral
  obtain ⟨noIri, noBlank, noString, noDate⟩ :=
    scans_none_of_number start (cs ++ ('.' :: (trail ++ rest)))
  have front : sign ++ (lead ++ '.' :: trail) ++ rest = c :: (cs ++ ('.' :: (trail ++ rest))) := by
    rw [← List.cons_append, ← begins]
    simp
  refine ⟨⟨c, cs ++ '.' :: trail, ?_, start.imp (by rintro rfl; simp) id⟩, ?_, ?_, fun offset => ?_⟩
  · rw [written, ← List.append_assoc, begins, List.cons_append]
  · obtain ⟨nonempty, digits⟩ := isNumeral_iff.1 numeral
    obtain ⟨nonempty', digits'⟩ := isNumeral_iff.1 numeral'
    have taken : Token.decimal (sign ++ (lead ++ (['.'] ++ (trail ++ rest))))
        = some (sign ++ (lead ++ (['.'] ++ trail)), rest) :=
      Token.both_of_some (Token.sign_append signed numeral) <|
        Token.both_of_some (Token.run_append nonempty digits (by rintro _ ⟨⟩; rfl)) <|
        Token.both_of_some (Token.fixed_append ..)
          (Token.run_append nonempty' digits' stops.not_digit)
    rw [written]
    simpa [TermKind.scan] using taken
  · rw [written, front]
    simp [TermKind.all, TermKind.scan, noIri, noBlank, noString, noDate]
  · rw [show (Term.decimal value).text = value.text from rfl, TermTree.meaning,
      pointed.ofChars?_text fits]

theorem spells_integer {value : Int} (low : integerMin ≤ value) (high : value ≤ integerMax)
    (stops : Stops rest) : Spells .integer (.integer value) rest := by
  obtain ⟨sign, digits, signed, numeral, written, read⟩ := readInteger_toString low high
  have written : (Term.integer value).text.toList = sign ++ digits := written
  obtain ⟨c, cs, begins, start⟩ := start_of_number signed numeral
  obtain ⟨noIri, noBlank, noString, noDate⟩ := scans_none_of_number start (cs ++ rest)
  obtain ⟨nonempty, all⟩ := isNumeral_iff.1 numeral
  have ran : Token.run Char.isDigit (digits ++ rest) = some (digits, rest) :=
    Token.run_append nonempty all stops.not_digit
  refine ⟨⟨c, cs, written.trans begins, start.imp (by rintro rfl; simp) id⟩, ?_, ?_, fun offset => ?_⟩
  · rw [written, List.append_assoc]
    exact Token.both_of_some (Token.sign_append signed numeral) ran
  · -- A decimal would go on with a point.
    have noDecimal : Token.decimal (sign ++ (digits ++ rest)) = none := by
      have noPoint : Token.fixed ['.'] rest = none := by
        cases rest with
        | nil => rfl
        | cons x more =>
          have other : ('.' == x) = false := beq_eq_false_iff_ne.2 (by
            rintro rfl
            exact absurd (stops '.' rfl) (by decide))
          simp [Token.fixed, List.isPrefixOf, other]
      simp [Token.decimal, Token.both, Token.sign_append signed numeral, ran, noPoint]
    rw [written, List.append_assoc]
    have front : sign ++ (digits ++ rest) = c :: (cs ++ rest) := by
      rw [← List.append_assoc, begins, List.cons_append]
    rw [front] at noDecimal ⊢
    simp [TermKind.all, TermKind.scan, noIri, noBlank, noString, noDate, noDecimal]
  · rw [TermTree.meaning, Term.integerOfChars,
      show (Term.integer value).text = toString value from rfl, read]
    rfl

/-- A term that is readable is spelled by its text. -/
theorem exists_spells {t : Term} (readable : (Slot.term t).Readable) (stops : Stops rest) :
    ∃ k, Spells k t rest := by
  obtain ⟨writable, pointed⟩ := readable
  cases t with
  | iri name => exact ⟨_, spells_iri writable rest⟩
  | blank label => exact ⟨_, spells_blank writable stops⟩
  | str content => exact ⟨_, spells_str writable rest⟩
  | integer value => exact ⟨_, spells_integer writable.1 writable.2 stops⟩
  | decimal value => exact ⟨_, spells_decimal (pointed value rfl) writable stops⟩
  | date value => exact ⟨_, spells_date writable.1 writable.2 rest⟩

theorem takes_termWord {rule : Rule} {k : TermKind} {scan : Token.Scan} {text word : List Char}
    (h : scan text = some (word, rest)) :
    (termWord rule k scan).Takes text rest fun t => t.kind = k ∧ t.word = word :=
  .tracked <| takes_offset.bind fun _ _ => (takes_scanned h).bind_pure fun _ same => ⟨rfl, same⟩

theorem rejects_termWord {rule : Rule} {k : TermKind} {scan : Token.Scan} {text : List Char}
    (h : scan text = none) : (termWord rule k scan).Rejects text :=
  .tracked <| takes_offset.bind_rejects fun _ => (rejects_scanned h).bind _

theorem term_eq : term = tracked .term (firstOf (TermKind.all.map fun k => termWord k.rule k k.scan)) :=
  rfl

theorem Spells.reaches {k : TermKind} {t : Term} (h : Spells k t rest) :
    term.Reaches (t.text.toList ++ rest) rest fun tree => tree.meaning = .ok t := by
  obtain ⟨after, same⟩ := k.exists_all_eq
  have read : (termWord k.rule k k.scan).Reaches (t.text.toList ++ rest) rest
      fun tree => tree.meaning = .ok t := by
    refine ((takes_termWord h.scan).mono ?_).reaches
    rintro ⟨_, _, offset⟩ ⟨rfl, rfl⟩
    exact h.meaning offset
  rw [term_eq, same, List.map_append, List.map_cons]
  refine .tracked (reaches_firstOf read ?_)
  simp only [List.mem_map, forall_exists_index, and_imp, forall_apply_eq_imp_iff₂]
  exact fun k' before => rejects_termWord (h.others k' before)

/-- A name is written as a variable behind a question mark. -/
theorem reaches_var {v : Variable} (name : Token.IsName v.name.toList) (stops : Stops rest) :
    var.Reaches (v.text.toList ++ rest) rest
      fun word => Variable.ofText (String.ofList word) = v := by
  have written : v.text.toList = ['?'] ++ v.name.toList := by
    simp [Variable.text, String.toList_append]
  have scan : Token.var (['?'] ++ (v.name.toList ++ rest)) = some (['?'] ++ v.name.toList, rest) :=
    Token.both_of_some (Token.fixed_append ..) (Token.run_append name.1 name.2 stops.not_nameChar)
  rw [written, List.append_assoc]
  refine ((takes_scanned scan).mono ?_).tracked.reaches
  rintro _ rfl
  simp [Variable.ofText, name.dropWhile_mark]

/-- The text of a readable slot begins with a character of its own. -/
theorem exists_slot_start {s : Slot} (readable : s.Readable) : ∃ c cs, s.text.toList = c :: cs ∧
    (c = '?' ∨ IsTermStart c) := by
  cases s with
  | var v =>
    exact ⟨'?', v.name.toList, by simp [Slot.text, Variable.text, String.toList_append], .inl rfl⟩
  | term t =>
    have stops : Stops [] := nofun
    obtain ⟨k, spells⟩ := exists_spells readable stops
    obtain ⟨c, cs, written, start⟩ := spells.head
    exact ⟨c, cs, written, .inr start⟩

end

end QuadQuery.Grammar

namespace QuadQuery

open Grammar Recognizer

variable {s : Slot} {rest : List Char}

/-- A readable slot is read as it is written wherever a name or a number would end. -/
theorem Slot.Readable.reaches (readable : s.Readable) (stops : Stops rest) :
    slot.Reaches (s.text.toList ++ rest) rest fun tree => tree.meaning = .ok s := by
  cases s with
  | var v =>
    refine .tracked (Reaches.orElse_left ?_)
    exact (reaches_var readable.1 stops).bind_pure fun word same => by rw [SlotTree.meaning, same]
  | term t =>
    obtain ⟨k, spells⟩ := exists_spells readable stops
    obtain ⟨c, cs, written, start⟩ := spells.head
    have noVar : Recognizer.var.Rejects (t.text.toList ++ rest) := by
      rw [written]
      refine .tracked (rejects_scanned (var_none ?_))
      rintro rfl
      exact absurd start (by simp [IsTermStart])
    refine .tracked (Reaches.orElse_right (Reaches.orElse_left ?_) (noVar.bind _))
    exact spells.reaches.bind_pure fun tree same => by rw [SlotTree.meaning, same]; rfl

end QuadQuery

/-! ## What words stand for -/

namespace QuadQuery.Grammar

open Recognizer Numeral

/-- The word of the kind stands for the term. -/
def TermKind.Denotes : TermKind → List Char → Term → Prop
  | iri, word, t => t = .iri (TermTree.inside word)
  | blank, word, t => t = .blank (String.ofList (word.drop 2))
  | string, word, t => t = .str (TermTree.inside word)
  | date, word, t => ∃ d, Date.ofText? (TermTree.inside word) = some d ∧ t = .date d
  | decimal, word, t => ∃ d, Decimal.ofChars? word = some d ∧ t = .decimal d
  | integer, word, t => ∃ i, readInteger word = .ok i ∧ t = .integer i

/-- What a word stands for does not depend on its place. -/
theorem TermTree.meaning_eq_ok_iff {tree : TermTree} {t : Term} :
    tree.meaning = .ok t ↔ tree.kind.Denotes tree.word t := by
  obtain ⟨k, word, offset⟩ := tree
  cases k with
  | iri | blank | string => simp [meaning, TermKind.Denotes, eq_comm]
  | date => cases read : Date.ofText? (inside word) <;> simp [meaning, TermKind.Denotes, read, eq_comm]
  | decimal => cases read : Decimal.ofChars? word <;> simp [meaning, TermKind.Denotes, read, eq_comm]
  | integer =>
    cases read : readInteger word <;>
      simp [meaning, TermKind.Denotes, Term.integerOfChars, Except.map, read, eq_comm]

/-- What the words of a kind stand for can be written. -/
theorem writable_of_denotes {k : TermKind} {text word rest : List Char} {t : Term}
    (taken : k.scan text = some (word, rest)) (denotes : k.Denotes word t) : t.Writable := by
  cases k with
  | iri =>
    obtain rfl := denotes
    obtain ⟨inside, closed, rfl⟩ := Token.word_of_delimited taken
    simpa [Term.Writable, TermTree.inside] using closed
  | blank =>
    obtain rfl := denotes
    obtain ⟨_, _, name, mark, named, rfl⟩ := Token.words_of_both taken
    obtain rfl := Token.word_of_fixed mark
    simpa [Term.Writable] using Token.isName_of_name named
  | string =>
    obtain rfl := denotes
    obtain ⟨inside, closed, rfl⟩ := Token.word_of_delimited taken
    simpa [Term.Writable, TermTree.inside] using closed
  | date =>
    obtain ⟨value, read, rfl⟩ := denotes
    obtain ⟨year, month, day, numeralY, lengthY, numeralM, lengthM, numeralD, lengthD, rfl⟩ :=
      Token.word_of_date taken
    rw [Date.ofText?, inside_word, String.toList_ofList] at read
    exact Date.year_range numeralY lengthY numeralM lengthM numeralD lengthD read
  | decimal =>
    obtain ⟨value, read, rfl⟩ := denotes
    exact Decimal.scaleFits_of_ofChars? read
  | integer =>
    obtain ⟨value, read, rfl⟩ := denotes
    exact readInteger_range read

theorem yields_term : term.Yields fun tree => ∀ t, tree.meaning = .ok t → t.Writable := by
  rw [term_eq]
  refine (yields_firstOf ?_).tracked
  simp only [List.mem_map, forall_exists_index, and_imp, forall_apply_eq_imp_iff₂]
  intro k _
  refine (Yields.after fun start => ?_).tracked
  have word : (scanned k.scan).Yields fun word => ∃ text rest, k.scan text = some (word, rest) :=
    yields_scanned fun text word rest taken => ⟨text, rest, taken⟩
  exact word.bind fun word ⟨_, _, taken⟩ => yields_pure fun t means =>
    writable_of_denotes taken (TermTree.meaning_eq_ok_iff.1 means)

theorem yields_var : var.Yields fun word =>
    Token.IsName (Variable.ofText (String.ofList word)).name.toList := by
  refine (yields_scanned fun text word rest taken => ?_).tracked
  obtain ⟨_, _, name, mark, named, rfl⟩ := Token.words_of_both taken
  obtain rfl := Token.word_of_fixed mark
  have isName := Token.isName_of_name named
  simpa [Variable.ofText, isName.dropWhile_mark] using isName

/-- Whatever a slot that is read stands for can be written. -/
theorem yields_slot : slot.Yields fun tree => ∀ s, tree.meaning = .ok s → s.Writable := by
  refine (yields_firstOf ?_).tracked
  refine List.forall_mem_cons.2 ⟨yields_var.bind fun word name => yields_pure ?_,
    List.forall_mem_singleton.2 (yields_term.bind fun tree writable => yields_pure ?_)⟩
  · intro s means
    obtain rfl := Except.ok.inj means
    exact name
  · intro s means
    cases here : tree.meaning with
    | error flaw =>
      rw [SlotTree.meaning, here] at means
      cases means
    | ok t =>
      rw [SlotTree.meaning, here] at means
      obtain rfl := Except.ok.inj means
      exact writable t here

end QuadQuery.Grammar
