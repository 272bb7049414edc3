import QuadQuery.Proofs.Grammar.Words

/-!
# Words at the front of a text

Which word for a term a text begins with depends on the text alone (`Token.term`), and recognizing a
term finds this word (`result_term`). The word and what follows it make up the text
(`Token.append_of_term`), and a line break and other text may follow without changing the word
(`Token.term_append`). So it depends on the front of the text which term it begins with
(`Term.Begins`).
-/

namespace QuadQuery.Grammar

open Recognizer Numeral

namespace Token

variable {text word rest more : List Char} {first second : Scan} {kind : Char → Bool} {c c' : Char}
  {count : Nat}

/-! ## Nothing is lost -/

/-- What the scan takes and what it leaves make up the text. -/
def Splits (scan : Scan) : Prop :=
  ∀ text word rest, scan text = some (word, rest) → word ++ rest = text

theorem splits_fixed (word : List Char) : Splits (fixed word) := by
  intro text taken rest h
  unfold fixed at h
  split at h
  · next begins =>
    cases h
    exact List.prefix_append_drop (List.isPrefixOf_iff_prefix.1 begins) |>.symm
  · cases h

theorem splits_run (kind : Char → Bool) : Splits (run kind) := by
  intro text taken rest h
  unfold run at h
  split at h
  · cases h
  · cases h
    exact List.takeWhile_append_dropWhile

theorem splits_digits (count : Nat) : Splits (digits count) := by
  intro text taken rest h
  unfold digits at h
  dsimp only at h
  split at h
  · cases h
    exact List.take_append_drop count text
  · cases h

theorem splits_delimited (opening closing : Char) : Splits (delimited opening closing) := by
  intro text taken rest h
  unfold delimited at h
  split at h
  · cases h
  · next c cs =>
    split at h
    · cases h
    · split at h
      · cases h
      · next last after ends =>
        cases h
        have whole : cs.takeWhile (· != closing) ++ cs.dropWhile (· != closing) = cs :=
          List.takeWhile_append_dropWhile
        rw [ends] at whole
        simp [whole]

theorem Splits.both (h : Splits first) (h' : Splits second) : Splits (both first second) := by
  intro text taken rest scanned
  obtain ⟨front, mid, back, here, there, rfl⟩ := words_of_both scanned
  rw [List.append_assoc, h' _ _ _ there, h _ _ _ here]

theorem Splits.possibly (h : Splits first) : Splits (possibly first) := by
  intro text taken rest scanned
  unfold Token.possibly at scanned
  cases here : first text with
  | none =>
    rw [here] at scanned
    cases scanned
    rfl
  | some pair =>
    rw [here] at scanned
    cases scanned
    exact h _ _ _ here

/-- One of the scans takes what the first of them that succeeds takes. -/
theorem exists_of_firstOf {scans : List Scan} (h : firstOf scans text = some (word, rest)) :
    ∃ scan ∈ scans, scan text = some (word, rest) := by
  induction scans with
  | nil => cases h
  | cons scan others ih =>
    rcases (Option.orElse_eq_some _ _ _).1 h with here | ⟨_, there⟩
    · exact ⟨scan, List.mem_cons_self, here⟩
    · obtain ⟨other, member, taken⟩ := ih there
      exact ⟨other, List.mem_cons_of_mem _ member, taken⟩

theorem splits_firstOf {scans : List Scan} (h : ∀ scan ∈ scans, Splits scan) :
    Splits (firstOf scans) := by
  intro text word rest taken
  obtain ⟨scan, member, here⟩ := exists_of_firstOf taken
  exact h scan member _ _ _ here

theorem splits_function : Splits function := by
  refine splits_firstOf (List.forall_mem_map.2 fun word _ => ?_)
  exact splits_fixed _

/-- Every word for a function is the name of one. -/
theorem exists_of_function (h : function text = some (word, rest)) :
    ∃ f : Function, word = f.name.toList := by
  obtain ⟨scan, member, taken⟩ := exists_of_firstOf h
  obtain ⟨name, listed, rfl⟩ := List.mem_map.1 member
  obtain rfl := word_of_fixed taken
  fin_cases listed
  exacts [⟨.bound, rfl⟩, ⟨.regex, rfl⟩, ⟨.and, rfl⟩, ⟨.or, rfl⟩, ⟨.compare .ne, rfl⟩, ⟨.not, rfl⟩,
    ⟨.compare .le, rfl⟩, ⟨.compare .ge, rfl⟩, ⟨.compare .lt, rfl⟩, ⟨.compare .gt, rfl⟩,
    ⟨.compare .eq, rfl⟩]

theorem splits_var : Splits var :=
  (splits_fixed _).both (splits_run _)

/-! ## What stands behind a line -/

/-- The scan takes the same if a line break and other text follow. -/
def KeepsBeforeLine (scan : Scan) : Prop :=
  ∀ text later, scan (text ++ '\n' :: later)
    = (scan text).map fun taken => (taken.1, taken.2 ++ '\n' :: later)

theorem isPrefixOf_append_line (other : '\n' ∉ word) (text later : List Char) :
    word.isPrefixOf (text ++ '\n' :: later) = word.isPrefixOf text := by
  induction word generalizing text with
  | nil => simp
  | cons c word ih =>
    obtain ⟨differ, others⟩ := List.ne_and_not_mem_of_not_mem_cons other
    cases text with
    | nil => simp [List.isPrefixOf, differ.symm]
    | cons c' text => rw [List.cons_append, List.isPrefixOf, List.isPrefixOf, ih others]

theorem keeps_fixed (other : '\n' ∉ word) : KeepsBeforeLine (fixed word) := by
  intro text later
  unfold fixed
  rw [isPrefixOf_append_line other]
  split
  · next begins =>
    have short := (List.isPrefixOf_iff_prefix.1 begins).length_le
    rw [Option.map_some, List.drop_append_of_le_length short]
  · rfl

theorem keeps_run (other : kind '\n' = false) : KeepsBeforeLine (run kind) := by
  intro text later
  have taken : (text ++ '\n' :: later).takeWhile kind = text.takeWhile kind ∧
      (text ++ '\n' :: later).dropWhile kind = text.dropWhile kind ++ '\n' :: later := by
    induction text with
    | nil => simp [other]
    | cons c text ih => by_cases here : kind c = true <;> simp [here, ih]
  unfold run
  rw [taken.1, taken.2]
  split <;> rfl

theorem keeps_digits (count : Nat) : KeepsBeforeLine (digits count) := by
  intro text later
  unfold digits
  dsimp only
  by_cases enough : count ≤ text.length
  · rw [List.take_append_of_le_length enough, List.drop_append_of_le_length enough]
    split <;> rfl
  · -- The line break would be among the digits.
    have short : (text.take count).length ≠ count := by
      rw [List.length_take]
      omega
    have member : '\n' ∈ (text ++ '\n' :: later).take count := by
      obtain ⟨extra, rfl⟩ := Nat.exists_eq_add_of_lt (Nat.lt_of_not_le enough)
      rw [List.take_append, show text.length + extra + 1 - text.length = extra + 1 by omega]
      simp
    have notAll : ((text ++ '\n' :: later).take count).all Char.isDigit = false :=
      List.all_eq_false.2 ⟨'\n', member, by decide⟩
    rw [notAll, Bool.and_false, decide_eq_false short, Bool.false_and]
    rfl

theorem KeepsBeforeLine.both (h : KeepsBeforeLine first) (h' : KeepsBeforeLine second) :
    KeepsBeforeLine (both first second) := by
  intro text later
  simp only [Token.both, h text later]
  cases first text with
  | none => rfl
  | some taken =>
    simp only [Option.map_some, Option.bind_eq_bind, Option.bind_some, h' taken.2 later]
    cases second taken.2 <;> rfl

theorem KeepsBeforeLine.possibly (h : KeepsBeforeLine first) : KeepsBeforeLine (possibly first) := by
  intro text later
  simp only [Token.possibly, h text later]
  cases first text <;> rfl

/-- What stands between two characters is found whatever follows. -/
theorem delimited_append_of_some (h : delimited c c' text = some (word, rest)) (more : List Char) :
    delimited c c' (text ++ more) = some (word, rest ++ more) := by
  obtain ⟨inside, closed, rfl⟩ := word_of_delimited h
  rw [← splits_delimited c c' _ _ _ h]
  have found := delimited_append c closed (rest ++ more)
  simpa using found

end Token

/-! ## Terms -/

namespace TermKind

variable {c : Char} {k : TermKind}

/-- The character is one that words of the kind begin with. -/
def Begins : TermKind → Char → Prop
  | iri, c => c = '<'
  | blank, c => c = '_'
  | string, c => c = '"'
  | date, c => c = '\''
  | decimal, c | integer, c => c = '-' ∨ c.isDigit = true

theorem scan_eq_none (other : ¬ k.Begins c) (cs : List Char) : k.scan (c :: cs) = none := by
  have unsigned : c ≠ '-' → Token.sign (c :: cs) = some ([], c :: cs) := by
    intro notMinus
    have differ : ('-' == c) = false := beq_eq_false_iff_ne.2 notMinus.symm
    simp [Token.sign, Token.possibly, Token.fixed, List.isPrefixOf, differ]
  have noRun : c.isDigit = false → Token.run Char.isDigit (c :: cs) = none := by
    intro notDigit
    simp [Token.run, notDigit]
  cases k with
  | iri => exact iri_none other
  | blank => exact blank_none other
  | string => exact string_none other
  | date => exact date_none other
  | decimal | integer =>
    obtain ⟨notMinus, notDigit⟩ := not_or.1 other
    simp [scan, Token.decimal, Token.integer, Token.both, unsigned notMinus,
      noRun (eq_false_of_ne_true notDigit)]

theorem scan_nil (k : TermKind) : k.scan [] = none := by
  cases k <;> rfl

theorem splits (k : TermKind) : Token.Splits k.scan := by
  have sign : Token.Splits Token.sign := (Token.splits_fixed _).possibly
  cases k with
  | iri => exact Token.splits_delimited _ _
  | blank => exact (Token.splits_fixed _).both (Token.splits_run _)
  | string => exact Token.splits_delimited _ _
  | date =>
    exact (Token.splits_fixed _).both <| (Token.splits_digits _).both <|
      (Token.splits_fixed _).both <| (Token.splits_digits _).both <|
      (Token.splits_fixed _).both <| (Token.splits_digits _).both (Token.splits_fixed _)
  | decimal =>
    exact sign.both <| (Token.splits_run _).both <| (Token.splits_fixed _).both (Token.splits_run _)
  | integer => exact sign.both (Token.splits_run _)

theorem word_ne_nil {text word rest : List Char} (h : k.scan text = some (word, rest)) : word ≠ [] := by
  cases k with
  | iri | string =>
    obtain ⟨inside, _, rfl⟩ := Token.word_of_delimited h
    exact List.cons_ne_nil _ _
  | blank =>
    obtain ⟨_, _, name, mark, _, rfl⟩ := Token.words_of_both h
    obtain rfl := Token.word_of_fixed mark
    exact List.cons_ne_nil _ _
  | date =>
    obtain ⟨year, month, day, _, _, _, _, _, _, rfl⟩ := Token.word_of_date h
    exact List.cons_ne_nil _ _
  | decimal =>
    obtain ⟨sign, lead, trail, _, _, _, rfl⟩ := Token.word_of_decimal h
    simp
  | integer =>
    obtain ⟨sign, digits, _, numeral, rfl⟩ := Token.word_of_integer h
    simp [(isNumeral_iff.1 numeral).1]

/-- The kinds of words that go on to a closing character, over any number of lines. -/
def IsDelimited (k : TermKind) : Prop :=
  k = iri ∨ k = string

theorem begins_of_scan {cs word rest : List Char} (h : k.scan (c :: cs) = some (word, rest)) :
    k.Begins c := by
  by_contra other
  exact absurd ((scan_eq_none other cs).symm.trans h) nofun

/-- No other word begins like one that goes on to a closing character. -/
theorem IsDelimited.eq_of_begins {k' : TermKind} (h : k'.IsDelimited) (begins : k'.Begins c)
    (begins' : k.Begins c) : k' = k := by
  rcases h with rfl | rfl
  · obtain rfl : c = '<' := begins
    cases k <;> simp [Begins, Char.isDigit] at begins' ⊢
  · obtain rfl : c = '"' := begins
    cases k <;> simp [Begins, Char.isDigit] at begins' ⊢

/-- Such a word is found whatever follows. -/
theorem IsDelimited.scan_append {text word rest : List Char} (h : k.IsDelimited)
    (found : k.scan text = some (word, rest)) (more : List Char) :
    k.scan (text ++ more) = some (word, rest ++ more) := by
  rcases h with rfl | rfl <;> exact Token.delimited_append_of_some found more

theorem keepsBeforeLine (other : ¬ k.IsDelimited) : Token.KeepsBeforeLine k.scan := by
  have digit : Token.KeepsBeforeLine (Token.run Char.isDigit) := Token.keeps_run rfl
  have sign : Token.KeepsBeforeLine Token.sign := (Token.keeps_fixed (by decide)).possibly
  cases k with
  | iri => exact absurd (.inl rfl) other
  | blank => exact (Token.keeps_fixed (by decide)).both (Token.keeps_run rfl)
  | string => exact absurd (.inr rfl) other
  | date =>
    exact (Token.keeps_fixed (by decide)).both <| (Token.keeps_digits _).both <|
      (Token.keeps_fixed (by decide)).both <| (Token.keeps_digits _).both <|
      (Token.keeps_fixed (by decide)).both <| (Token.keeps_digits _).both
      (Token.keeps_fixed (by decide))
  | decimal => exact sign.both <| digit.both <| (Token.keeps_fixed (by decide)).both digit
  | integer => exact sign.both digit

end TermKind

namespace Token

variable {k : TermKind} {text word rest : List Char}

/-- The word for a term that the text begins with: its kind, the word, and what follows it. The
first kind is taken of which there is a word. -/
def term (text : List Char) : Option (TermKind × List Char × List Char) :=
  TermKind.all.findSome? fun k => (k.scan text).map fun taken => (k, taken)

theorem scan_of_term (h : term text = some (k, word, rest)) : k.scan text = some (word, rest) := by
  obtain ⟨_, k', _, _, taken, _⟩ := List.findSome?_eq_some_iff.1 h
  obtain ⟨_, found, same⟩ := Option.map_eq_some_iff.1 taken
  cases same
  exact found

theorem append_of_term (h : term text = some (k, word, rest)) : word ++ rest = text :=
  k.splits _ _ _ (scan_of_term h)

/-- No term begins with the character. -/
theorem term_eq_none {c : Char} (other : ∀ k : TermKind, ¬ k.Begins c) (cs : List Char) :
    term (c :: cs) = none :=
  List.findSome?_eq_none_iff.2 fun k _ => by rw [TermKind.scan_eq_none (other k), Option.map_none]

/-- The word for a term is the same if a line break and other text follow. -/
theorem term_append (h : term text = some (k, word, rest)) (later : List Char) :
    term (text ++ '\n' :: later) = some (k, word, rest ++ '\n' :: later) := by
  have found := scan_of_term h
  obtain ⟨c, cs, rfl⟩ : ∃ c cs, text = c :: cs := by
    cases text with
    | nil => exact absurd (k.scan_nil.symm.trans found) nofun
    | cons c cs => exact ⟨c, cs, rfl⟩
  -- A word that is cut by the end of the text would begin like the one that is taken.
  have each : ∀ k' : TermKind, k'.scan (c :: cs ++ '\n' :: later)
      = (k'.scan (c :: cs)).map fun taken => (taken.1, taken.2 ++ '\n' :: later) := by
    intro k'
    by_cases delimited : k'.IsDelimited
    · by_cases begins : k'.Begins c
      · obtain rfl := delimited.eq_of_begins begins (TermKind.begins_of_scan found)
        rw [found]
        exact delimited.scan_append found _
      · rw [List.cons_append, TermKind.scan_eq_none begins, TermKind.scan_eq_none begins]
        rfl
    · exact TermKind.keepsBeforeLine delimited _ _
  have mapped : term (c :: cs ++ '\n' :: later)
      = (term (c :: cs)).map fun taken => (taken.1, taken.2.1, taken.2.2 ++ '\n' :: later) := by
    rw [term, term, List.map_findSome?]
    simp only [each, Option.map_map, Function.comp_def]
  rw [mapped, h]
  rfl

end Token

namespace Recognizer

theorem result_firstOf {α : Type} (ps : List (Recognizer α)) (c : Cursor) :
    (firstOf ps c).result = ps.findSome? fun p => (p c).result := by
  induction ps with
  | nil => rfl
  | cons p rest ih =>
    rw [firstOf, result_orElse, ih, List.findSome?_cons]
    cases (p c).result <;> rfl

theorem result_termWord (k : TermKind) (c : Cursor) : (termWord k.rule k k.scan c).result =
    (k.scan c.rest).map fun taken =>
      (⟨k, taken.1, c.offset⟩, ⟨c.offset + taken.1.length, taken.2⟩) := by
  have read : (termWord k.rule k k.scan c).result = ((scanned k.scan >>= fun word =>
      pure ⟨k, word, c.offset⟩ : Recognizer TermTree) c).result := rfl
  rw [read, result_bind]
  cases found : k.scan c.rest with
  | none => simp only [scanned, found, Option.bind_none, Option.map_none]
  | some taken =>
    simp only [scanned, found, Option.bind_some, Option.map_some]
    rfl

/-- Recognizing a term is finding the word that the text begins with. -/
theorem result_term (c : Cursor) : (term c).result =
    (Token.term c.rest).map fun taken =>
      (⟨taken.1, taken.2.1, c.offset⟩, ⟨c.offset + taken.2.1.length, taken.2.2⟩) := by
  have read : (term c).result = (firstOf (TermKind.all.map fun k => termWord k.rule k k.scan) c).result :=
    rfl
  rw [read, result_firstOf, List.findSome?_map, Token.term, List.map_findSome?]
  simp only [Function.comp_def, result_termWord, Option.map_map]

theorem rejects_term {text : List Char} (h : Token.term text = none) : term.Rejects text :=
  fun offset => by rw [result_term, h, Option.map_none]

end Recognizer

end QuadQuery.Grammar

namespace QuadQuery

open Grammar Recognizer

/-- The text begins with a word for the term, and the rest follows it. -/
def Term.Begins (t : Term) (text rest : List Char) : Prop :=
  ∃ k word, Token.term text = some (k, word, rest) ∧ k.Denotes word t

namespace Term.Begins

variable {t t' : Term} {text rest rest' : List Char} {c c' : Cursor} {tree : TermTree}

theorem takes (h : t.Begins text rest) : term.Takes text rest fun tree => tree.meaning = .ok t := by
  obtain ⟨k, word, taken, denotes⟩ := h
  intro offset
  exact ⟨⟨k, word, offset⟩, offset + word.length, by rw [result_term, taken]; rfl,
    TermTree.meaning_eq_ok_iff.2 denotes⟩

theorem of_result (h : (term c).result = some (tree, c')) (means : tree.meaning = .ok t) :
    t.Begins c.rest c'.rest := by
  rw [result_term] at h
  obtain ⟨⟨k, word, rest⟩, taken, same⟩ := Option.map_eq_some_iff.1 h
  cases same
  exact ⟨k, word, taken, TermTree.meaning_eq_ok_iff.1 means⟩

theorem append_line (h : t.Begins text rest) (later : List Char) :
    t.Begins (text ++ '\n' :: later) (rest ++ '\n' :: later) := by
  obtain ⟨k, word, taken, denotes⟩ := h
  exact ⟨k, word, Token.term_append taken later, denotes⟩

theorem length_lt (h : t.Begins text rest) : rest.length < text.length := by
  obtain ⟨k, word, taken, _⟩ := h
  have some := List.length_pos_iff.2 (TermKind.word_ne_nil (Token.scan_of_term taken))
  rw [← Token.append_of_term taken, List.length_append]
  omega

theorem ne_nil (h : t.Begins text rest) : text ≠ [] := by
  rintro rfl
  exact Nat.not_lt_zero _ h.length_lt

end Term.Begins

end QuadQuery
