import Mathlib.Data.List.Forall2
import QuadQuery.Grammar.Recognizer

/-!
# What recognizers read

A recognizer is described by what it makes of the text in front of it: it takes a text and leaves
another (`Recognizer.Takes`), it comes as far as blanks in front of that other (`Recognizer.Reaches`),
or it refuses (`Recognizer.Rejects`). How far it has come since the beginning of the whole text does
not matter, and neither does the trace. A recognizer yields values of a kind if whatever it reads is
of that kind (`Recognizer.Yields`).
-/

namespace QuadQuery.Grammar

open Recognizer

/-- Blanks and comments, where each comment goes to the end of its line. -/
inductive Layout : List Char → Prop
  | nil : Layout []
  | blank {c : Char} {gap : List Char} (isBlank : isLayoutBlank c = true) (more : Layout gap) :
    Layout (c :: gap)
  | comment {words gap : List Char} (line : '\n' ∉ words) (more : Layout gap) :
    Layout ('#' :: (words ++ '\n' :: gap))

/-- The text does not begin with a blank or a comment. -/
def Solid (cs : List Char) : Prop :=
  layoutLength false cs = 0

theorem solid_nil : Solid [] := rfl

theorem solid_cons {c : Char} (blank : isLayoutBlank c = false) (comment : c ≠ '#')
    (cs : List Char) : Solid (c :: cs) := by
  simp [Solid, layoutLength, blank, comment]

namespace Layout

variable {gap gap' : List Char}

theorem append (h : Layout gap) (h' : Layout gap') : Layout (gap ++ gap') := by
  induction h with
  | nil => exact h'
  | blank isBlank _ ih => exact .blank isBlank ih
  | comment line _ ih =>
    rw [List.cons_append, List.append_assoc, List.cons_append]
    exact .comment line ih

/-- A comment is skipped to the end of its line. -/
theorem layoutLength_comment {words : List Char} (line : '\n' ∉ words) (rest : List Char) :
    layoutLength true (words ++ '\n' :: rest) = words.length + 1 + layoutLength false rest := by
  induction words with
  | nil =>
    simp only [List.nil_append, layoutLength, List.length_nil]
    simp only [bne_self_eq_false, if_true]
    omega
  | cons c words ih =>
    obtain ⟨other, line⟩ := List.ne_and_not_mem_of_not_mem_cons line
    have goesOn : (c != '\n') = true := bne_iff_ne.2 (Ne.symm other)
    simp only [List.cons_append, layoutLength, if_true, goesOn, List.length_cons, ih line]
    omega

/-- All blanks and comments in front of a text are skipped. -/
theorem layoutLength_append (h : Layout gap) (rest : List Char) :
    layoutLength false (gap ++ rest) = gap.length + layoutLength false rest := by
  induction h with
  | nil => simp
  | blank isBlank _ ih =>
    simp only [List.cons_append, layoutLength, Bool.false_eq_true, if_false, isBlank, if_true, ih,
      List.length_cons]
    omega
  | @comment words gap line _ ih =>
    have begins : layoutLength false ('#' :: (words ++ '\n' :: (gap ++ rest)))
        = layoutLength true (words ++ '\n' :: (gap ++ rest)) + 1 := rfl
    rw [List.cons_append, List.append_assoc, List.cons_append, begins, layoutLength_comment line,
      ih, List.length_cons, List.length_append, List.length_cons]
    omega

end Layout

/-- What follows the blanks and comments in front of a text. -/
def afterLayout (text : List Char) : List Char :=
  text.drop (layoutLength false text)

theorem afterLayout_eq_self {text : List Char} (solid : Solid text) : afterLayout text = text := by
  rw [afterLayout, show layoutLength false text = 0 from solid, List.drop_zero]

theorem solid_drop (inside : Bool) (text : List Char) :
    Solid (text.drop (layoutLength inside text)) := by
  induction text generalizing inside with
  | nil => rfl
  | cons c text ih =>
    unfold layoutLength
    split_ifs with comment blank begins
    · exact ih _
    · exact ih _
    · exact ih _
    · exact solid_cons (eq_false_of_ne_true blank) (by simpa using begins) text

theorem solid_afterLayout (text : List Char) : Solid (afterLayout text) :=
  solid_drop false text

@[simp]
theorem afterLayout_afterLayout (text : List Char) :
    afterLayout (afterLayout text) = afterLayout text :=
  afterLayout_eq_self (solid_afterLayout text)

theorem length_afterLayout_le (text : List Char) : (afterLayout text).length ≤ text.length := by
  rw [afterLayout, List.length_drop]
  omega

namespace Recognizer

variable {α β : Type} {p q : Recognizer α} {f : α → Recognizer β} {text mid rest : List Char}
  {P : α → Prop} {Q : β → Prop}

/-- In front of the text, `p` reads a value of which `P` holds, and it leaves the rest. -/
def Takes (p : Recognizer α) (text rest : List Char) (P : α → Prop) : Prop :=
  ∀ offset, ∃ a offset', (p ⟨offset, text⟩).result = some (a, ⟨offset', rest⟩) ∧ P a

/-- In front of the text, `p` reads a value of which `P` holds, and it leaves the rest with blanks
and comments in front. -/
def Reaches (p : Recognizer α) (text rest : List Char) (P : α → Prop) : Prop :=
  ∀ offset, ∃ a offset' gap, Layout gap ∧
    (p ⟨offset, text⟩).result = some (a, ⟨offset', gap ++ rest⟩) ∧ P a

/-- In front of the text, `p` reads nothing. -/
def Rejects (p : Recognizer α) (text : List Char) : Prop :=
  ∀ offset, (p ⟨offset, text⟩).result = none

/-- Whatever `p` reads is a value of which `P` holds. -/
def Yields (p : Recognizer α) (P : α → Prop) : Prop :=
  ∀ c a c', (p c).result = some (a, c') → P a

/-! ## Results -/

theorem result_bind (p : Recognizer α) (f : α → Recognizer β) (c : Cursor) :
    ((p >>= f) c).result = (p c).result.bind fun r => (f r.1 r.2).result := by
  change (andThen p f c).result = _
  unfold andThen
  cases same : (p c).result <;> simp [same]

theorem result_orElse (p q : Recognizer α) (c : Cursor) :
    (p.orElse q c).result = (p c).result.or (q c).result := by
  unfold orElse
  cases same : (p c).result <;> simp [same]

theorem result_repeated (p : Recognizer α) (bound : Nat) (c : Cursor) :
    (repeated p (bound + 1) c).result = match (spaced p c).result with
      | none => some ([], c)
      | some (a, c') => (repeated p bound c').result.map fun (as, c) => (a :: as, c) := by
  rw [repeated]
  cases same : (spaced p c).result <;> simp only [same]

/-! ## The steps of a reading -/

section

variable {c c' : Cursor} {a : α} {b : β}

theorem exists_of_bind (h : ((p >>= f) c).result = some (b, c')) :
    ∃ a mid, (p c).result = some (a, mid) ∧ (f a mid).result = some (b, c') := by
  rw [result_bind, Option.bind_eq_some_iff] at h
  obtain ⟨⟨a, mid⟩, here, there⟩ := h
  exact ⟨a, mid, here, there⟩

theorem exists_of_spaced (h : (spaced p c).result = some (a, c')) :
    ∃ mid, (p c).result = some (a, mid) ∧ c'.rest = afterLayout mid.rest := by
  obtain ⟨a', mid, here, h⟩ := exists_of_bind h
  cases h
  exact ⟨mid, here, rfl⟩

theorem exists_of_scanned {scan : List Char → Option (List Char × List Char)} {word : List Char}
    (h : (scanned scan c).result = some (word, c')) :
    scan c.rest = some (word, c'.rest) ∧ c'.offset = c.offset + word.length := by
  unfold scanned at h
  split at h
  · cases h
  · next taken rest found =>
    cases h
    exact ⟨found, rfl⟩

theorem rest_of_exactly {word : List Char} {u : Unit} (h : (exactly word c).result = some (u, c')) :
    c.rest = word ++ c'.rest := by
  unfold exactly at h
  split at h
  · next begins =>
    cases h
    exact (List.prefix_iff_eq_append.1 (List.isPrefixOf_iff_prefix.1 begins)).symm
  · cases h

theorem rest_of_endOfText {u : Unit} (h : (endOfText c).result = some (u, c')) : c.rest = [] := by
  unfold endOfText tracked at h
  dsimp only at h
  split at h
  · next empty => exact List.isEmpty_iff.1 empty
  · cases h

theorem cases_of_optional {a? : Option α} (h : (optional p c).result = some (a?, c')) :
    (∃ a, a? = some a ∧ (p c).result = some (a, c')) ∨ a? = none ∧ c' = c := by
  rw [optional, result_orElse, Option.or_eq_some_iff] at h
  rcases h with h | ⟨_, h⟩
  · obtain ⟨a, mid, here, h⟩ := exists_of_bind h
    cases h
    exact .inl ⟨a, rfl, here⟩
  · cases h
    exact .inr ⟨rfl, rfl⟩

end

/-! ## Taking and reaching -/

theorem Takes.mono {P' : α → Prop} (h : p.Takes text rest P) (weaker : ∀ a, P a → P' a) :
    p.Takes text rest P' := fun offset =>
  let ⟨a, offset', read, holds⟩ := h offset
  ⟨a, offset', read, weaker a holds⟩

theorem Takes.reaches (h : p.Takes text rest P) : p.Reaches text rest P := fun offset =>
  let ⟨a, offset', read, holds⟩ := h offset
  ⟨a, offset', [], .nil, read, holds⟩

/-- Blanks and comments that are left belong to what is in front of the rest. -/
theorem Reaches.absorb {gap : List Char} (h : p.Reaches text (gap ++ rest) P) (layout : Layout gap) :
    p.Reaches text rest P := fun offset => by
  obtain ⟨a, offset', gap', layout', read, holds⟩ := h offset
  exact ⟨a, offset', gap' ++ gap, layout'.append layout, by rw [read, List.append_assoc], holds⟩

theorem takes_pure {a : α} (holds : P a) : Takes (pure a) text text P :=
  fun offset => ⟨a, offset, rfl, holds⟩

theorem takes_offset : Takes offset text text fun _ => True :=
  fun offset => ⟨offset, offset, rfl, trivial⟩

theorem Takes.bind (first : p.Takes text mid P) (second : ∀ a, P a → (f a).Takes mid rest Q) :
    (p >>= f).Takes text rest Q := fun offset => by
  obtain ⟨a, offset', read, holds⟩ := first offset
  obtain ⟨b, offset'', read', holds'⟩ := second a holds offset'
  exact ⟨b, offset'', by rw [result_bind, read, Option.bind_some, read'], holds'⟩

theorem Takes.bind_reaches (first : p.Takes text mid P)
    (second : ∀ a, P a → (f a).Reaches mid rest Q) : (p >>= f).Reaches text rest Q := fun offset => by
  obtain ⟨a, offset', read, holds⟩ := first offset
  obtain ⟨b, offset'', gap, layout, read', holds'⟩ := second a holds offset'
  exact ⟨b, offset'', gap, layout, by rw [result_bind, read, Option.bind_some, read'], holds'⟩

theorem Reaches.bind_pure {g : α → β} (first : p.Reaches text rest P)
    (second : ∀ a, P a → Q (g a)) : (p >>= fun a => pure (g a)).Reaches text rest Q :=
  fun offset => by
  obtain ⟨a, offset', gap, layout, read, holds⟩ := first offset
  exact ⟨g a, offset', gap, layout, by rw [result_bind, read]; rfl, second a holds⟩

theorem Takes.bind_pure {g : α → β} (first : p.Takes text rest P)
    (second : ∀ a, P a → Q (g a)) : (p >>= fun a => pure (g a)).Takes text rest Q :=
  first.bind fun a holds => takes_pure (second a holds)

theorem Takes.tracked {rule : Rule} (h : p.Takes text rest P) : (tracked rule p).Takes text rest P := h

theorem Reaches.tracked {rule : Rule} (h : p.Reaches text rest P) :
    (tracked rule p).Reaches text rest P := h

theorem takes_afterLayout (text : List Char) :
    layout.Takes text (afterLayout text) fun _ => True :=
  fun offset => ⟨(), offset + layoutLength false text, rfl, trivial⟩

/-- Blanks and comments are skipped as far as they go. -/
theorem takes_layout {gap : List Char} (blanks : Layout gap) (solid : Solid rest) :
    layout.Takes (gap ++ rest) rest fun _ => True := by
  have behind : afterLayout (gap ++ rest) = rest := by
    rw [afterLayout, blanks.layoutLength_append, show layoutLength false rest = 0 from solid,
      Nat.add_zero, List.drop_left]
  have takes := takes_afterLayout (gap ++ rest)
  rwa [behind] at takes

theorem Takes.spaced_afterLayout (h : p.Takes text rest P) :
    (spaced p).Takes text (afterLayout rest) P :=
  h.bind fun _ holds => (takes_afterLayout rest).bind fun _ _ => takes_pure holds

theorem Reaches.bind_layout (first : p.Reaches text mid P) (solid : Solid mid)
    (second : ∀ a, P a → (f a).Takes mid rest Q) :
    (p >>= fun a => layout >>= fun _ => f a).Takes text rest Q := fun offset => by
  obtain ⟨a, offset', gap, blanks, read, holds⟩ := first offset
  obtain ⟨b, offset'', read', holds'⟩ :=
    (takes_layout blanks solid).bind (fun _ _ => second a holds) offset'
  exact ⟨b, offset'', by rw [result_bind, read, Option.bind_some, read'], holds'⟩

theorem Reaches.bind_layout_reaches (first : p.Reaches text mid P) (solid : Solid mid)
    (second : ∀ a, P a → (f a).Reaches mid rest Q) :
    (p >>= fun a => layout >>= fun _ => f a).Reaches text rest Q := fun offset => by
  obtain ⟨a, offset', gap, blanks, read, holds⟩ := first offset
  obtain ⟨b, offset'', gap', blanks', read', holds'⟩ :=
    (takes_layout blanks solid).bind_reaches (fun _ _ => second a holds) offset'
  exact ⟨b, offset'', gap', blanks', by rw [result_bind, read, Option.bind_some, read'], holds'⟩

/-- The blanks and comments that were reached are skipped. -/
theorem Reaches.spaced (h : p.Reaches text rest P) (solid : Solid rest) :
    (spaced p).Takes text rest P :=
  h.bind_layout solid fun _ holds => takes_pure holds

theorem takes_exactly (word rest : List Char) :
    (exactly word).Takes (word ++ rest) rest fun _ => True := fun offset => by
  refine ⟨(), offset + word.length, ?_, trivial⟩
  simp [exactly, Cursor.advance]

theorem takes_scanned {scan : List Char → Option (List Char × List Char)} {word : List Char}
    (h : scan text = some (word, rest)) : (scanned scan).Takes text rest (· = word) := fun offset => by
  refine ⟨word, offset + word.length, ?_, rfl⟩
  simp only [scanned, h]

/-! ## Alternatives -/

theorem Rejects.bind (h : p.Rejects text) (f : α → Recognizer β) : (p >>= f).Rejects text :=
  fun offset => by rw [result_bind, h offset, Option.bind_none]

theorem Takes.bind_rejects (first : p.Takes text mid P) (second : ∀ a, (f a).Rejects mid) :
    (p >>= f).Rejects text := fun offset => by
  obtain ⟨a, offset', read, _⟩ := first offset
  rw [result_bind, read, Option.bind_some, second a offset']

theorem Rejects.tracked {rule : Rule} (h : p.Rejects text) : (tracked rule p).Rejects text := h

theorem rejects_exactly {word : List Char} (h : word.isPrefixOf text = false) :
    (exactly word).Rejects text := fun offset => by
  simp only [exactly, h, Bool.false_eq_true, if_false]

theorem rejects_scanned {scan : List Char → Option (List Char × List Char)} (h : scan text = none) :
    (scanned scan).Rejects text := fun offset => by
  simp only [scanned, h]

theorem Reaches.orElse_left (h : p.Reaches text rest P) : (p.orElse q).Reaches text rest P :=
  fun offset => by
  obtain ⟨a, offset', gap, layout, read, holds⟩ := h offset
  exact ⟨a, offset', gap, layout, by rw [result_orElse, read, Option.some_or], holds⟩

theorem Reaches.orElse_right (h : q.Reaches text rest P) (first : p.Rejects text) :
    (p.orElse q).Reaches text rest P := fun offset => by
  obtain ⟨a, offset', gap, layout, read, holds⟩ := h offset
  exact ⟨a, offset', gap, layout, by rw [result_orElse, first offset, Option.none_or, read], holds⟩

theorem Rejects.orElse (first : p.Rejects text) (second : q.Rejects text) :
    (p.orElse q).Rejects text := fun offset => by
  rw [result_orElse, first offset, second offset, Option.none_or]

/-- An alternative is taken if those in front of it refuse. -/
theorem reaches_firstOf {before after : List (Recognizer α)} (h : p.Reaches text rest P)
    (others : ∀ q ∈ before, q.Rejects text) :
    (firstOf (before ++ p :: after)).Reaches text rest P := by
  induction before with
  | nil => exact h.orElse_left
  | cons q before ih =>
    obtain ⟨first, others⟩ := List.forall_mem_cons.1 others
    exact (ih others).orElse_right first

theorem rejects_firstOf {ps : List (Recognizer α)} (h : ∀ p ∈ ps, p.Rejects text) :
    (firstOf ps).Rejects text := by
  induction ps with
  | nil => exact fun _ => rfl
  | cons p rest ih =>
    obtain ⟨first, others⟩ := List.forall_mem_cons.1 h
    exact first.orElse (ih others)

theorem Takes.optional (h : p.Takes text rest P) :
    (optional p).Takes text rest fun a? => ∃ a, a? = some a ∧ P a := fun offset => by
  obtain ⟨a, offset', read, holds⟩ := h offset
  refine ⟨some a, offset', ?_, a, rfl, holds⟩
  rw [Recognizer.optional, result_orElse, result_bind, read]
  rfl

theorem Rejects.optional (h : p.Rejects text) :
    (optional p).Takes text text (· = none) := fun offset => by
  refine ⟨none, offset, ?_, rfl⟩
  rw [Recognizer.optional, result_orElse, h.bind _ offset]
  rfl

/-! ## Repetitions -/

theorem Rejects.spaced (h : p.Rejects text) : (spaced p).Rejects text :=
  h.bind _

/-- Nothing is repeated where nothing is read. -/
theorem takes_repeated_nil (ends : p.Rejects rest) (bound : Nat) :
    (repeated p bound).Takes rest rest (· = []) := fun offset => by
  refine ⟨[], offset, ?_, rfl⟩
  cases bound with
  | zero => rfl
  | succ bound => rw [result_repeated, ends.spaced offset]

theorem takes_repeated_cons {bound : Nat} {R : List α → Prop} (first : (spaced p).Takes text mid P)
    (others : (repeated p bound).Takes mid rest R) : (repeated p (bound + 1)).Takes text rest
      fun as => ∃ a later, as = a :: later ∧ P a ∧ R later := fun offset => by
  obtain ⟨a, offset', read, holds⟩ := first offset
  obtain ⟨later, offset'', read', holds'⟩ := others offset'
  refine ⟨a :: later, offset'', ?_, a, later, rfl, holds, holds'⟩
  rw [result_repeated, read]
  simp only [read', Option.map_some]

/-! ## What is yielded -/

theorem Yields.mono {P' : α → Prop} (h : p.Yields P) (weaker : ∀ a, P a → P' a) : p.Yields P' :=
  fun c a c' read => weaker a (h c a c' read)

theorem yields_pure {a : α} (holds : P a) : Yields (pure a) P := by
  rintro c _ _ ⟨⟩
  exact holds

theorem yields_fail : Yields fail P := fun _ _ _ read => nomatch read

theorem Yields.bind (first : p.Yields P) (second : ∀ a, P a → (f a).Yields Q) :
    (p >>= f).Yields Q := by
  intro c b c' read
  obtain ⟨a, mid, here, there⟩ := exists_of_bind read
  exact second a (first c a mid here) mid b c' there

theorem yields_trivial (p : Recognizer α) : p.Yields fun _ => True := fun _ _ _ _ => trivial

/-- What is read before and thrown away does not matter. -/
theorem Yields.after (h : ∀ a, (f a).Yields Q) : (p >>= f).Yields Q :=
  (yields_trivial p).bind fun a _ => h a

theorem Yields.tracked {rule : Rule} (h : p.Yields P) : (tracked rule p).Yields P := h

theorem Yields.orElse (first : p.Yields P) (second : q.Yields P) : (p.orElse q).Yields P := by
  intro c a c' read
  rw [result_orElse, Option.or_eq_some_iff] at read
  exact read.elim (first c a c') fun ⟨_, later⟩ => second c a c' later

theorem yields_firstOf {ps : List (Recognizer α)} (h : ∀ p ∈ ps, p.Yields P) :
    (firstOf ps).Yields P := by
  induction ps with
  | nil => exact yields_fail
  | cons p rest ih =>
    obtain ⟨first, others⟩ := List.forall_mem_cons.1 h
    exact first.orElse (ih others)

theorem yields_scanned {scan : List Char → Option (List Char × List Char)} {P : List Char → Prop}
    (h : ∀ text word rest, scan text = some (word, rest) → P word) : (scanned scan).Yields P := by
  intro c word c' read
  exact h _ _ _ (exists_of_scanned read).1

theorem Yields.spaced (h : p.Yields P) : (spaced p).Yields P :=
  h.bind fun _ holds => .after fun _ => yields_pure holds

theorem Yields.many (h : p.Yields P) : (many p).Yields fun as => ∀ a ∈ as, P a := by
  have repeats : ∀ bound, (repeated p bound).Yields fun as => ∀ a ∈ as, P a := by
    intro bound
    induction bound with
    | zero => exact yields_pure (List.forall_mem_nil _)
    | succ bound ih =>
      intro c as c' read
      rw [result_repeated] at read
      split at read
      · cases read
        exact List.forall_mem_nil _
      · next a mid here =>
        obtain ⟨⟨later, _⟩, there, same⟩ := Option.map_eq_some_iff.1 read
        cases same
        exact List.forall_mem_cons.2 ⟨h.spaced c a mid here, ih mid later _ there⟩
  exact fun c => repeats _ c

theorem Yields.optional (h : p.Yields P) : (optional p).Yields fun a? => ∀ a ∈ a?, P a :=
  (h.bind fun a holds => yields_pure (by rintro _ ⟨⟩; exact holds)).orElse (yields_pure (by simp))

theorem Yields.nested {p : Nat → Recognizer α} (h : ∀ depth, (p depth).Yields P) :
    (nested p).Yields P :=
  fun c => h _ c

end Recognizer

end QuadQuery.Grammar
