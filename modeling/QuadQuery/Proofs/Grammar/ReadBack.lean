import QuadQuery.Proofs.Grammar.Lexemes
import QuadQuery.Proofs.Grammar.Meanings
import QuadQuery.Proofs.Grammar.TermWords

/-!
# Reading written queries back

Lexemes are taken one by one with the gaps behind them, whatever these are, and so an expression
(`reaches_expr`) and a pattern in the default graph (`reaches_triple`) are read back from their
lexemes in any layout, provided that their slots are readable.
-/

namespace QuadQuery.Grammar

open Recognizer Lexeme

/-- The lexeme is taken as it is written. -/
def Lexeme.Readable : Lexeme → Prop
  | .slot s => s.Readable
  | _ => True

/-- The text consists of readable lexemes with gaps and of the rest, which is no more gap. -/
structure Legible (ls : List Lexeme) (text rest : List Char) : Prop where
  laid : Laid ls text rest
  readable : ∀ l ∈ ls, l.Readable
  solid : Solid rest

variable {l : Lexeme} {ls xs ys : List Lexeme} {text mid rest cs : List Char}

theorem exists_start (readable : l.Readable) : ∃ c cs, l.text = c :: cs ∧
    isLayoutBlank c = false ∧ c ≠ '#' := by
  have starts : ∀ c, c = '?' ∨ IsTermStart c → isLayoutBlank c = false ∧ c ≠ '#' := by
    rintro c (rfl | listed | digit)
    · decide
    · simp only [List.mem_cons, List.not_mem_nil, or_false] at listed
      rcases listed with rfl | rfl | rfl | rfl | rfl <;> decide
    · have other : ∀ x : Char, x.isDigit = false → c ≠ x := fun _ => Char.ne_of_isDigit digit
      simp [isLayoutBlank, other]
  cases l with
  | opening => exact ⟨_, _, rfl, by decide⟩
  | closing => exact ⟨_, _, rfl, by decide⟩
  | word rule => cases rule <;> exact ⟨_, _, rfl, by decide⟩
  | function f =>
    cases f with
    | compare c => cases c <;> exact ⟨_, _, rfl, by decide⟩
    | bound | regex | not | and | or => exact ⟨_, _, rfl, by decide⟩
  | slot s =>
    obtain ⟨c, cs, written, start⟩ := exists_slot_start readable
    exact ⟨c, cs, written, starts c start⟩

namespace Legible

theorem tail (h : Legible (l :: ls) text rest) : ∃ gap mid, text = l.text ++ (gap ++ mid) ∧
    Layout gap ∧ (l.IsBracket ∨ Stops (gap ++ mid)) ∧ Legible ls mid rest := by
  obtain ⟨laid, readable, solid⟩ := h
  obtain ⟨_, others⟩ := List.forall_mem_cons.1 readable
  cases laid with
  | @cons _ _ gap mid _ layout apart laid =>
    refine ⟨gap, mid, rfl, layout, ?_, laid, others, solid⟩
    by_cases none : gap = []
    · subst none
      exact apart.resolve_left (fun some => some rfl)
    · exact .inr (layout.stops none mid)

/-- The first lexeme follows at once. -/
theorem solid_text (h : Legible ls text rest) : Solid text := by
  obtain ⟨laid, readable, solid⟩ := h
  cases laid with
  | nil => exact solid
  | cons _ _ _ =>
    obtain ⟨c, cs, written, blank, comment⟩ := exists_start (readable _ List.mem_cons_self)
    rw [written]
    exact solid_cons blank comment _

theorem split (h : Legible (xs ++ ys) text rest) :
    ∃ mid, Legible xs text mid ∧ Legible ys mid rest := by
  obtain ⟨laid, readable, solid⟩ := h
  obtain ⟨mid, first, second⟩ := laid.split
  obtain ⟨left, right⟩ := List.forall_mem_append.1 readable
  have later : Legible ys mid rest := ⟨second, right, solid⟩
  exact ⟨mid, ⟨first, left, later.solid_text⟩, later⟩

theorem first (h : Legible (l :: ls) text rest) :
    ∃ mid, Legible [l] text mid ∧ Legible ls mid rest := by
  have both : Legible ([l] ++ ls) text rest := h
  exact both.split

/-- Every lexeme takes up a character. -/
theorem length_le (h : Legible ls text rest) : ls.length ≤ text.length := by
  induction ls generalizing text with
  | nil => exact Nat.zero_le _
  | cons l ls ih =>
    obtain ⟨c, cs, written, _⟩ := exists_start (h.readable l List.mem_cons_self)
    obtain ⟨gap, mid, rfl, _, _, others⟩ := h.tail
    have count := ih others
    rw [written]
    simp only [List.length_cons, List.length_append]
    omega

/-! ## Single lexemes -/

/-- A bracket or a word is taken with its gap. -/
theorem symbol (h : Legible (l :: ls) text rest) :
    ∃ mid, (symbol l.text).Takes text mid (fun _ => True) ∧ Legible ls mid rest := by
  obtain ⟨gap, mid, rfl, layout, _, others⟩ := h.tail
  exact ⟨mid, ((takes_exactly l.text _).reaches.absorb layout).spaced others.solid_text, others⟩

theorem opening (h : Legible (.opening :: ls) text rest) :
    ∃ mid, opening.Takes text mid (fun _ => True) ∧ Legible ls mid rest :=
  h.symbol

theorem closing (h : Legible [.closing] text rest) : closing.Reaches text rest fun _ => True := by
  obtain ⟨gap, mid, rfl, layout, _, ⟨laid, _, _⟩⟩ := h.tail
  cases laid
  exact (takes_exactly [')'] _).reaches.absorb layout

/-- A function symbol in front of a stop is taken as that of the function. -/
theorem function_scan (f : Function) (stops : Stops rest) :
    Token.function (f.name.toList ++ rest) = some (f.name.toList, rest) := by
  have other : ['='].isPrefixOf rest = false := by
    cases rest with
    | nil => rfl
    | cons c rest =>
      have differ : ('=' == c) = false := beq_eq_false_iff_ne.2 (by
        rintro rfl
        exact absurd (stops '=' rfl) (by decide))
      simp [List.isPrefixOf, differ]
  have words : Token.function = Token.firstOf ([['b', 'o', 'u', 'n', 'd'], ['r', 'e', 'g', 'e', 'x'],
      ['&', '&'], ['|', '|'], ['!', '='], ['!'], ['<', '='], ['>', '='], ['<'], ['>'],
      ['=']].map Token.fixed) := rfl
  rw [words]
  cases f with
  | compare c => cases c <;> simp [Token.firstOf, Token.fixed, Function.name, Comparison.symbol,
      List.isPrefixOf, other]
  | bound | regex | and | or | not =>
    simp [Token.firstOf, Token.fixed, Function.name, List.isPrefixOf, other]

theorem function {f : Function} (h : Legible (.function f :: ls) text rest) :
    ∃ mid, (spaced function).Takes text mid (· = f) ∧ Legible ls mid rest := by
  obtain ⟨gap, mid, rfl, layout, apart, others⟩ := h.tail
  have stops : Stops (gap ++ mid) := apart.resolve_left (by simp [IsBracket])
  have read : Recognizer.function.Takes (f.name.toList ++ (gap ++ mid)) (gap ++ mid) (· = f) :=
    .tracked <| (takes_scanned (function_scan f stops)).bind fun word same => by
      rw [same, Function.ofWord?_name]
      exact takes_pure rfl
  exact ⟨mid, (read.reaches.absorb layout).spaced others.solid_text, others⟩

theorem slot {s : Slot} (h : Legible [.slot s] text rest) :
    slot.Reaches text rest fun tree => tree.meaning = .ok s := by
  obtain ⟨gap, mid, rfl, layout, apart, ⟨laid, _, _⟩⟩ := h.tail
  cases laid
  have readable : s.Readable := h.readable _ List.mem_cons_self
  exact (readable.reaches (apart.resolve_left (by simp [IsBracket]))).absorb layout

/-- Words of variables are names. -/
theorem var {v : Variable} (h : Legible [.slot (.var v)] text rest) : Recognizer.var.Reaches text rest
    fun word => Variable.ofText (String.ofList word) = v := by
  obtain ⟨gap, mid, rfl, layout, apart, ⟨laid, _, _⟩⟩ := h.tail
  cases laid
  have readable : (Slot.var v).Readable := h.readable _ List.mem_cons_self
  exact (reaches_var readable.1 (apart.resolve_left (by simp [IsBracket]))).absorb layout

theorem exists_closing (h : Legible (.closing :: ls) text rest) : ∃ cs, text = ')' :: cs := by
  obtain ⟨gap, mid, rfl, _⟩ := h.tail
  exact ⟨gap ++ mid, rfl⟩

end Legible

/-! ## Where nothing can be read -/

theorem rejects_opening {c : Char} (other : c ≠ '(') (cs : List Char) : opening.Rejects (c :: cs) := by
  have differ : ('(' == c) = false := beq_eq_false_iff_ne.2 other.symm
  exact (rejects_exactly (by simp [List.isPrefixOf, differ])).spaced

/-- No parenthesis opens where a slot is written. -/
theorem Legible.rejects_opening {s : Slot} (h : Legible (.slot s :: ls) text rest) :
    Recognizer.opening.Rejects text := by
  obtain ⟨gap, mid, rfl, _⟩ := h.tail
  obtain ⟨c, cs, written, start⟩ := exists_slot_start (h.readable _ List.mem_cons_self)
  rw [Lexeme.text, written]
  refine Grammar.rejects_opening ?_ _
  rintro rfl
  exact absurd start (by simp [IsTermStart])

theorem rejects_slot_closing (cs : List Char) : slot.Rejects (')' :: cs) := by
  have noVar : Token.var (')' :: cs) = none := var_none (by decide)
  have noTerm : Token.term (')' :: cs) = none :=
    Token.term_eq_none (fun k => by cases k <;> simp [TermKind.Begins, Char.isDigit]) cs
  exact .tracked (rejects_firstOf (List.forall_mem_cons.2 ⟨(rejects_scanned noVar).tracked.bind _,
    List.forall_mem_singleton.2 ((rejects_term noTerm).bind _)⟩))

theorem rejects_var_closing (cs : List Char) : Recognizer.var.Rejects (')' :: cs) :=
  .tracked (rejects_scanned (var_none (by decide)))

/-- A call is not read where no parenthesis opens, and so nothing but a slot is an expression. -/
theorem rejects_exprWithin_closing (depth : Nat) (cs : List Char) :
    (exprWithin depth).Rejects (')' :: cs) := by
  cases depth with
  | zero => exact fun _ => rfl
  | succ depth =>
    refine .tracked (rejects_firstOf (List.forall_mem_cons.2 ⟨.tracked ?_,
      List.forall_mem_singleton.2 ((rejects_slot_closing cs).bind _)⟩))
    exact takes_offset.bind_rejects fun _ => (rejects_opening (by decide) cs).bind _

theorem rejects_expr_closing (cs : List Char) : expr.Rejects (')' :: cs) :=
  fun offset => rejects_exprWithin_closing _ cs offset

theorem rejects_exprs_closing (cs : List Char) : exprs.Rejects (')' :: cs) :=
  .tracked ((rejects_opening (by decide) cs).bind _)

theorem rejects_triple_closing (cs : List Char) : triple.Rejects (')' :: cs) :=
  .tracked ((rejects_opening (by decide) cs).bind _)

/-! ## Repetitions -/

/-- Items are read one after another up to where none can be read. -/
theorem takes_many {ι α : Type} {p : Recognizer α} {lexemes : ι → List Lexeme} {P : ι → α → Prop}
    {items : List ι} (each : ∀ i ∈ items, lexemes i ≠ [] ∧
      ∀ text rest, Legible (lexemes i) text rest → p.Reaches text rest (P i))
    (ends : p.Rejects rest) (h : Legible (items.flatMap lexemes) text rest) :
    (many p).Takes text rest (items.Forall₂ P) := by
  have count : items.length ≤ (items.flatMap lexemes).length := by
    have sum := List.length_le_sum_of_one_le (items.map fun i => (lexemes i).length) fun n counted => by
      obtain ⟨i, member, rfl⟩ := List.mem_map.1 counted
      exact List.length_pos_iff.2 (each i member).1
    rwa [List.length_map, ← List.length_flatMap] at sum
  have repeats : ∀ bound, items.length ≤ bound →
      (repeated p bound).Takes text rest (items.Forall₂ P) := by
    clear count
    induction items generalizing text with
    | nil =>
      obtain ⟨laid, _, _⟩ := h
      cases laid
      exact fun bound _ => (takes_repeated_nil ends bound).mono (by rintro _ rfl; exact .nil)
    | cons i items ih =>
      obtain ⟨⟨_, first⟩, others⟩ := List.forall_mem_cons.1 each
      obtain ⟨mid, here, later⟩ := h.split
      intro bound enough
      obtain ⟨bound, rfl⟩ := Nat.exists_eq_succ_of_ne_zero (Nat.pos_iff_ne_zero.1
        (Nat.lt_of_lt_of_le (Nat.succ_pos _) enough))
      refine (takes_repeated_cons ((first text mid here).spaced later.solid_text)
        (ih others later bound (Nat.le_of_succ_le_succ enough))).mono ?_
      rintro _ ⟨a, as, rfl, holds, all⟩
      exact .cons holds all
  have length := h.length_le
  exact fun offset => repeats (text.length + 1) (by omega) offset

/-! ## Expressions -/

end QuadQuery.Grammar

namespace QuadQuery.Expr

open Grammar Lexeme

/-- The call that the expression is written as. -/
def call? : Expr → Option (Function × List Expr)
  | .var _ | .const _ => none
  | .bound v => some (.bound, [.var v])
  | .not e => some (.not, [e])
  | .and l r => some (.and, [l, r])
  | .or l r => some (.or, [l, r])
  | .compare c l r => some (.compare c, [l, r])
  | .regex e pattern => some (.regex, [e, .const (.str pattern.source)])

variable {e : Expr} {f : Function} {args : List Expr}

/-- The call is written as function and arguments, and means the expression. -/
theorem call?_spec (h : e.call? = some (f, args)) :
    e.lexemes = bracketed (.function f) (args.flatMap lexemes) ∧ f.call args = .ok e := by
  cases e with
  | var | const => cases h
  | bound v => cases h; exact ⟨rfl, rfl⟩
  | not e | and l r | or l r | compare c l r =>
    cases h
    exact ⟨by simp [lexemes], rfl⟩
  | regex e pattern =>
    cases h
    refine ⟨by simp [lexemes], ?_⟩
    simp only [Function.call, Regex.ofText?_source]

/-- What is not written as a call is written as a slot. -/
theorem slot_of_call?_eq_none (h : e.call? = none) : ∃ s, e.lexemes = [.slot s] ∧
    ∀ tree : SlotTree, tree.meaning = .ok s → (ExprTree.slot tree).meaning = .ok e := by
  cases e with
  | var v => exact ⟨.var v, rfl, fun tree same => by rw [ExprTree.meaning, same]⟩
  | const t => exact ⟨.term t, rfl, fun tree same => by rw [ExprTree.meaning, same]⟩
  | bound | not | and | or | compare | regex => cases h

end QuadQuery.Expr

namespace QuadQuery.Grammar

open Recognizer Lexeme

variable {text rest : List Char}

theorem length_le_of_mem {ι : Type} {lexemes : ι → List Lexeme} {items : List ι} {i : ι}
    (member : i ∈ items) : (lexemes i).length ≤ (items.flatMap lexemes).length := by
  obtain ⟨before, after, rfl⟩ := List.append_of_mem member
  simp only [List.flatMap_append, List.flatMap_cons, List.length_append]
  omega

/-- Expressions are read back, however deep they are. -/
theorem reaches_exprWithin (depth : Nat) {e : Expr} (enough : e.lexemes.length ≤ depth)
    (h : Legible e.lexemes text rest) :
    (exprWithin depth).Reaches text rest fun tree => tree.meaning = .ok e := by
  induction depth generalizing e text rest with
  | zero => exact absurd (List.eq_nil_of_length_eq_zero (Nat.le_zero.1 enough)) e.lexemes_ne_nil
  | succ depth ih =>
    cases written : e.call? with
    | none =>
      obtain ⟨s, lexemes, means⟩ := Expr.slot_of_call?_eq_none written
      rw [lexemes] at h
      refine .tracked (Reaches.orElse_right (Reaches.orElse_left ?_) (.tracked ?_))
      · exact h.slot.bind_pure means
      · exact takes_offset.bind_rejects fun _ => h.rejects_opening.bind _
    | some call =>
      obtain ⟨f, args⟩ := call
      obtain ⟨lexemes, means⟩ := Expr.call?_spec written
      rw [lexemes] at h enough
      obtain ⟨atFunction, takesOpening, h⟩ := h.opening
      obtain ⟨atArgs, takesFunction, h⟩ := h.function
      obtain ⟨atClosing, inner, last⟩ := h.split
      obtain ⟨cs, closes⟩ := last.exists_closing
      have takesArgs : (many (exprWithin depth)).Takes atArgs atClosing
          (args.Forall₂ fun e tree => tree.meaning = .ok e) := by
        refine takes_many (fun arg member => ⟨arg.lexemes_ne_nil, fun text rest h => ih ?_ h⟩)
          (closes ▸ rejects_exprWithin_closing depth cs) inner
        have shorter : arg.lexemes.length ≤ (args.flatMap Expr.lexemes).length :=
          length_le_of_mem member
        simp only [bracketed, List.length_cons, List.length_append] at enough
        omega
      refine .tracked (Reaches.orElse_left (.tracked ?_))
      refine takes_offset.bind_reaches fun start _ => takesOpening.bind_reaches fun _ _ =>
        takesFunction.bind_reaches fun f' same => takesArgs.reaches.bind_layout_reaches
          last.solid_text fun trees all => last.closing.bind_pure fun _ _ => ?_
      simp only [same, ExprTree.meaning, ExprTree.meanings_eq_ok_iff.2 all, means]

theorem reaches_expr {e : Expr} (h : Legible e.lexemes text rest) :
    expr.Reaches text rest fun tree => tree.meaning = .ok e := fun offset =>
  reaches_exprWithin (text.length + 1) (h.length_le.trans (Nat.le_succ _)) h offset

theorem reaches_exprs {es : List Expr} (h : Legible (Algebra.exprsLexemes es) text rest) :
    exprs.Reaches text rest fun trees => ExprTree.meanings trees = .ok es := by
  obtain ⟨atWord, takesOpening, h⟩ := h.opening
  obtain ⟨atExprs, takesWord, h⟩ := h.symbol
  obtain ⟨atClosing, inner, last⟩ := h.split
  obtain ⟨cs, closes⟩ := last.exists_closing
  have takesExprs : (many expr).Takes atExprs atClosing
      (es.Forall₂ fun e tree => tree.meaning = .ok e) :=
    takes_many (fun e _ => ⟨e.lexemes_ne_nil, fun _ _ h => reaches_expr h⟩)
      (closes ▸ rejects_expr_closing cs) inner
  exact .tracked <| takesOpening.bind_reaches fun _ _ => takesWord.bind_reaches fun _ _ =>
    takesExprs.reaches.bind_layout_reaches last.solid_text fun trees all =>
      last.closing.bind_pure fun _ _ => ExprTree.meanings_eq_ok_iff.2 all

/-! ## Patterns -/

/-- A pattern in the default graph is written as three slots and read back. -/
theorem reaches_triple {p : QuadPattern} (default : p.graph = .term Term.defaultGraph)
    (h : Legible p.lexemes text rest) :
    triple.Reaches text rest fun tree => tree.meaning = .ok p := by
  have slots : p.writtenSlots = [p.subject, p.predicate, p.object] := if_pos default
  rw [QuadPattern.lexemes, slots] at h
  obtain ⟨atSubject, takesOpening, h⟩ := h.opening
  obtain ⟨atPredicate, subject, h⟩ := h.first
  obtain ⟨atObject, predicate, h⟩ := h.first
  obtain ⟨atClosing, object, last⟩ := h.first
  refine .tracked <| takesOpening.bind_reaches fun _ _ =>
    (subject.slot.spaced predicate.solid_text).bind_reaches fun s means =>
    (predicate.slot.spaced object.solid_text).bind_reaches fun p' means' =>
    (object.slot.spaced last.solid_text).bind_reaches fun o means'' =>
    last.closing.bind_pure fun _ _ => ?_
  rw [TripleTree.meaning, means, means', means'']
  exact congrArg Except.ok (by rw [QuadPattern.triple, ← default])

end QuadQuery.Grammar
