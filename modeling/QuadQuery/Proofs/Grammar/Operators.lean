import QuadQuery.Proofs.Grammar.ReadBack

/-!
# Reading operators back

Whatever the layout of its lexemes, a query is read back from them (`reaches_op`), provided that its
slots are readable and its patterns stand in the default graph, as those of the syntax do.
-/

namespace QuadQuery

/-- The patterns of the query stand in the default graph. -/
inductive Algebra.InDefaultGraph : Algebra → Prop
  | bgp {pattern : BasicPattern}
      (default : ∀ p ∈ pattern.patterns, p.graph = .term Term.defaultGraph) :
    InDefaultGraph (.bgp pattern)
  | quadPattern (graph : Slot) {pattern : BasicPattern}
      (default : ∀ p ∈ pattern.patterns, p.graph = .term Term.defaultGraph) :
    InDefaultGraph (.quadPattern graph pattern)
  | leftJoin {left right : Algebra} (first : InDefaultGraph left) (second : InDefaultGraph right)
      (exprs : List Expr) : InDefaultGraph (.leftJoin left right exprs)
  | conditional {left right : Algebra} (first : InDefaultGraph left)
      (second : InDefaultGraph right) : InDefaultGraph (.conditional left right)
  | filter (exprs : List Expr) {sub : Algebra} (first : InDefaultGraph sub) :
    InDefaultGraph (.filter exprs sub)
  | join {left right : Algebra} (first : InDefaultGraph left) (second : InDefaultGraph right) :
    InDefaultGraph (.join left right)
  | union {left right : Algebra} (first : InDefaultGraph left) (second : InDefaultGraph right) :
    InDefaultGraph (.union left right)
  | sequence {parts : List Algebra} (each : ∀ part ∈ parts, InDefaultGraph part) :
    InDefaultGraph (.sequence parts)
  | project (vars : List Variable) {sub : Algebra} (first : InDefaultGraph sub) :
    InDefaultGraph (.project vars sub)
  | distinct {sub : Algebra} (first : InDefaultGraph sub) : InDefaultGraph (.distinct sub)

namespace Grammar

open Recognizer Lexeme

variable {text rest : List Char} {ls : List Lexeme} {P : AlgebraTree → Prop}
  {p body : Recognizer AlgebraTree} {rule rule' : Rule}

/-! ## Alternatives -/

/-- The rules for operators, in the order in which they are tried. -/
def opRules : List Rule := [.bgp, .quadPattern, .leftJoin, .conditional, .filter, .join, .union,
  .sequence, .project, .distinct]

theorem operators_eq (p : Recognizer AlgebraTree) :
    ∃ bodies : List (Rule × Recognizer AlgebraTree), bodies.map Prod.fst = opRules ∧
      operators p = bodies.map fun e => operator e.1 e.2 :=
  ⟨[(.bgp, _), (.quadPattern, _), (.leftJoin, _), (.conditional, _), (.filter, _), (.join, _),
    (.union, _), (.sequence, _), (.project, _), (.distinct, _)], rfl, rfl⟩

theorem reaches_operator (h : Legible (bracketed (.word rule) ls) text rest)
    (inner : ∀ text cs, Legible ls text (')' :: cs) → body.Reaches text (')' :: cs) P) :
    (operator rule body).Reaches text rest P := by
  obtain ⟨atWord, takesOpening, h⟩ := h.opening
  obtain ⟨atBody, takesWord, h⟩ := h.symbol
  obtain ⟨atClosing, legible, last⟩ := h.split
  obtain ⟨cs, rfl⟩ := last.exists_closing
  exact .tracked <| takesOpening.bind_reaches fun _ _ => takesWord.bind_reaches fun _ _ =>
    (inner _ cs legible).bind_layout_reaches last.solid_text fun _ holds =>
      last.closing.bind_pure fun _ _ => holds

/-- No two operators begin with the same letter, and so one is not taken for another. -/
theorem rejects_operator (h : Legible (.opening :: .word rule :: ls) text rest)
    (differ : rule'.name.toList.head? ≠ rule.name.toList.head?) :
    (operator rule' body).Rejects text := by
  obtain ⟨atWord, takesOpening, h⟩ := h.opening
  obtain ⟨gap, mid, rfl, _⟩ := h.tail
  have begins : ∀ rule : Rule, ∃ c cs, rule.name.toList = c :: cs := by
    intro rule
    cases rule <;> exact ⟨_, _, rfl⟩
  obtain ⟨c, cs, written⟩ := begins rule
  obtain ⟨c', cs', written'⟩ := begins rule'
  have other : (c' == c) = false := beq_eq_false_iff_ne.2 fun same => differ (by
    rw [written, written', same]
    rfl)
  refine .tracked (takesOpening.bind_rejects fun _ => Rejects.bind (Rejects.spaced ?_) _)
  refine rejects_exactly ?_
  rw [Lexeme.text, written, written']
  simp [List.isPrefixOf, other]

/-- The operator whose word is written is read, and none of those that are tried before. -/
theorem reaches_operators (i : Nat) (alternative : operators p
      = (operators p).take i ++ operator rule body :: (operators p).drop (i + 1))
    (differ : ∀ rule' ∈ opRules.take i, rule'.name.toList.head? ≠ rule.name.toList.head?)
    (h : Legible (bracketed (.word rule) ls) text rest)
    (inner : ∀ text cs, Legible ls text (')' :: cs) → body.Reaches text (')' :: cs) P) :
    (firstOf (operators p)).Reaches text rest P := by
  rw [alternative]
  refine reaches_firstOf (reaches_operator h inner) fun q before => ?_
  obtain ⟨bodies, rules, same⟩ := operators_eq p
  rw [same, ← List.map_take] at before
  obtain ⟨e, earlier, rfl⟩ := List.mem_map.1 before
  refine rejects_operator h (differ e.1 ?_)
  rw [← rules, ← List.map_take]
  exact List.mem_map_of_mem earlier

theorem rejects_operators_closing (p : Recognizer AlgebraTree) (cs : List Char) :
    (firstOf (operators p)).Rejects (')' :: cs) := by
  obtain ⟨bodies, _, same⟩ := operators_eq p
  rw [same]
  refine rejects_firstOf ?_
  simp only [List.mem_map, forall_exists_index, and_imp, forall_apply_eq_imp_iff₂]
  exact fun e _ => .tracked ((rejects_opening (by decide) cs).bind _)

theorem rejects_opWithin_closing (depth : Nat) (cs : List Char) :
    (opWithin depth).Rejects (')' :: cs) := by
  cases depth with
  | zero => exact fun _ => rfl
  | succ depth => exact (rejects_operators_closing _ cs).tracked

/-! ## Operands -/

theorem takes_triples {pattern : BasicPattern} {cs : List Char}
    (default : ∀ p ∈ pattern.patterns, p.graph = .term Term.defaultGraph)
    (h : Legible pattern.lexemes text (')' :: cs)) : (many triple).Takes text (')' :: cs)
      fun trees => TripleTree.meanings trees = .ok pattern := by
  have each := takes_many (fun p member => ⟨p.lexemes_ne_nil, fun _ _ h =>
    reaches_triple (default p member) h⟩) (rejects_triple_closing cs) h
  exact each.mono fun trees all => TripleTree.meanings_eq_ok_iff.2 all

/-- Conditions that are left out are none. -/
theorem reaches_condition {exprs : List Expr} {cs : List Char}
    (h : Legible (Algebra.conditionLexemes exprs) text (')' :: cs)) :
    (optional Recognizer.exprs).Reaches text (')' :: cs)
      fun trees => ExprTree.meanings (trees.getD []) = .ok exprs := by
  cases exprs with
  | nil =>
    obtain ⟨laid, _, _⟩ := h
    cases laid
    exact Reaches.orElse_right (Takes.reaches (takes_pure rfl))
      ((rejects_exprs_closing cs).bind _)
  | cons e rest =>
    have some : (Recognizer.exprs >>= fun trees => pure (some trees)).Reaches text (')' :: cs)
        fun trees => ExprTree.meanings (trees.getD []) = .ok (e :: rest) :=
      (reaches_exprs h).bind_pure fun _ all => all
    exact some.orElse_left

/-- An operator that combines what two operands mean is read back if they are. -/
theorem reaches_twoOperands {left right : Algebra} {make : AlgebraTree → AlgebraTree → AlgebraTree}
    {combine : Algebra → Algebra → Algebra}
    (means : ∀ l r, (make l r).meaning = do
      let left ← l.meaning
      return combine left (← r.meaning))
    (first : ∀ text rest, Legible left.lexemes text rest →
      p.Reaches text rest fun tree => tree.meaning = .ok left)
    (second : ∀ text rest, Legible right.lexemes text rest →
      p.Reaches text rest fun tree => tree.meaning = .ok right)
    (h : Legible (left.lexemes ++ right.lexemes) text rest) :
    (twoOperands p make).Reaches text rest fun tree => tree.meaning = .ok (combine left right) := by
  obtain ⟨mid, legible, legible'⟩ := h.split
  refine ((first text mid legible).spaced legible'.solid_text).bind_reaches fun l leftMeans =>
    (second mid rest legible').bind_pure fun r rightMeans => ?_
  rw [means, leftMeans, rightMeans]
  rfl

/-- Names of variables in parentheses are read back. -/
theorem takes_names {vars : List Variable} {cs : List Char}
    (h : Legible (vars.map fun v => .slot (.var v)) text (')' :: cs)) :
    (many Recognizer.var).Takes text (')' :: cs)
      fun words => words.map (fun word => Variable.ofText (String.ofList word)) = vars := by
  rw [List.map_eq_flatMap] at h
  have each := takes_many (fun v _ => ⟨List.cons_ne_nil _ _, fun _ _ h => h.var⟩)
    (rejects_var_closing cs) h
  refine each.mono fun words all => ?_
  clear each h
  induction all with
  | nil => rfl
  | cons first _ ih => rw [List.map_cons, first, ih]

/-- Operators are read back, however deep they are. -/
theorem reaches_opWithin (depth : Nat) {op : Algebra} (enough : op.lexemes.length ≤ depth)
    (default : op.InDefaultGraph) (h : Legible op.lexemes text rest) :
    (opWithin depth).Reaches text rest fun tree => tree.meaning = .ok op := by
  induction depth generalizing op text rest with
  | zero => exact absurd (List.eq_nil_of_length_eq_zero (Nat.le_zero.1 enough)) op.lexemes_ne_nil
  | succ depth ih =>
    refine Reaches.tracked ?_
    cases default with
    | @bgp pattern default =>
      refine reaches_operators 0 rfl (by decide) h fun text cs h => ?_
      refine (takes_triples default h).reaches.bind_pure fun trees means => ?_
      rw [AlgebraTree.meaning, means]
      rfl
    | @quadPattern graph pattern default =>
      refine reaches_operators 1 rfl (by decide) h fun text cs h => ?_
      obtain ⟨mid, slot, patterns⟩ := h.first
      refine (slot.slot.spaced patterns.solid_text).bind_reaches fun s means =>
        (takes_triples default patterns).reaches.bind_pure fun trees means' => ?_
      rw [AlgebraTree.meaning, means, means']
      rfl
    | @leftJoin left right first second exprs =>
      simp only [Algebra.lexemes, bracketed, List.length_cons, List.length_append] at enough
      refine reaches_operators 2 rfl (by decide) h fun text cs h => ?_
      obtain ⟨atRight, legible, h⟩ := h.split
      obtain ⟨atCondition, legible', condition⟩ := h.split
      refine ((ih (by omega) first legible).spaced h.solid_text).bind_reaches fun l means =>
        ((ih (by omega) second legible').spaced condition.solid_text).bind_reaches fun r means' =>
        (reaches_condition condition).bind_pure fun trees all => ?_
      rw [AlgebraTree.meaning, means, means', all]
      rfl
    | @conditional left right first second =>
      simp only [Algebra.lexemes, bracketed, List.length_cons, List.length_append] at enough
      refine reaches_operators 3 rfl (by decide) h fun text cs h => ?_
      exact reaches_twoOperands (fun _ _ => rfl) (fun _ _ => ih (by omega) first)
        (fun _ _ => ih (by omega) second) h
    | @filter exprs sub first =>
      simp only [Algebra.lexemes, bracketed, List.length_cons, List.length_append] at enough
      refine reaches_operators 4 rfl (by decide) h fun text cs h => ?_
      obtain ⟨mid, conditions, legible⟩ := h.split
      have read : (firstOf [Recognizer.exprs, do return [← expr]]).Reaches text mid
          fun trees => ExprTree.meanings trees = .ok exprs := (reaches_exprs conditions).orElse_left
      refine (read.spaced legible.solid_text).bind_reaches fun trees all =>
        (ih (by omega) first legible).bind_pure fun o means => ?_
      rw [AlgebraTree.meaning, all, means]
      rfl
    | @join left right first second =>
      simp only [Algebra.lexemes, bracketed, List.length_cons, List.length_append] at enough
      refine reaches_operators 5 rfl (by decide) h fun text cs h => ?_
      exact reaches_twoOperands (fun _ _ => rfl) (fun _ _ => ih (by omega) first)
        (fun _ _ => ih (by omega) second) h
    | @union left right first second =>
      simp only [Algebra.lexemes, bracketed, List.length_cons, List.length_append] at enough
      refine reaches_operators 6 rfl (by decide) h fun text cs h => ?_
      exact reaches_twoOperands (fun _ _ => rfl) (fun _ _ => ih (by omega) first)
        (fun _ _ => ih (by omega) second) h
    | @sequence parts each =>
      rw [Algebra.lexemes, Algebra.lexemesOf_eq] at h enough
      simp only [bracketed, List.length_cons, List.length_append] at enough
      refine reaches_operators 7 rfl (by decide) h fun text cs h => ?_
      have takes := takes_many (fun part member => ⟨part.lexemes_ne_nil, fun _ _ h => ih (by
        have shorter : part.lexemes.length ≤ (parts.flatMap Algebra.lexemes).length :=
          length_le_of_mem member
        omega) (each part member) h⟩) (rejects_opWithin_closing depth cs) h
      refine takes.reaches.bind_pure fun trees all => ?_
      rw [AlgebraTree.meaning, AlgebraTree.meanings_eq_ok_iff.2 all]
      rfl
    | @project vars sub first =>
      simp only [Algebra.lexemes, bracketed, List.length_cons, List.length_append] at enough
      refine reaches_operators 8 rfl (by decide) h fun text cs h => ?_
      obtain ⟨atNames, takesOpening, h⟩ := h.opening
      obtain ⟨atClosing, names, h⟩ := h.split
      obtain ⟨cs', rfl⟩ := h.exists_closing
      obtain ⟨atOperand, takesClosing, legible⟩ := h.symbol
      refine takesOpening.bind_reaches fun _ _ =>
        (takes_names names).reaches.bind_layout_reaches h.solid_text fun words means =>
        takesClosing.bind_reaches fun _ _ => (ih (by omega) first legible).bind_pure fun o means' => ?_
      rw [AlgebraTree.meaning, means, means']
      rfl
    | @distinct sub first =>
      simp only [Algebra.lexemes, bracketed, List.length_cons, List.length_append] at enough
      refine reaches_operators 9 rfl (by decide) h fun text cs h => ?_
      refine (ih (by omega) first h).bind_pure fun o means => ?_
      rw [AlgebraTree.meaning, means]
      rfl

/-- Whatever the layout of its lexemes, a query is read back from them. -/
theorem reaches_op {op : Algebra} (default : op.InDefaultGraph) (h : Legible op.lexemes text rest) :
    Recognizer.op.Reaches text rest fun tree => tree.meaning = .ok op := fun offset =>
  reaches_opWithin (text.length + 1) (h.length_le.trans (Nat.le_succ _)) default h offset

end Grammar

end QuadQuery
