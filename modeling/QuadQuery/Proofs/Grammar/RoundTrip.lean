import QuadQuery.Grammar.Text
import QuadQuery.Proofs.Grammar.Operators

/-!
# Queries that are written and read back

Whatever text a query was read from, all its slots can be written and its patterns stand in the
default graph (`yields_op`). So it is read back from its lexemes in any layout, and its own text
is one of the layouts (`Algebra.Writable.ofChars`, `Algebra.laid_text`).
-/

namespace QuadQuery

open Grammar Lexeme

/-! ## What can be written -/

/-- The lexeme is one that a word can stand for. -/
def Grammar.Lexeme.Writable : Lexeme → Prop
  | .slot s => s.Writable
  | _ => True

/-- The lexemes of the expression are such as words can stand for. -/
def Expr.Writable (e : Expr) : Prop :=
  ∀ l ∈ e.lexemes, l.Writable

/-- The pattern is one of three slots that words can stand for. -/
structure QuadPattern.Writable (p : QuadPattern) : Prop where
  default : p.graph = .term Term.defaultGraph
  lexemes : ∀ l ∈ p.lexemes, l.Writable

/-- The query consists of such patterns and of slots that words can stand for. -/
structure Algebra.Writable (op : Algebra) : Prop where
  default : op.InDefaultGraph
  lexemes : ∀ l ∈ op.lexemes, l.Writable

namespace Grammar

open Recognizer

theorem writable_bracketed {head : Lexeme} {inner : List Lexeme} (h : head.Writable)
    (all : ∀ l ∈ inner, l.Writable) : ∀ l ∈ bracketed head inner, l.Writable :=
  List.forall_mem_cons.2 ⟨trivial, List.forall_mem_cons.2 ⟨h,
    List.forall_mem_append.2 ⟨all, List.forall_mem_singleton.2 trivial⟩⟩⟩

theorem writable_flatMap {ι : Type} {lexemes : ι → List Lexeme} {items : List ι}
    (each : ∀ i ∈ items, ∀ l ∈ lexemes i, l.Writable) : ∀ l ∈ items.flatMap lexemes, l.Writable := by
  intro l member
  obtain ⟨i, listed, inside⟩ := List.mem_flatMap.1 member
  exact each i listed l inside

theorem writable_exprs {exprs : List Expr} (all : ∀ e ∈ exprs, e.Writable) :
    ∀ l ∈ Algebra.exprsLexemes exprs, l.Writable :=
  writable_bracketed trivial (writable_flatMap all)

theorem writable_condition {exprs : List Expr} (all : ∀ e ∈ exprs, e.Writable) :
    ∀ l ∈ Algebra.conditionLexemes exprs, l.Writable := by
  unfold Algebra.conditionLexemes
  split
  · exact List.forall_mem_nil _
  · exact writable_exprs all

/-- A conjunction or a disjunction of many is written as one of two inside another. -/
theorem writable_foldl (f : Function) {make : Expr → Expr → Expr}
    (written : ∀ l r, (make l r).lexemes = bracketed (.function f) (l.lexemes ++ r.lexemes))
    {first : Expr} {others : List Expr} (here : first.Writable)
    (later : ∀ arg ∈ others, arg.Writable) : (others.foldl make first).Writable := by
  induction others generalizing first with
  | nil => exact here
  | cons next others ih =>
    obtain ⟨second, later⟩ := List.forall_mem_cons.1 later
    refine ih ?_ later
    rw [Expr.Writable, written]
    exact writable_bracketed trivial (List.forall_mem_append.2 ⟨here, second⟩)

/-- A call is written with what its arguments are written with. -/
theorem writable_call {f : Function} {args : List Expr} {e : Expr} (h : f.call args = .ok e)
    (all : ∀ arg ∈ args, arg.Writable) : e.Writable := by
  have direct : e.lexemes = bracketed (.function f) (args.flatMap Expr.lexemes) → e.Writable :=
    fun written => by
      rw [Expr.Writable, written]
      exact writable_bracketed trivial (writable_flatMap all)
  -- What is left are the calls with fitting arguments, and the regular expressions.
  unfold Function.call at h
  split at h <;> try cases h
  · exact direct (by simp [Expr.lexemes])
  · exact direct (by simp [Expr.lexemes])
  · exact direct (by simp [Expr.lexemes])
  · next operand source =>
    split at h
    · next pattern read =>
      cases h
      refine direct ?_
      simp [Expr.lexemes, Regex.source_of_ofText? read]
    · cases h
  · next first second others =>
    obtain ⟨here, later⟩ := List.forall_mem_cons.1 all
    have folded : ((second :: others).foldl .and first).Writable :=
      writable_foldl .and (fun _ _ => rfl) here later
    exact folded
  · next first second others =>
    obtain ⟨here, later⟩ := List.forall_mem_cons.1 all
    have folded : ((second :: others).foldl .or first).Writable :=
      writable_foldl .or (fun _ _ => rfl) here later
    exact folded

end Grammar

namespace Algebra.Writable

variable {left right sub : Algebra} {pattern : BasicPattern} {exprs : List Expr}

theorem bgp (h : ∀ p ∈ pattern.patterns, p.Writable) : (Algebra.bgp pattern).Writable :=
  ⟨.bgp fun p member => (h p member).default,
    writable_bracketed trivial (writable_flatMap fun p member => (h p member).lexemes)⟩

theorem quadPattern {graph : Slot} (slot : graph.Writable)
    (h : ∀ p ∈ pattern.patterns, p.Writable) : (Algebra.quadPattern graph pattern).Writable :=
  ⟨.quadPattern graph fun p member => (h p member).default, writable_bracketed trivial
    (List.forall_mem_cons.2 ⟨slot, writable_flatMap fun p member => (h p member).lexemes⟩)⟩

theorem leftJoin (first : left.Writable) (second : right.Writable)
    (all : ∀ e ∈ exprs, e.Writable) : (Algebra.leftJoin left right exprs).Writable :=
  ⟨.leftJoin first.default second.default exprs, writable_bracketed trivial
    (List.forall_mem_append.2 ⟨first.lexemes,
      List.forall_mem_append.2 ⟨second.lexemes, writable_condition all⟩⟩)⟩

theorem conditional (first : left.Writable) (second : right.Writable) :
    (Algebra.conditional left right).Writable :=
  ⟨.conditional first.default second.default, writable_bracketed trivial
    (List.forall_mem_append.2 ⟨first.lexemes, second.lexemes⟩)⟩

theorem filter (all : ∀ e ∈ exprs, e.Writable) (h : sub.Writable) :
    (Algebra.filter exprs sub).Writable :=
  ⟨.filter exprs h.default, writable_bracketed trivial
    (List.forall_mem_append.2 ⟨writable_exprs all, h.lexemes⟩)⟩

theorem join (first : left.Writable) (second : right.Writable) :
    (Algebra.join left right).Writable :=
  ⟨.join first.default second.default, writable_bracketed trivial
    (List.forall_mem_append.2 ⟨first.lexemes, second.lexemes⟩)⟩

theorem union (first : left.Writable) (second : right.Writable) :
    (Algebra.union left right).Writable :=
  ⟨.union first.default second.default, writable_bracketed trivial
    (List.forall_mem_append.2 ⟨first.lexemes, second.lexemes⟩)⟩

theorem sequence {parts : List Algebra} (each : ∀ part ∈ parts, part.Writable) :
    (Algebra.sequence parts).Writable := by
  refine ⟨.sequence fun part member => (each part member).default, ?_⟩
  rw [Algebra.lexemes, lexemesOf_eq]
  exact writable_bracketed trivial (writable_flatMap fun part member => (each part member).lexemes)

theorem project {vars : List Variable} (names : ∀ v ∈ vars, (Slot.var v).Writable)
    (h : sub.Writable) : (Algebra.project vars sub).Writable := by
  refine ⟨.project vars h.default, writable_bracketed trivial (List.forall_mem_cons.2 ⟨trivial,
    List.forall_mem_append.2 ⟨fun l member => ?_, List.forall_mem_cons.2 ⟨trivial, h.lexemes⟩⟩⟩)⟩
  obtain ⟨v, listed, rfl⟩ := List.mem_map.1 member
  exact names v listed

theorem distinct (h : sub.Writable) : (Algebra.distinct sub).Writable :=
  ⟨.distinct h.default, writable_bracketed trivial h.lexemes⟩

end Algebra.Writable

/-! ## What is read -/

namespace Grammar

open Recognizer

/-- What several trees mean can be written if what each of them means can. -/
theorem writable_of_meanings {trees : List ExprTree} {exprs : List Expr}
    (each : ∀ tree ∈ trees, ∀ e, tree.meaning = .ok e → e.Writable)
    (h : ExprTree.meanings trees = .ok exprs) : ∀ e ∈ exprs, e.Writable := by
  intro e member
  obtain ⟨tree, listed, means⟩ := exists_of_forall₂ (ExprTree.meanings_eq_ok_iff.1 h) e member
  exact each tree listed e means

theorem yields_exprWithin (depth : Nat) :
    (exprWithin depth).Yields fun tree => ∀ e, tree.meaning = .ok e → e.Writable := by
  induction depth with
  | zero => exact yields_fail
  | succ depth ih =>
    refine (yields_firstOf (List.forall_mem_cons.2 ⟨?_, List.forall_mem_singleton.2 ?_⟩)).tracked
    · refine Yields.tracked <| .after fun start => .after fun _ => .after fun f =>
        ih.many.bind fun trees writable => .after fun _ => .after fun _ =>
        yields_pure fun e means => ?_
      rw [ExprTree.meaning] at means
      split at means
      · next args all =>
        split at means
        · next call =>
          cases means
          exact writable_call call (writable_of_meanings writable all)
        · cases means
      · cases means
    · refine yields_slot.bind fun tree writable => yields_pure fun e means => ?_
      rw [ExprTree.meaning] at means
      split at means
      · next v same =>
        cases means
        exact List.forall_mem_singleton.2 (writable _ same)
      · next t same =>
        cases means
        exact List.forall_mem_singleton.2 (writable _ same)
      · cases means

/-- Whatever an expression that is read means can be written. -/
theorem yields_expr : expr.Yields fun tree => ∀ e, tree.meaning = .ok e → e.Writable :=
  .nested yields_exprWithin

theorem yields_exprs : exprs.Yields fun trees => ∀ es, ExprTree.meanings trees = .ok es →
    ∀ e ∈ es, e.Writable := by
  refine Yields.tracked <| .after fun _ => .after fun _ => yields_expr.many.bind fun trees writable =>
    .after fun _ => .after fun _ => yields_pure fun es all => ?_
  exact writable_of_meanings writable all

/-- Triples that are read are patterns in the default graph. -/
theorem yields_triple : triple.Yields fun tree => ∀ p, tree.meaning = .ok p → p.Writable := by
  refine Yields.tracked <| .after fun _ => yields_slot.spaced.bind fun s subject =>
    yields_slot.spaced.bind fun p predicate => yields_slot.spaced.bind fun o object =>
    .after fun _ => yields_pure fun pattern means => ?_
  obtain ⟨s', first, means⟩ := exists_ok_of_bind means
  obtain ⟨p', second, means⟩ := exists_ok_of_bind means
  obtain ⟨o', third, means⟩ := exists_ok_of_bind means
  cases means
  refine ⟨rfl, ?_⟩
  have slots : (QuadPattern.triple s' p' o').writtenSlots = [s', p', o'] := if_pos rfl
  rw [QuadPattern.lexemes, slots]
  exact List.forall_mem_cons.2 ⟨trivial, List.forall_mem_cons.2 ⟨subject s' first,
    List.forall_mem_cons.2 ⟨predicate p' second, List.forall_mem_cons.2 ⟨object o' third,
      List.forall_mem_singleton.2 trivial⟩⟩⟩⟩

theorem yields_triples : (many triple).Yields fun trees => ∀ pattern,
    TripleTree.meanings trees = .ok pattern → ∀ p ∈ pattern.patterns, p.Writable := by
  refine yields_triple.many.mono fun trees each pattern all p member => ?_
  obtain ⟨tree, listed, means⟩ := exists_of_forall₂ (TripleTree.meanings_eq_ok_iff.1 all) p member
  exact each tree listed p means

theorem yields_operator {rule : Rule} {body : Recognizer AlgebraTree} {P : AlgebraTree → Prop}
    (h : body.Yields P) : (operator rule body).Yields P :=
  .tracked <| .after fun _ => .after fun _ => h.bind fun _ holds => .after fun _ => .after fun _ =>
    yields_pure holds

/-- An operator that combines what two operands mean can be written if they can. -/
theorem yields_twoOperands {p : Recognizer AlgebraTree}
    {make : AlgebraTree → AlgebraTree → AlgebraTree} {combine : Algebra → Algebra → Algebra}
    (means : ∀ l r, (make l r).meaning = do
      let left ← l.meaning
      return combine left (← r.meaning))
    (both : ∀ {left right}, left.Writable → right.Writable → (combine left right).Writable)
    (h : p.Yields fun tree => ∀ op, tree.meaning = .ok op → op.Writable) :
    (twoOperands p make).Yields fun tree => ∀ op, tree.meaning = .ok op → op.Writable := by
  refine h.spaced.bind fun l left => h.bind fun r right => yields_pure fun op same => ?_
  rw [means] at same
  obtain ⟨left', first, same⟩ := exists_ok_of_bind same
  obtain ⟨right', second, same⟩ := exists_ok_of_bind same
  cases same
  exact both (left left' first) (right right' second)

theorem yields_opWithin (depth : Nat) :
    (opWithin depth).Yields fun tree => ∀ op, tree.meaning = .ok op → op.Writable := by
  induction depth with
  | zero => exact yields_fail
  | succ depth ih =>
    refine (yields_firstOf ?_).tracked
    simp only [operators, List.forall_mem_cons]
    refine ⟨yields_operator ?bgp, yields_operator ?quadPattern, yields_operator ?leftJoin,
      yields_operator ?conditional, yields_operator ?filter, yields_operator ?join,
      yields_operator ?union, yields_operator ?sequence, yields_operator ?project,
      yields_operator ?distinct, List.forall_mem_nil _⟩
    case bgp =>
      refine yields_triples.bind fun trees writable => yields_pure fun op means => ?_
      obtain ⟨pattern, all, means⟩ := exists_ok_of_bind means
      cases means
      exact .bgp (writable pattern all)
    case quadPattern =>
      refine yields_slot.spaced.bind fun s slot => yields_triples.bind fun trees writable =>
        yields_pure fun op means => ?_
      obtain ⟨graph, first, means⟩ := exists_ok_of_bind means
      obtain ⟨pattern, all, means⟩ := exists_ok_of_bind means
      cases means
      exact .quadPattern (slot graph first) (writable pattern all)
    case leftJoin =>
      refine ih.spaced.bind fun l left => ih.spaced.bind fun r right =>
        yields_exprs.optional.bind fun condition writable => yields_pure fun op means => ?_
      obtain ⟨left', first, means⟩ := exists_ok_of_bind means
      obtain ⟨right', second, means⟩ := exists_ok_of_bind means
      obtain ⟨exprs, all, means⟩ := exists_ok_of_bind means
      cases means
      refine .leftJoin (left left' first) (right right' second) ?_
      cases condition with
      | none =>
        cases all
        exact List.forall_mem_nil _
      | some trees => exact writable trees rfl exprs all
    case conditional => exact yields_twoOperands (fun _ _ => rfl) .conditional ih
    case filter =>
      have conditions : (firstOf [exprs, do return [← expr]]).Yields fun trees =>
          ∀ es, ExprTree.meanings trees = .ok es → ∀ e ∈ es, e.Writable := by
        refine yields_firstOf (List.forall_mem_cons.2 ⟨yields_exprs, List.forall_mem_singleton.2
          (yields_expr.bind fun tree writable => yields_pure fun es all => ?_)⟩)
        exact writable_of_meanings (List.forall_mem_singleton.2 writable) all
      refine conditions.spaced.bind fun trees writable => ih.bind fun o sub =>
        yields_pure fun op means => ?_
      obtain ⟨exprs, all, means⟩ := exists_ok_of_bind means
      obtain ⟨sub', first, means⟩ := exists_ok_of_bind means
      cases means
      exact .filter (writable exprs all) (sub sub' first)
    case join => exact yields_twoOperands (fun _ _ => rfl) .join ih
    case union => exact yields_twoOperands (fun _ _ => rfl) .union ih
    case sequence =>
      refine ih.many.bind fun trees each => yields_pure fun op means => ?_
      obtain ⟨parts, all, means⟩ := exists_ok_of_bind means
      cases means
      refine .sequence fun part member => ?_
      obtain ⟨tree, listed, means⟩ :=
        exists_of_forall₂ (AlgebraTree.meanings_eq_ok_iff.1 all) part member
      exact each tree listed part means
    case project =>
      refine .after fun _ => yields_var.many.bind fun words names => .after fun _ => .after fun _ =>
        ih.bind fun o sub => yields_pure fun op means => ?_
      obtain ⟨sub', first, means⟩ := exists_ok_of_bind means
      cases means
      refine .project (fun v member => ?_) (sub sub' first)
      obtain ⟨word, listed, rfl⟩ := List.mem_map.1 member
      exact names word listed
    case distinct =>
      refine ih.bind fun o sub => yields_pure fun op means => ?_
      obtain ⟨sub', first, means⟩ := exists_ok_of_bind means
      cases means
      exact .distinct (sub sub' first)

/-- Whatever a query that is read means can be written. -/
theorem yields_op : op.Yields fun tree => ∀ op, tree.meaning = .ok op → op.Writable :=
  .nested yields_opWithin

theorem yields_algebra : algebra.Yields fun tree => ∀ op, tree.meaning = .ok op → op.Writable :=
  .tracked <| .after fun _ => yields_op.spaced.bind fun _ writable => .after fun _ =>
    yields_pure writable

/-! ## Round trips -/

theorem recognize_eq_ok_iff {α : Type} {p : Recognizer α} {text : List Char} {a : α} :
    recognize p text = .ok a ↔ ∃ rest, (p ⟨0, text⟩).result = some (a, rest) := by
  simp only [recognize]
  split
  · next found rest read => simp [read]
  · next read => simp [read]

theorem located_eq_ok_iff {α : Type} {text : List Char} {outcome : Except Flaw α} {a : α} :
    located text outcome = .ok a ↔ outcome = .ok a := by
  cases outcome <;> simp [located]

end Grammar

namespace Algebra

open Recognizer

variable {op : Algebra} {written text lead : List Char}

/-- A query is written by a text if the tree of the text means it. -/
theorem ofChars_eq_ok_iff : Algebra.ofChars written = .ok op ↔
    ∃ tree rest, (algebra ⟨0, written⟩).result = some (tree, rest) ∧ tree.meaning = .ok op := by
  rw [Algebra.ofChars, located_eq_ok_iff]
  constructor
  · intro h
    obtain ⟨tree, read, means⟩ := exists_ok_of_bind h
    obtain ⟨rest, read⟩ := recognize_eq_ok_iff.1 read
    exact ⟨tree, rest, read, means⟩
  · rintro ⟨tree, rest, read, means⟩
    rw [recognize_eq_ok_iff.2 ⟨rest, read⟩]
    exact means

theorem writable_of_ofChars (h : Algebra.ofChars written = .ok op) : op.Writable := by
  obtain ⟨tree, rest, read, means⟩ := ofChars_eq_ok_iff.1 h
  exact yields_algebra _ tree rest read op means

/-- The lexemes of a query that can be written are legible in any layout. -/
theorem Writable.legible (h : op.Writable)
    (pointed : ∀ d, .slot (.term (.decimal d)) ∈ op.lexemes → d.Pointed)
    (laid : Laid op.lexemes text []) : Legible op.lexemes text [] := by
  refine ⟨laid, fun l member => ?_, solid_nil⟩
  have writable := h.lexemes l member
  cases l with
  | slot s =>
    refine ⟨writable, ?_⟩
    rintro d rfl
    exact pointed d member
  | opening | closing | word | function => trivial

/-- A query that can be written is read back from its lexemes in any layout. -/
theorem Writable.ofChars (h : op.Writable)
    (pointed : ∀ d, .slot (.term (.decimal d)) ∈ op.lexemes → d.Pointed) (gap : Layout lead)
    (laid : Laid op.lexemes text []) : Algebra.ofChars (lead ++ text) = .ok op := by
  have legible := h.legible pointed laid
  have takesOp : (spaced Recognizer.op).Takes text [] fun tree => tree.meaning = .ok op :=
    (reaches_op h.default legible).spaced solid_nil
  have takesEnd : endOfText.Takes [] [] fun _ => True := fun offset => ⟨(), offset, rfl, trivial⟩
  have takes : algebra.Takes (lead ++ text) [] fun tree => tree.meaning = .ok op :=
    .tracked <| (takes_layout gap legible.solid_text).bind fun _ _ => takesOp.bind fun _ means =>
      takesEnd.bind fun _ _ => takes_pure means
  obtain ⟨tree, rest, read, means⟩ := takes 0
  exact ofChars_eq_ok_iff.2 ⟨tree, _, read, means⟩

/-- Whatever text a query was read from, its own text is one of the layouts of its lexemes, and from
each of the layouts the query is read back, with any blanks and comments in front, provided that its
decimals are written with a point and without an exponent. -/
theorem ofText_of_laid {written : String} {op : Algebra} (read : Algebra.ofText written = .ok op)
    (pointed : ∀ d, .slot (.term (.decimal d)) ∈ op.lexemes → d.Pointed) :
    Laid op.lexemes op.text.toList [] ∧ ∀ lead text, Layout lead → Laid op.lexemes text [] →
      Algebra.ofText (String.ofList (lead ++ text)) = .ok op := by
  refine ⟨op.laid_text, fun lead text gap laid => ?_⟩
  rw [Algebra.ofText, String.toList_ofList]
  exact (writable_of_ofChars read).ofChars pointed gap laid

/-- The lexemes with a gap behind each of them. -/
theorem laid_flatMap {gap : List Char} (layout : Layout gap) (some : gap ≠ []) (ls : List Lexeme) :
    Laid ls (ls.flatMap fun l => l.text ++ gap) [] := by
  induction ls with
  | nil => exact .nil []
  | cons l ls ih =>
    rw [List.flatMap_cons, List.append_assoc]
    exact .cons layout (.inl some) ih

/-- A comparison, a decimal and an operator that cannot be planned, in a text with a comment behind
every lexeme. -/
theorem ofText_of_laid_commented : ∃ op,
    Algebra.ofText "(filter (< ?n 1.50) (sequence (bgp (?s <#p> ?n)) (bgp)))" = .ok op ∧
    op.text = "(filter (exprs (< ?n 1.50)) (sequence (bgp (?s <#p> ?n)) (bgp )))" ∧
    Algebra.ofText (String.ofList ([' ', '#', '(', '"', '\n', '\t'] ++
      op.lexemes.flatMap fun l => l.text ++ [' ', '#', '(', '"', '\n', '\t'])) = .ok op := by
  have lexemes : (Algebra.ofText "(filter (< ?n 1.50) (sequence (bgp (?s <#p> ?n)) (bgp)))").toOption.map
      (fun op => (op.text, op.lexemes)) = some
        ("(filter (exprs (< ?n 1.50)) (sequence (bgp (?s <#p> ?n)) (bgp )))",
          bracketed (.word .filter) (
            bracketed (.word .exprs) (bracketed (.function (.compare .lt))
              [.slot (.var ⟨"n"⟩), .slot (.term (.decimal ⟨150, 2⟩))]) ++
            bracketed (.word .sequence) (
              bracketed (.word .bgp) [.opening, .slot (.var ⟨"s"⟩), .slot (.term (.iri "#p")),
                .slot (.var ⟨"n"⟩), .closing] ++
              bracketed (.word .bgp) []))) := by
    decide +kernel
  cases read : Algebra.ofText "(filter (< ?n 1.50) (sequence (bgp (?s <#p> ?n)) (bgp)))" with
  | error refusal =>
    rw [read] at lexemes
    cases lexemes
  | ok op =>
    rw [read] at lexemes
    obtain ⟨text, lexemes⟩ := Prod.mk.inj (Option.some.inj lexemes)
    have pointed : ∀ d, .slot (.term (.decimal d)) ∈ op.lexemes → d.Pointed := by
      intro d member
      obtain rfl : d = ⟨150, 2⟩ := by simpa [lexemes, bracketed] using member
      exact ⟨by decide +kernel, by decide +kernel, by decide +kernel⟩
    have gap : Layout [' ', '#', '(', '"', '\n', '\t'] :=
      .blank rfl (.comment (by decide : '\n' ∉ ['(', '"']) (.blank rfl .nil))
    exact ⟨op, rfl, text, (ofText_of_laid read pointed).2 _ _ gap
      (laid_flatMap gap (List.cons_ne_nil _ _) _)⟩

end Algebra

end QuadQuery
