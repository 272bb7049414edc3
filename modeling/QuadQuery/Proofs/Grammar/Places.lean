import QuadQuery.Proofs.Grammar.Pieces
import QuadQuery.Proofs.Grammar.TermWords

/-!
# Where the pieces of a query stand

The pieces of the tree that is read from a text stand in the text at the positions that they carry, and
they are listed in the order of the text, except that a call is listed behind its arguments
(`Recognizer.locates_algebra`). What is read in steps is located step by step: a step locates the pieces
of what it reads behind those of what was read before (`Recognizer.Locates`).
-/

namespace QuadQuery.Grammar

open Recognizer

namespace Piece

/-- The pieces that the arguments of a call consist of. -/
def arguments : Piece → List Piece
  | word _ => []
  | call _ _ args => args.flatMap ExprTree.pieces

/-- The piece starts at its position in the text: there, a word begins, or a parenthesis is followed by
the name of the function. -/
def StandsIn (text : List Char) : Piece → Prop
  | word t => ∃ rest, Token.term (text.drop t.offset) = some (t.kind, t.word, rest)
  | call offset f _ => ∃ rest behind, text.drop offset = '(' :: rest ∧
    Token.function (afterLayout rest) = some (f.name.toList, behind)

end Piece

/-- The pieces are in the order of the text, except that a call is behind its arguments. -/
def InOrder (ps : List Piece) : Prop :=
  ps.Pairwise fun p q => p.offset < q.offset ∨ p ∈ q.arguments

/-- The pieces stand in the text between two positions, in order. -/
structure Located (text : List Char) (low high : Nat) (ps : List Piece) : Prop where
  bounds : low ≤ high
  stands : ∀ p ∈ ps, p.StandsIn text ∧ low ≤ p.offset ∧ p.offset < high
  inOrder : InOrder ps

namespace Located

variable {text : List Char} {low low' mid high high' : Nat} {ps qs : List Piece}

theorem nil (bounds : low ≤ high) : Located text low high [] :=
  ⟨bounds, List.forall_mem_nil _, .nil⟩

theorem mono (h : Located text low high ps) (below : low' ≤ low) (above : high ≤ high') :
    Located text low' high' ps := by
  refine ⟨Nat.le_trans below (Nat.le_trans h.bounds above), fun p listed => ?_, h.inOrder⟩
  obtain ⟨stands, lower, upper⟩ := h.stands p listed
  exact ⟨stands, Nat.le_trans below lower, Nat.lt_of_lt_of_le upper above⟩

theorem append (h : Located text low mid ps) (h' : Located text mid high qs) :
    Located text low high (ps ++ qs) := by
  refine ⟨Nat.le_trans h.bounds h'.bounds, List.forall_mem_append.2
    ⟨(h.mono le_rfl h'.bounds).stands, (h'.mono h.bounds le_rfl).stands⟩,
    List.pairwise_append.2 ⟨h.inOrder, h'.inOrder, fun p listed q listed' => .inl ?_⟩⟩
  exact Nat.lt_of_lt_of_le (h.stands p listed).2.2 (h'.stands q listed').2.1

/-- A call stands behind its arguments although it starts in front of them. -/
theorem call {offset : Nat} {f : Function} {args : List ExprTree}
    (inside : Located text mid high (args.flatMap ExprTree.pieces)) (before : offset < mid)
    (stands : (Piece.call offset f args).StandsIn text) :
    Located text offset high (args.flatMap ExprTree.pieces ++ [.call offset f args]) := by
  have inside' := inside.mono before.le le_rfl
  refine ⟨inside'.bounds, List.forall_mem_append.2 ⟨inside'.stands, List.forall_mem_singleton.2
    ⟨stands, le_rfl, Nat.lt_of_lt_of_le before inside.bounds⟩⟩,
    List.pairwise_append.2 ⟨inside.inOrder, List.pairwise_singleton _ _, fun p listed q last => .inr ?_⟩⟩
  rw [List.mem_singleton.1 last]
  exact listed

end Located

/-- The cursor is at the place in the text that its offset tells. -/
def Cursor.In (text : List Char) (c : Cursor) : Prop :=
  text.drop c.offset = c.rest

theorem Cursor.In.advance {text : List Char} {c : Cursor} (h : c.In text) (count : Nat) :
    (c.advance count).In text := by
  rw [Cursor.In, Cursor.advance, ← h, List.drop_drop]

namespace Recognizer

variable {α β : Type} {p q : Recognizer α} {f : α → Recognizer β} {before : List Piece}
  {g k : α → List Piece} {l : β → List Piece}

/-- Where the pieces `before` are located in front of the cursor, whatever `p` reads has the pieces
that `k` says, located in front of the cursor that `p` leaves. -/
def Locates (p : Recognizer α) (before : List Piece) (k : α → List Piece) : Prop :=
  ∀ text low c a c', c.In text → Located text low c.offset before →
    (p c).result = some (a, c') → c'.In text ∧ Located text low c'.offset (k a)

namespace Locates

theorem bind (first : p.Locates before g) (second : ∀ a, (f a).Locates (g a) l) :
    (p >>= f).Locates before l := by
  intro text low c b c' here located read
  obtain ⟨a, mid, readFirst, readSecond⟩ := exists_of_bind read
  obtain ⟨here', located'⟩ := first text low c a mid here located readFirst
  exact second a text low mid b c' here' located' readSecond

theorem pure {a : α} (same : k a = before) : Locates (Pure.pure a) before k := by
  rintro text low c _ _ here located ⟨⟩
  exact ⟨here, same ▸ located⟩

theorem tracked {rule : Rule} (h : p.Locates before k) : (tracked rule p).Locates before k := h

/-- What is read behind other pieces is located behind them. -/
theorem behind (h : p.Locates [] k) (before : List Piece) :
    p.Locates before fun a => before ++ k a := by
  intro text low c a c' here located read
  obtain ⟨here', located'⟩ := h text c.offset c a c' here (.nil le_rfl) read
  exact ⟨here', located.append located'⟩

theorem layout : layout.Locates before fun _ => before := by
  rintro text low c _ _ here located ⟨⟩
  exact ⟨here.advance _, located.mono le_rfl (Nat.le_add_right _ _)⟩

theorem exactly (word : List Char) : (exactly word).Locates before fun _ => before := by
  intro text low c a c' here located read
  unfold Recognizer.exactly at read
  split at read
  · cases read
    exact ⟨here.advance _, located.mono le_rfl (Nat.le_add_right _ _)⟩
  · cases read

theorem spaced (h : p.Locates before k) : (spaced p).Locates before k :=
  h.bind fun _ => layout.bind fun _ => .pure rfl

theorem scanned {scan : Token.Scan} (splits : Token.Splits scan) :
    (scanned scan).Locates before fun _ => before := by
  intro text low c word c' here located read
  obtain ⟨taken, offset⟩ := exists_of_scanned read
  refine ⟨?_, located.mono le_rfl (by omega)⟩
  rw [Cursor.In, offset, ← List.drop_drop, show text.drop c.offset = c.rest from here,
    ← splits _ _ _ taken, List.drop_left]

theorem endOfText : endOfText.Locates before fun _ => before := by
  intro text low c a c' here located read
  unfold Recognizer.endOfText Recognizer.tracked at read
  dsimp only at read
  split at read
  · cases read
    exact ⟨here, located⟩
  · cases read

theorem symbol (word : List Char) : (symbol word).Locates before fun _ => before :=
  (exactly word).spaced

theorem orElse (first : p.Locates before k) (second : q.Locates before k) :
    (p.orElse q).Locates before k := by
  intro text low c a c' here located read
  rw [result_orElse, Option.or_eq_some_iff] at read
  exact read.elim (first text low c a c' here located) fun read =>
    second text low c a c' here located read.2

theorem firstOf {ps : List (Recognizer α)} (h : ∀ p ∈ ps, p.Locates before k) :
    (firstOf ps).Locates before k := by
  induction ps with
  | nil => exact fun _ _ _ _ _ _ _ read => nomatch read
  | cons p rest ih =>
    obtain ⟨first, others⟩ := List.forall_mem_cons.1 h
    exact first.orElse (ih others)

theorem optional (h : p.Locates before k) :
    (optional p).Locates before fun a? => a?.elim before k := by
  have some : (p >>= fun a => Pure.pure (some a)).Locates before fun a? => a?.elim before k :=
    h.bind fun _ => .pure rfl
  exact some.orElse (.pure rfl)

theorem many (h : p.Locates [] k) : (many p).Locates before fun as => before ++ as.flatMap k := by
  have repeats : ∀ bound before, (repeated p bound).Locates before fun as =>
      before ++ as.flatMap k := by
    intro bound
    induction bound with
    | zero => exact fun before => .pure (List.append_nil before)
    | succ bound ih =>
      intro before text low c as c' here located read
      rw [result_repeated] at read
      split at read
      · cases read
        exact ⟨here, by simpa using located⟩
      · next a mid readFirst =>
        obtain ⟨⟨later, _⟩, readLater, same⟩ := Option.map_eq_some_iff.1 read
        cases same
        obtain ⟨here', located'⟩ := (h.behind before).spaced text low c a mid here located readFirst
        have last := ih _ text low mid later _ here' located' readLater
        simpa only [List.append_assoc, List.flatMap_cons] using last
  exact fun text low c => repeats _ before text low c

theorem nested {p : Nat → Recognizer α} (h : ∀ depth, (p depth).Locates before k) :
    (nested p).Locates before k :=
  fun text low c => h _ text low c

end Locates

/-! ## Terms and slots -/

theorem locates_term : term.Locates [] fun t => [.word t] := by
  intro text low c t c' here located read
  rw [result_term] at read
  obtain ⟨⟨kind, word, rest⟩, taken, same⟩ := Option.map_eq_some_iff.1 read
  cases same
  have whole := Token.append_of_term taken
  have some := List.length_pos_iff.2 (TermKind.word_ne_nil (Token.scan_of_term taken))
  have stands : (Piece.word ⟨kind, word, c.offset⟩).StandsIn text := by
    refine ⟨rest, ?_⟩
    rw [show text.drop c.offset = c.rest from here]
    exact taken
  refine ⟨?_, Nat.le_trans located.bounds (Nat.le_add_right _ _),
    List.forall_mem_singleton.2 ⟨stands, located.bounds, Nat.lt_add_of_pos_right some⟩,
    List.pairwise_singleton _ _⟩
  rw [Cursor.In, ← List.drop_drop, show text.drop c.offset = c.rest from here, ← whole,
    List.drop_left]

theorem locates_var : var.Locates before fun _ => before :=
  .tracked (.scanned Token.splits_var)

theorem locates_slot : slot.Locates [] SlotTree.pieces := by
  refine .tracked (.firstOf (List.forall_mem_cons.2 ⟨?_, List.forall_mem_singleton.2 ?_⟩))
  · exact locates_var.bind fun _ => .pure rfl
  · exact locates_term.bind fun _ => .pure rfl

/-! ## Expressions -/

/-- The function that is read is the one whose name the text begins with. -/
theorem exists_of_result_function {f : Function} {c c' : Cursor}
    (h : (function c).result = some (f, c')) :
    ∃ behind, Token.function c.rest = some (f.name.toList, behind) := by
  obtain ⟨word, mid, readWord, named⟩ := exists_of_bind h
  have taken := (exists_of_scanned readWord).1
  obtain ⟨g, rfl⟩ := Token.exists_of_function taken
  rw [Function.ofWord?_name] at named
  cases named
  exact ⟨_, taken⟩

theorem locates_function : function.Locates before fun _ => before := by
  refine .tracked ((Locates.scanned Token.splits_function).bind fun word => ?_)
  cases Function.ofWord? word with
  | some f => exact .pure rfl
  | none => exact fun _ _ _ _ _ _ _ read => nomatch read

theorem exists_of_opening {u : Unit} {c c' : Cursor} (h : (opening c).result = some (u, c')) :
    ∃ rest, c.rest = '(' :: rest ∧ c'.rest = afterLayout rest ∧ c.offset < c'.offset := by
  obtain ⟨_, mid, here, gap⟩ := exists_of_bind h
  have front := rest_of_exactly here
  unfold Recognizer.exactly at here
  split at here
  · cases here
    cases gap
    refine ⟨_, front, rfl, ?_⟩
    simp only [Cursor.advance, List.length_singleton]
    omega
  · cases here

theorem locates_exprWithin (depth : Nat) : (exprWithin depth).Locates [] ExprTree.pieces := by
  induction depth with
  | zero => exact fun _ _ _ _ _ _ _ read => nomatch read
  | succ depth ih =>
    refine .tracked (.firstOf (List.forall_mem_cons.2 ⟨?_, List.forall_mem_singleton.2 ?_⟩))
    · intro text low c e c' here located read
      obtain ⟨start, _, readStart, read⟩ := exists_of_bind read
      cases readStart
      obtain ⟨_, atName, readOpening, read⟩ := exists_of_bind read
      obtain ⟨f, atArgs, readFunction, read⟩ := exists_of_bind read
      obtain ⟨args, behindArgs, readArgs, read⟩ := exists_of_bind read
      obtain ⟨_, atClosing, readLayout, read⟩ := exists_of_bind read
      obtain ⟨_, _, readClosing, read⟩ := exists_of_bind read
      cases read
      -- The arguments are located behind the parenthesis, where the call starts, and its name.
      obtain ⟨behindOpening, opens, gap, before⟩ := exists_of_opening readOpening
      obtain ⟨inName, _⟩ := Locates.symbol _ text low _ _ _ here located readOpening
      obtain ⟨inArgs, name⟩ := locates_function.spaced text _ _ _ _ inName (.nil le_rfl) readFunction
      obtain ⟨inBehind, inside⟩ := ih.many text _ _ _ _ inArgs (.nil le_rfl) readArgs
      obtain ⟨inClosing, inside⟩ := Locates.layout text _ _ _ _ inBehind inside readLayout
      obtain ⟨inLast, inside⟩ := Locates.exactly _ text _ _ _ _ inClosing inside readClosing
      obtain ⟨_, readFunction, _⟩ := exists_of_spaced readFunction
      have taken := exists_of_result_function readFunction
      rw [gap] at taken
      obtain ⟨behind, taken⟩ := taken
      have stands : (Piece.call c.offset f args).StandsIn text :=
        ⟨behindOpening, behind, here.trans opens, taken⟩
      rw [ExprTree.pieces, ExprTree.piecesOf_eq]
      exact ⟨inLast, (Located.call inside (Nat.lt_of_lt_of_le before name.bounds) stands).mono
        located.bounds le_rfl⟩
    · exact locates_slot.bind fun _ => .pure rfl

theorem locates_expr : expr.Locates [] ExprTree.pieces :=
  .nested locates_exprWithin

theorem locates_exprs : exprs.Locates [] fun es => es.flatMap ExprTree.pieces :=
  .tracked <| (Locates.symbol _).bind fun _ => (Locates.symbol _).bind fun _ =>
    locates_expr.many.bind fun _ => Locates.layout.bind fun _ => (Locates.exactly _).bind fun _ =>
    .pure rfl

/-! ## Operators -/

theorem locates_triple : triple.Locates [] TripleTree.pieces :=
  .tracked <| (Locates.symbol _).bind fun _ => locates_slot.spaced.bind fun s =>
    (locates_slot.behind s.pieces).spaced.bind fun p =>
    (locates_slot.behind (s.pieces ++ p.pieces)).spaced.bind fun _ =>
    (Locates.exactly _).bind fun _ => .pure rfl

theorem locates_operator {rule : Rule} {body : Recognizer AlgebraTree}
    (h : body.Locates [] AlgebraTree.pieces) : (operator rule body).Locates [] AlgebraTree.pieces :=
  .tracked <| (Locates.symbol _).bind fun _ => (Locates.symbol _).bind fun _ => h.bind fun _ =>
    Locates.layout.bind fun _ => (Locates.exactly _).bind fun _ => .pure rfl

theorem locates_twoOperands {op : Recognizer AlgebraTree}
    {make : AlgebraTree → AlgebraTree → AlgebraTree} (h : op.Locates [] AlgebraTree.pieces)
    (same : ∀ left right, (make left right).pieces = left.pieces ++ right.pieces) :
    (twoOperands op make).Locates [] AlgebraTree.pieces :=
  h.spaced.bind fun left => (h.behind left.pieces).bind fun right => .pure (same left right)

theorem locates_opWithin (depth : Nat) : (opWithin depth).Locates [] AlgebraTree.pieces := by
  induction depth with
  | zero => exact fun _ _ _ _ _ _ _ read => nomatch read
  | succ depth ih =>
    refine .tracked (.firstOf ?_)
    simp only [operators, List.forall_mem_cons]
    refine ⟨?_, ?_, ?_, ?_, ?_, ?_, ?_, ?_, ?_, ?_, List.forall_mem_nil _⟩ <;>
      refine locates_operator ?_
    · exact locates_triple.many.bind fun triples => .pure rfl
    · exact locates_slot.spaced.bind fun graph => locates_triple.many.bind fun triples => .pure rfl
    · refine ih.spaced.bind fun left => (ih.behind left.pieces).spaced.bind fun right =>
        (locates_exprs.behind _).optional.bind fun condition => .pure ?_
      cases condition <;> simp [AlgebraTree.pieces]
    · exact locates_twoOperands ih fun _ _ => rfl
    · have condition : (firstOf [exprs, do return [← expr]]).Locates [] fun es =>
          es.flatMap ExprTree.pieces :=
        .firstOf (List.forall_mem_cons.2 ⟨locates_exprs, List.forall_mem_singleton.2 <|
          locates_expr.bind fun e => .pure (by simp)⟩)
      exact condition.spaced.bind fun es => (ih.behind _).bind fun sub => .pure rfl
    · exact locates_twoOperands ih fun _ _ => rfl
    · exact locates_twoOperands ih fun _ _ => rfl
    · exact ih.many.bind fun parts => .pure (AlgebraTree.piecesOf_eq parts)
    · refine (Locates.symbol _).bind fun _ => (locates_var : var.Locates [] fun _ => []).many.bind
        fun vars => Locates.layout.bind fun _ => (Locates.symbol _).bind fun _ =>
        (ih.behind _).bind fun sub => .pure ?_
      simp [AlgebraTree.pieces]
    · exact ih.bind fun sub => .pure rfl

theorem locates_op : op.Locates [] AlgebraTree.pieces :=
  .nested locates_opWithin

theorem locates_algebra : algebra.Locates [] AlgebraTree.pieces :=
  .tracked <| Locates.layout.bind fun _ => locates_op.spaced.bind fun _ =>
    Locates.endOfText.bind fun _ => .pure rfl

end Recognizer

end QuadQuery.Grammar
