import QuadQuery.Proofs.Grammar.Meanings
import QuadQuery.Proofs.Grammar.Words

/-!
# The pieces of a query that can be at fault

A tree of the grammar has a meaning unless one of its pieces is at fault: a word for a term whose
value is out of range, or a call whose arguments do not fit. The pieces are listed in the order in which
they are judged, a call behind its arguments, and the flaw that is reported is that of the first
piece at fault (`AlgebraTree.flawOf_meaning`).
-/

namespace QuadQuery.Grammar

open Numeral

/-- What can be at fault: a word for a term, or a call of a function. -/
inductive Piece where
  | word (t : TermTree)
  | call (offset : Nat) (f : Function) (args : List ExprTree)

/-! ## Pieces of trees -/

def SlotTree.pieces : SlotTree → List Piece
  | .var _ => []
  | .term t => [.word t]

def TripleTree.pieces (t : TripleTree) : List Piece :=
  t.subject.pieces ++ t.predicate.pieces ++ t.object.pieces

namespace ExprTree

mutual

/-- A call stands behind its arguments. -/
def pieces : ExprTree → List Piece
  | .slot s => s.pieces
  | .call offset f args => piecesOf args ++ [.call offset f args]

def piecesOf : List ExprTree → List Piece
  | [] => []
  | t :: rest => t.pieces ++ piecesOf rest

end

theorem piecesOf_eq (trees : List ExprTree) : piecesOf trees = trees.flatMap pieces := by
  induction trees with
  | nil => rfl
  | cons t rest ih => rw [piecesOf, ih, List.flatMap_cons]

end ExprTree

namespace AlgebraTree

mutual

/-- The pieces in the order of the text. -/
def pieces : AlgebraTree → List Piece
  | .bgp triples => triples.flatMap TripleTree.pieces
  | .quadPattern graph triples => graph.pieces ++ triples.flatMap TripleTree.pieces
  | .leftJoin left right exprs => left.pieces ++ (right.pieces ++ exprs.flatMap ExprTree.pieces)
  | .conditional left right => left.pieces ++ right.pieces
  | .filter exprs sub => exprs.flatMap ExprTree.pieces ++ sub.pieces
  | .join left right => left.pieces ++ right.pieces
  | .union left right => left.pieces ++ right.pieces
  | .sequence parts => piecesOf parts
  | .project _ sub => sub.pieces
  | .distinct sub => sub.pieces

def piecesOf : List AlgebraTree → List Piece
  | [] => []
  | t :: rest => t.pieces ++ piecesOf rest

end

theorem piecesOf_eq (trees : List AlgebraTree) : piecesOf trees = trees.flatMap pieces := by
  induction trees with
  | nil => rfl
  | cons t rest ih => rw [piecesOf, ih, List.flatMap_cons]

end AlgebraTree

/-! ## Faults -/

namespace TermTree

/-- The digits of a word for a date are those of a day of the calendar. -/
def IsRealDate (word : List Char) : Prop :=
  isCalendarDay (ofDigits ((word.drop 1).take 4)) (ofDigits ((word.drop 6).take 2))
    (ofDigits ((word.drop 9).take 2)) = true

instance (word : List Char) : Decidable (IsRealDate word) :=
  inferInstanceAs (Decidable (_ = true))

/-- The number that a word for an integer writes. -/
def integerValue : List Char → Int
  | '-' :: digits => -ofDigits digits
  | digits => ofDigits digits

/-- The word is for a date in the calendar, for an integer of 64 bits, or not for a date or an
integer. -/
def Sound : TermTree → Prop
  | ⟨.date, word, _⟩ => IsRealDate word
  | ⟨.integer, word, _⟩ => integerMin ≤ integerValue word ∧ integerValue word ≤ integerMax
  | _ => True

/-- Why the word does not stand for a term. -/
def fault? : TermTree → Option Cause
  | ⟨.date, word, _⟩ => if IsRealDate word then none else some (.invalidDate word)
  | ⟨.integer, word, _⟩ =>
    if integerValue word < integerMin then some (.invalidInteger word .tooSmall)
    else if integerMax < integerValue word then some (.invalidInteger word .tooLarge)
    else none
  | _ => none

theorem fault?_eq_none_iff (t : TermTree) : t.fault? = none ↔ t.Sound := by
  obtain ⟨kind, word, offset⟩ := t
  cases kind with
  | date => simp [fault?, Sound]
  | integer =>
    simp only [fault?, Sound]
    split_ifs with small large <;> simp <;> omega
  | iri | blank | string | decimal => simp [fault?, Sound]

end TermTree

namespace Function

/-- The arguments fit the function: a comparison takes two, `bound` one variable, `!` one, `&&` and
`||` two or more, and `regex` any one and a string that is a regular expression. -/
def Accepts : Function → List ExprTree → Prop
  | .compare _, args => args.length = 2
  | .bound, args => ∃ word, args = [.slot (.var word)]
  | .not, args => args.length = 1
  | .regex, args => ∃ subject word offset, args = [subject, .slot (.term ⟨.string, word, offset⟩)] ∧
    (Regex.ofText? (TermTree.inside word)).isSome
  | .and, args | .or, args => 2 ≤ args.length

/-- Why the arguments do not fit the function. -/
def fault? : Function → List ExprTree → Option Cause
  | .compare c, args => if args.length = 2 then none else some (.wrongArity (.compare c) 2 args.length)
  | .bound, [.slot (.var _)] => none
  | .bound, [_] => some .boundWithoutVariable
  | .bound, args => some (.wrongArity .bound 1 args.length)
  | .not, args => if args.length = 1 then none else some (.wrongArity .not 1 args.length)
  | .regex, [_, .slot (.term ⟨.string, word, _⟩)] =>
    if (Regex.ofText? (TermTree.inside word)).isSome then none else some .invalidRegex
  | .regex, [_, _] => some .regexWithoutPattern
  | .regex, args => some (.wrongArity .regex 2 args.length)
  | .and, args => if 2 ≤ args.length then none else some (.tooFewOperands .and)
  | .or, args => if 2 ≤ args.length then none else some (.tooFewOperands .or)

theorem fault?_eq_none_iff (f : Function) (args : List ExprTree) :
    f.fault? args = none ↔ f.Accepts args := by
  cases f with
  | compare | not => simp [fault?, Accepts]
  | and | or =>
    simp only [fault?, Accepts, ite_eq_left_iff, reduceCtorEq, imp_false, not_not]
  | bound | regex =>
    unfold fault? Accepts
    split <;> simp_all [Option.isSome_iff_ne_none]

end Function

namespace Piece

/-- The position where the piece starts. -/
def offset : Piece → Nat
  | word t => t.offset
  | call offset _ _ => offset

/-- The piece is not at fault. -/
def Sound : Piece → Prop
  | word t => t.Sound
  | call _ f args => f.Accepts args

/-- Why the piece is at fault. -/
def fault? : Piece → Option Cause
  | word t => t.fault?
  | call _ f args => f.fault? args

theorem fault?_eq_none_iff (p : Piece) : p.fault? = none ↔ p.Sound := by
  cases p with
  | word t => exact t.fault?_eq_none_iff
  | call offset f args => exact f.fault?_eq_none_iff args

/-- The flaw that is reported for the piece. -/
def flaw? (p : Piece) : Option Flaw :=
  p.fault?.map fun cause => ⟨cause, p.offset⟩

end Piece

/-! ## The first flaw -/

/-- The flaw, if there is one. -/
def flawOf {α : Type} : Except Flaw α → Option Flaw
  | .ok _ => none
  | .error flaw => some flaw

/-- The flaw of the first piece at fault. -/
def firstFlaw (pieces : List Piece) : Option Flaw :=
  pieces.findSome? Piece.flaw?

/-- The words among the pieces have a meaning if they are not at fault. -/
def Judged (pieces : List Piece) : Prop :=
  ∀ t, .word t ∈ pieces → flawOf t.meaning = (Piece.word t).flaw?

section

variable {α β τ : Type} {x : Except Flaw α} {f : α → Except Flaw β} {e : Option Flaw}
  {ps qs : List Piece}

theorem flawOf_bind (h : ∀ a, x = .ok a → flawOf (f a) = e) : flawOf (x >>= f) = (flawOf x).or e := by
  cases x with
  | error flaw => rfl
  | ok a => exact h a rfl

theorem flawOf_map (x : Except Flaw α) (g : α → β) : flawOf (x.map g) = flawOf x := by
  cases x <;> rfl

theorem flawOf_bind_pure (x : Except Flaw α) (g : α → β) :
    flawOf (x >>= fun a => pure (g a)) = flawOf x := by
  cases x <;> rfl

theorem firstFlaw_append (ps qs : List Piece) :
    firstFlaw (ps ++ qs) = (firstFlaw ps).or (firstFlaw qs) :=
  List.findSome?_append

theorem judged_append : Judged (ps ++ qs) ↔ Judged ps ∧ Judged qs := by
  simp only [Judged, List.mem_append, or_imp, forall_and]

theorem judged_flatMap {pieces : τ → List Piece} {trees : List τ} :
    Judged (trees.flatMap pieces) ↔ ∀ t ∈ trees, Judged (pieces t) := by
  simp only [Judged, List.mem_flatMap, forall_exists_index, and_imp]
  exact ⟨fun h t listed w member => h w t listed member, fun h w t listed member => h t listed w member⟩

theorem flawOf_mapM {pieces : τ → List Piece} {f : τ → Except Flaw α} {trees : List τ}
    (each : ∀ t ∈ trees, flawOf (f t) = firstFlaw (pieces t)) :
    flawOf (trees.mapM f) = firstFlaw (trees.flatMap pieces) := by
  induction trees with
  | nil => rfl
  | cons t rest ih =>
    obtain ⟨first, others⟩ := List.forall_mem_cons.1 each
    rw [List.mapM_cons, List.flatMap_cons, firstFlaw_append, ← first, ← ih others]
    exact flawOf_bind fun a _ => flawOf_bind_pure _ _

end

/-! ## Calls -/

section

variable {f : Function} {e : Expr} {es : List Expr} {args : List ExprTree} {t : ExprTree}

/-- The expression is neither a variable nor a constant. -/
def IsCall : Expr → Prop
  | .var _ | .const _ => False
  | _ => True

theorem isCall_foldl {make : Expr → Expr → Expr} (call : ∀ l r, IsCall (make l r)) (l r : Expr)
    (others : List Expr) : IsCall (others.foldl make (make l r)) := by
  induction others generalizing l r with
  | nil => exact call l r
  | cons e others ih => exact ih (make l r) e

theorem Function.isCall_of_call (h : f.call es = .ok e) : IsCall e := by
  have and : ∀ l r, IsCall (.and l r) := fun _ _ => trivial
  have or : ∀ l r, IsCall (.or l r) := fun _ _ => trivial
  unfold Function.call at h
  split at h
  all_goals try split at h
  all_goals cases h
  all_goals first
    | trivial
    | exact isCall_foldl and _ _ _
    | exact isCall_foldl or _ _ _

namespace ExprTree

theorem exists_of_meaning_var {word : List Char} (h : (slot (.var word)).meaning = .ok e) :
    ∃ v, e = .var v :=
  ⟨_, (Except.ok.inj h).symm⟩

theorem exists_of_meaning_term {w : TermTree} (h : (slot (.term w)).meaning = .ok e) :
    ∃ t, w.meaning = .ok t ∧ e = .const t := by
  rw [meaning, SlotTree.meaning] at h
  cases means : w.meaning with
  | error flaw => rw [means] at h; cases h
  | ok t => rw [means] at h; cases h; exact ⟨t, rfl, rfl⟩

theorem isCall_of_meaning {offset : Nat} (h : (call offset f args).meaning = .ok e) : IsCall e := by
  rw [meaning] at h
  split at h
  · split at h
    · next called => cases h; exact Function.isCall_of_call called
    · cases h
  · cases h

end ExprTree

/-- Whether arguments fit can be seen from their trees. -/
theorem Function.fault?_eq (f : Function) (h : ExprTree.meanings args = .ok es) : f.fault? args =
    match f.call es with
    | .ok _ => none
    | .error cause => some cause := by
  have all := ExprTree.meanings_eq_ok_iff.1 h
  have length := all.length_eq
  cases f with
  | compare | not | and | or =>
    simp only [fault?, ← length]
    rcases es with _ | ⟨_, _ | ⟨_, _ | ⟨_, _⟩⟩⟩ <;> simp [call]
  | bound =>
    rcases all with _ | @⟨e, tree, _, _, first, _ | ⟨_, others⟩⟩
    · rfl
    · cases tree with
      | slot s =>
        cases s with
        | var word => obtain ⟨v, rfl⟩ := ExprTree.exists_of_meaning_var first; rfl
        | term w => obtain ⟨t, _, rfl⟩ := ExprTree.exists_of_meaning_term first; rfl
      | call offset f' args' =>
        have other := ExprTree.isCall_of_meaning first
        cases e <;> first | rfl | cases other
    · simp [fault?, call, others.length_eq]
  | regex =>
    rcases all with _ | ⟨_, _ | @⟨e, tree, _, _, second, _ | ⟨_, others⟩⟩⟩
    · rfl
    · rfl
    · cases tree with
      | slot s =>
        cases s with
        | var word => obtain ⟨v, rfl⟩ := ExprTree.exists_of_meaning_var second; rfl
        | term w =>
          obtain ⟨t, means, rfl⟩ := ExprTree.exists_of_meaning_term second
          have denotes := TermTree.meaning_eq_ok_iff.1 means
          obtain ⟨kind, word, offset⟩ := w
          cases kind with
          | string =>
            obtain rfl := denotes
            simp only [fault?, call]
            cases Regex.ofText? (TermTree.inside word) <;> rfl
          | iri | blank =>
            obtain rfl := denotes
            rfl
          | date | decimal | integer =>
            obtain ⟨_, _, rfl⟩ := denotes
            rfl
      | call offset f' args' =>
        have other := ExprTree.isCall_of_meaning second
        cases e <;> first | rfl | cases other
    · simp [fault?, call, others.length_eq]

end

/-! ## The flaws of trees -/

theorem SlotTree.flawOf_meaning (s : SlotTree) (judged : Judged s.pieces) :
    flawOf s.meaning = firstFlaw s.pieces := by
  cases s with
  | var word => rfl
  | term t =>
    rw [meaning, flawOf_map, judged t List.mem_cons_self, pieces, firstFlaw, List.findSome?_singleton]

theorem TripleTree.flawOf_meaning (t : TripleTree) (judged : Judged t.pieces) :
    flawOf t.meaning = firstFlaw t.pieces := by
  simp only [pieces, judged_append] at judged
  obtain ⟨⟨subject, predicate⟩, object⟩ := judged
  rw [pieces, firstFlaw_append, firstFlaw_append, ← t.subject.flawOf_meaning subject,
    ← t.predicate.flawOf_meaning predicate, ← t.object.flawOf_meaning object, Option.or_assoc]
  exact flawOf_bind fun s _ => flawOf_bind fun p _ => flawOf_bind_pure _ _

theorem TripleTree.flawOf_meanings (triples : List TripleTree)
    (judged : Judged (triples.flatMap TripleTree.pieces)) :
    flawOf (TripleTree.meanings triples) = firstFlaw (triples.flatMap TripleTree.pieces) := by
  rw [TripleTree.meanings, flawOf_map]
  exact flawOf_mapM fun t listed => t.flawOf_meaning (judged_flatMap.1 judged t listed)

namespace ExprTree

/-- The flaw of a call comes after those of its arguments. -/
theorem flawOf_call {offset : Nat} {f : Function} {args : List ExprTree}
    (inside : flawOf (meanings args) = firstFlaw (piecesOf args)) :
    flawOf (call offset f args).meaning = firstFlaw (call offset f args).pieces := by
  have own : firstFlaw [.call offset f args] = (f.fault? args).map fun cause => ⟨cause, offset⟩ := by
    rw [firstFlaw, List.findSome?_singleton]
    rfl
  rw [pieces, firstFlaw_append, ← inside, own, meaning]
  cases means : meanings args with
  | error flaw => rfl
  | ok es =>
    rw [f.fault?_eq means]
    cases called : f.call es <;> simp [called, flawOf]

mutual

theorem flawOf_meaning : (t : ExprTree) → Judged t.pieces → flawOf t.meaning = firstFlaw t.pieces
  | .slot s, judged => by
    rw [pieces, ← s.flawOf_meaning judged, meaning]
    cases s.meaning with
    | error flaw => rfl
    | ok slot => cases slot <;> rfl
  | .call offset f args, judged =>
    flawOf_call (flawOf_meaningsOf args (judged_append.1 judged).1)

theorem flawOf_meaningsOf : (trees : List ExprTree) → Judged (piecesOf trees) →
    flawOf (meanings trees) = firstFlaw (piecesOf trees)
  | [], _ => rfl
  | t :: rest, judged => by
    obtain ⟨first, others⟩ := judged_append.1 judged
    rw [piecesOf, firstFlaw_append, ← flawOf_meaning t first, ← flawOf_meaningsOf rest others]
    exact flawOf_bind fun e _ => flawOf_bind_pure _ _

end

theorem flawOf_meanings (trees : List ExprTree) (judged : Judged (trees.flatMap pieces)) :
    flawOf (meanings trees) = firstFlaw (trees.flatMap pieces) := by
  rw [← piecesOf_eq] at judged ⊢
  exact flawOf_meaningsOf trees judged

end ExprTree

namespace AlgebraTree

mutual

/-- The flaw of a query is that of its first piece at fault. -/
theorem flawOf_meaning : (t : AlgebraTree) → Judged t.pieces → flawOf t.meaning = firstFlaw t.pieces
  | .bgp triples, judged => by
    rw [pieces, ← TripleTree.flawOf_meanings triples judged]
    exact flawOf_bind_pure _ _
  | .quadPattern graph triples, judged => by
    obtain ⟨first, others⟩ := judged_append.1 judged
    rw [pieces, firstFlaw_append, ← graph.flawOf_meaning first,
      ← TripleTree.flawOf_meanings triples others]
    exact flawOf_bind fun g _ => flawOf_bind_pure _ _
  | .leftJoin left right exprs, judged => by
    obtain ⟨first, others⟩ := judged_append.1 judged
    obtain ⟨second, third⟩ := judged_append.1 others
    rw [pieces, firstFlaw_append, firstFlaw_append, ← flawOf_meaning left first,
      ← flawOf_meaning right second, ← ExprTree.flawOf_meanings exprs third]
    exact flawOf_bind fun l _ => flawOf_bind fun r _ => flawOf_bind_pure _ _
  | .filter exprs sub, judged => by
    obtain ⟨first, second⟩ := judged_append.1 judged
    rw [pieces, firstFlaw_append, ← ExprTree.flawOf_meanings exprs first, ← flawOf_meaning sub second]
    exact flawOf_bind fun es _ => flawOf_bind_pure _ _
  | .conditional left right, judged | .join left right, judged | .union left right, judged => by
    obtain ⟨first, second⟩ := judged_append.1 judged
    rw [pieces, firstFlaw_append, ← flawOf_meaning left first, ← flawOf_meaning right second]
    exact flawOf_bind fun l _ => flawOf_bind_pure _ _
  | .sequence parts, judged => by
    rw [pieces, ← flawOf_meaningsOf parts judged]
    exact flawOf_bind_pure _ _
  | .project vars sub, judged | .distinct sub, judged => by
    rw [pieces, ← flawOf_meaning sub judged]
    exact flawOf_bind_pure _ _

theorem flawOf_meaningsOf : (trees : List AlgebraTree) → Judged (piecesOf trees) →
    flawOf (meanings trees) = firstFlaw (piecesOf trees)
  | [], _ => rfl
  | t :: rest, judged => by
    obtain ⟨first, others⟩ := judged_append.1 judged
    rw [piecesOf, firstFlaw_append, ← flawOf_meaning t first, ← flawOf_meaningsOf rest others]
    exact flawOf_bind fun e _ => flawOf_bind_pure _ _

end

end AlgebraTree

end QuadQuery.Grammar
