import QuadQuery.Algebra
import QuadQuery.Proofs.Grammar.Words

/-!
# The lexemes of written queries

A written query is a row of brackets, words, function symbols, and slots, its lexemes. They may be
laid out in many ways: behind each of them may stand blanks and comments, and something has to stand
between two of them unless one is a bracket (`Laid`). The text of a query is one of the layouts of
its lexemes (`Algebra.laid_text`).
-/

namespace QuadQuery.Grammar

open Recognizer

/-- What a written query consists of. -/
inductive Lexeme where
  | opening
  | closing
  | word (rule : Rule)
  | function (f : Function)
  | slot (s : Slot)
deriving DecidableEq

namespace Lexeme

def text : Lexeme → List Char
  | opening => ['(']
  | closing => [')']
  | word rule => rule.name.toList
  | function f => f.name.toList
  | slot s => s.text.toList

/-- Nothing has to stand between a bracket and another lexeme. -/
def IsBracket (l : Lexeme) : Prop :=
  l = opening ∨ l = closing

/-- Lexemes in parentheses, a word or a function symbol in front. -/
def bracketed (head : Lexeme) (inner : List Lexeme) : List Lexeme :=
  opening :: head :: (inner ++ [closing])

end Lexeme

/-- The text consists of the lexemes, behind each of which there may be a gap of blanks and comments,
and of the rest. -/
inductive Laid : List Lexeme → List Char → List Char → Prop
  | nil (rest : List Char) : Laid [] rest rest
  | cons {l : Lexeme} {ls : List Lexeme} {gap text rest : List Char} (layout : Layout gap)
      (apart : gap ≠ [] ∨ l.IsBracket ∨ Stops text) (others : Laid ls text rest) :
    Laid (l :: ls) (l.text ++ (gap ++ text)) rest

end QuadQuery.Grammar

namespace QuadQuery

open Grammar Lexeme

/-! ## The lexemes of queries -/

namespace Expr

def lexemes : Expr → List Lexeme
  | .var v => [.slot (.var v)]
  | .const t => [.slot (.term t)]
  | .bound v => bracketed (.function .bound) [.slot (.var v)]
  | .not e => bracketed (.function .not) e.lexemes
  | .and l r => bracketed (.function .and) (l.lexemes ++ r.lexemes)
  | .or l r => bracketed (.function .or) (l.lexemes ++ r.lexemes)
  | .compare c l r => bracketed (.function (.compare c)) (l.lexemes ++ r.lexemes)
  | .regex e pattern =>
    bracketed (.function .regex) (e.lexemes ++ [.slot (.term (.str pattern.source))])

end Expr

namespace QuadPattern

/-- The slots as they are written, the graph in front if it is not the default one. -/
def writtenSlots (p : QuadPattern) : List Slot :=
  if p.graph = .term Term.defaultGraph then [p.subject, p.predicate, p.object]
  else [p.graph, p.subject, p.predicate, p.object]

def lexemes (p : QuadPattern) : List Lexeme :=
  .opening :: (p.writtenSlots.map .slot ++ [.closing])

end QuadPattern

def BasicPattern.lexemes (b : BasicPattern) : List Lexeme :=
  b.patterns.flatMap QuadPattern.lexemes

namespace Algebra

/-- The lexemes of conditions. -/
def exprsLexemes (exprs : List Expr) : List Lexeme :=
  bracketed (.word .exprs) (exprs.flatMap Expr.lexemes)

/-- The lexemes of conditions that are left out if there are none. -/
def conditionLexemes (exprs : List Expr) : List Lexeme :=
  if exprs.isEmpty then [] else exprsLexemes exprs

def lexemes : Algebra → List Lexeme
  | .bgp pattern => bracketed (.word .bgp) pattern.lexemes
  | .quadPattern graph pattern => bracketed (.word .quadPattern) (.slot graph :: pattern.lexemes)
  | .leftJoin left right exprs =>
    bracketed (.word .leftJoin) (left.lexemes ++ (right.lexemes ++ conditionLexemes exprs))
  | .conditional left right => bracketed (.word .conditional) (left.lexemes ++ right.lexemes)
  | .filter exprs sub => bracketed (.word .filter) (exprsLexemes exprs ++ sub.lexemes)
  | .join left right => bracketed (.word .join) (left.lexemes ++ right.lexemes)
  | .union left right => bracketed (.word .union) (left.lexemes ++ right.lexemes)
  | .sequence parts => bracketed (.word .sequence) (lexemesOf parts)
  | .project vars sub => bracketed (.word .project)
    (.opening :: (vars.map (fun v => .slot (.var v)) ++ .closing :: sub.lexemes))
  | .distinct sub => bracketed (.word .distinct) sub.lexemes
where
  lexemesOf : List Algebra → List Lexeme
    | [] => []
    | part :: rest => part.lexemes ++ lexemesOf rest

theorem lexemesOf_eq (parts : List Algebra) : lexemes.lexemesOf parts = parts.flatMap lexemes := by
  induction parts with
  | nil => rfl
  | cons part rest ih => rw [lexemes.lexemesOf, ih, List.flatMap_cons]

end Algebra

/-! ## Texts as layouts -/

namespace Grammar

variable {xs ys ls : List Lexeme} {l : Lexeme} {text mid rest gap cs cs' : List Char}

theorem Laid.append (h : Laid xs text mid) (h' : Laid ys mid rest) : Laid (xs ++ ys) text rest := by
  induction h with
  | nil => exact h'
  | cons layout apart _ ih => exact .cons layout apart (ih h')

theorem Laid.split (h : Laid (xs ++ ys) text rest) : ∃ mid, Laid xs text mid ∧ Laid ys mid rest := by
  induction xs generalizing text with
  | nil => exact ⟨text, .nil text, h⟩
  | cons l xs ih =>
    cases h with
    | cons layout apart others =>
      obtain ⟨mid, first, second⟩ := ih others
      exact ⟨mid, .cons layout apart first, second⟩

/-- Blanks and comments behind the last lexeme belong to its gap. -/
theorem Laid.extend (h : Laid xs text (gap ++ rest)) (some : xs ≠ []) (layout : Layout gap) :
    Laid xs text rest := by
  induction xs generalizing text with
  | nil => exact absurd rfl some
  | cons l xs ih =>
    cases h with
    | @cons _ _ gap' text _ before apart others =>
      by_cases last : xs = []
      · subst last
        cases others
        rw [← List.append_assoc gap']
        refine .cons (before.append layout) ?_ (.nil rest)
        by_cases none : gap = []
        · simpa [none] using apart
        · exact .inl (by simp [none])
      · exact .cons before apart (ih others last)

/-- The characters are a layout of the lexemes wherever a name or a number would end behind them. -/
def Prints (ls : List Lexeme) (cs : List Char) : Prop :=
  ∀ rest, Stops rest → Laid ls (cs ++ rest) rest

theorem Prints.of_eq (h : Prints ls cs) (same : cs' = cs) : Prints ls cs' :=
  same ▸ h

theorem prints_nil : Prints [] [] :=
  fun rest _ => .nil rest

theorem prints_lexeme (l : Lexeme) : Prints [l] l.text :=
  fun rest stops => .cons .nil (.inr (.inr stops)) (.nil rest)

theorem prints_slot (s : Slot) : Prints [.slot s] s.text.toList :=
  prints_lexeme (.slot s)

theorem Prints.space (h : Prints xs cs) (h' : Prints ys cs') (some : xs ≠ []) :
    Prints (xs ++ ys) (cs ++ ' ' :: cs') := by
  intro rest stops
  have blank : Layout [' '] := .blank rfl .nil
  have first : Laid xs (cs ++ ([' '] ++ (cs' ++ rest))) ([' '] ++ (cs' ++ rest)) :=
    h _ (blank.stops (List.cons_ne_nil _ _) _)
  simpa using (first.extend some blank).append (h' rest stops)

theorem Prints.opening (h : Prints ls cs) : Prints (.opening :: ls) ('(' :: cs) := by
  intro rest stops
  have first : Laid (.opening :: ls) (Lexeme.opening.text ++ ([] ++ (cs ++ rest))) rest :=
    .cons .nil (.inr (.inl (.inl rfl))) (h rest stops)
  exact first

theorem Prints.closing (h : Prints ls cs) : Prints (ls ++ [.closing]) (cs ++ [')']) := by
  intro rest stops
  have first := h (')' :: rest) (by rintro c ⟨⟩; simp)
  simpa using first.append (prints_lexeme .closing rest stops)

theorem Prints.bracketed (head : Lexeme) (h : Prints ls cs) :
    Prints (bracketed head ls) ('(' :: (head.text ++ ' ' :: (cs ++ [')']))) := by
  have inside := ((prints_lexeme head).space h.closing (List.cons_ne_nil _ _)).opening
  exact inside

/-- Texts with blanks between them are a layout of all their lexemes. -/
theorem prints_intercalate {ι : Type} {lexemes : ι → List Lexeme} {text : ι → String}
    {items : List ι} (each : ∀ i ∈ items, lexemes i ≠ [] ∧ Prints (lexemes i) (text i).toList) :
    Prints (items.flatMap lexemes) (" ".intercalate (items.map text)).toList := by
  induction items with
  | nil => exact prints_nil
  | cons i rest ih =>
    obtain ⟨⟨some, here⟩, others⟩ := List.forall_mem_cons.1 each
    cases rest with
    | nil => simpa using here
    | cons j rest =>
      rw [List.map_cons, List.map_cons, String.intercalate_cons_cons, List.flatMap_cons]
      simpa [String.toList_append] using here.space (ih others) some

end Grammar

theorem Expr.lexemes_ne_nil (e : Expr) : e.lexemes ≠ [] := by
  cases e <;> exact List.cons_ne_nil _ _

theorem QuadPattern.lexemes_ne_nil (p : QuadPattern) : p.lexemes ≠ [] :=
  List.cons_ne_nil _ _

theorem Algebra.lexemes_ne_nil (op : Algebra) : op.lexemes ≠ [] := by
  cases op <;> exact List.cons_ne_nil _ _

/-- The text of an expression is a layout of its lexemes. -/
theorem Expr.prints (e : Expr) : Prints e.lexemes e.text.toList := by
  induction e with
  | var v => exact prints_slot (.var v)
  | const t => exact prints_slot (.term t)
  | bound v =>
    refine .of_eq ((prints_slot (.var v)).bracketed (.function .bound)) ?_
    simp [Expr.text, Lexeme.text, Function.name, Slot.text, String.toList_append]
  | not e ih =>
    refine .of_eq (ih.bracketed (.function .not)) ?_
    simp [Expr.text, Lexeme.text, Function.name, String.toList_append]
  | and l r ihl ihr =>
    refine .of_eq ((ihl.space ihr l.lexemes_ne_nil).bracketed (.function .and)) ?_
    simp [Expr.text, Lexeme.text, Function.name, String.toList_append]
  | or l r ihl ihr =>
    refine .of_eq ((ihl.space ihr l.lexemes_ne_nil).bracketed (.function .or)) ?_
    simp [Expr.text, Lexeme.text, Function.name, String.toList_append]
  | compare c l r ihl ihr =>
    refine .of_eq ((ihl.space ihr l.lexemes_ne_nil).bracketed (.function (.compare c))) ?_
    simp [Expr.text, Lexeme.text, Function.name, String.toList_append]
  | regex e pattern ih =>
    refine .of_eq ((ih.space (prints_slot (.term (.str pattern.source)))
      e.lexemes_ne_nil).bracketed (.function .regex)) ?_
    simp [Expr.text, Lexeme.text, Function.name, Slot.text, Term.text, String.toList_append]

theorem QuadPattern.prints (p : QuadPattern) : Prints p.lexemes p.text.toList := by
  have three := (prints_slot p.subject).space ((prints_slot p.predicate).space
    (prints_slot p.object) (List.cons_ne_nil _ _)) (List.cons_ne_nil _ _)
  by_cases default : p.graph = .term Term.defaultGraph
  · have slots : p.writtenSlots = [p.subject, p.predicate, p.object] := if_pos default
    rw [lexemes, slots]
    refine .of_eq three.closing.opening ?_
    simp [QuadPattern.text, default, String.toList_append]
  · have slots : p.writtenSlots = [p.graph, p.subject, p.predicate, p.object] := if_neg default
    rw [lexemes, slots]
    refine .of_eq ((prints_slot p.graph).space three (List.cons_ne_nil _ _)).closing.opening ?_
    simp [QuadPattern.text, default, String.toList_append]

theorem BasicPattern.prints (b : BasicPattern) : Prints b.lexemes b.text.toList :=
  prints_intercalate fun p _ => ⟨p.lexemes_ne_nil, p.prints⟩

namespace Algebra

theorem prints_exprs (exprs : List Expr) :
    Prints (exprsLexemes exprs) (exprsText exprs).toList := by
  have inside : Prints (exprs.flatMap Expr.lexemes) (" ".intercalate (exprs.map Expr.text)).toList :=
    prints_intercalate fun e _ => ⟨e.lexemes_ne_nil, e.prints⟩
  refine .of_eq (inside.bracketed (.word .exprs)) ?_
  simp [exprsText, Lexeme.text, Rule.name, String.toList_append]

theorem texts_eq (parts : List Algebra) : text.texts parts = parts.map text := by
  induction parts with
  | nil => rfl
  | cons part rest ih => rw [text.texts, ih, List.map_cons]

mutual

/-- The text of a query is a layout of its lexemes. -/
theorem prints : (op : Algebra) → Prints op.lexemes op.text.toList
  | .bgp pattern => by
    refine .of_eq (pattern.prints.bracketed (.word .bgp)) ?_
    have written : (bgp pattern).text = "(bgp " ++ pattern.text ++ ")" := rfl
    simp [written, Lexeme.text, Rule.name, String.toList_append]
  | .quadPattern graph pattern => by
    have inside := (prints_slot graph).space pattern.prints (List.cons_ne_nil _ _)
    refine .of_eq (inside.bracketed (.word .quadPattern)) ?_
    have written : (quadPattern graph pattern).text
        = "(quadpattern " ++ graph.text ++ " " ++ pattern.text ++ ")" := rfl
    simp [written, Lexeme.text, Rule.name, String.toList_append]
  | .leftJoin left right [] => by
    have operands := left.prints.space right.prints left.lexemes_ne_nil
    have inside : Prints (left.lexemes ++ (right.lexemes ++ conditionLexemes []))
        (left.text.toList ++ ' ' :: right.text.toList) := by
      rwa [conditionLexemes, List.isEmpty_nil, if_pos rfl, List.append_nil]
    refine .of_eq (inside.bracketed (.word .leftJoin)) ?_
    have written : (leftJoin left right []).text
        = "(leftjoin " ++ left.text ++ " " ++ right.text ++ ")" := rfl
    simp [written, Lexeme.text, Rule.name, String.toList_append]
  | .leftJoin left right (e :: rest) => by
    have inside := left.prints.space (right.prints.space (prints_exprs (e :: rest))
      right.lexemes_ne_nil) left.lexemes_ne_nil
    refine .of_eq (inside.bracketed (.word .leftJoin)) ?_
    have written : (leftJoin left right (e :: rest)).text
        = "(leftjoin " ++ left.text ++ " " ++ right.text ++ " " ++
          exprsText (e :: rest) ++ ")" := rfl
    simp [written, Lexeme.text, Rule.name, String.toList_append]
  | .conditional left right => by
    have operands := left.prints.space right.prints left.lexemes_ne_nil
    refine .of_eq (operands.bracketed (.word .conditional)) ?_
    have written : (conditional left right).text
        = "(conditional " ++ left.text ++ " " ++ right.text ++ ")" := rfl
    simp [written, Lexeme.text, Rule.name, String.toList_append]
  | .filter exprs sub => by
    have inside := (prints_exprs exprs).space sub.prints (List.cons_ne_nil _ _)
    refine .of_eq (inside.bracketed (.word .filter)) ?_
    have written : (filter exprs sub).text
        = "(filter " ++ exprsText exprs ++ " " ++ sub.text ++ ")" := rfl
    simp [written, Lexeme.text, Rule.name, String.toList_append]
  | .join left right => by
    have operands := left.prints.space right.prints left.lexemes_ne_nil
    refine .of_eq (operands.bracketed (.word .join)) ?_
    have written : (join left right).text = "(join " ++ left.text ++ " " ++ right.text ++ ")" := rfl
    simp [written, Lexeme.text, Rule.name, String.toList_append]
  | .union left right => by
    have operands := left.prints.space right.prints left.lexemes_ne_nil
    refine .of_eq (operands.bracketed (.word .union)) ?_
    have written : (union left right).text
        = "(union " ++ left.text ++ " " ++ right.text ++ ")" := rfl
    simp [written, Lexeme.text, Rule.name, String.toList_append]
  | .sequence parts => by
    have inside : Prints (parts.flatMap lexemes) (" ".intercalate (parts.map text)).toList :=
      prints_intercalate fun part member => ⟨part.lexemes_ne_nil, prints_parts parts part member⟩
    rw [← lexemesOf_eq, ← texts_eq] at inside
    refine .of_eq (inside.bracketed (.word .sequence)) ?_
    have written : (sequence parts).text
        = "(sequence " ++ " ".intercalate (text.texts parts) ++ ")" := rfl
    simp [written, Lexeme.text, Rule.name, String.toList_append]
  | .project vars sub => by
    have names : Prints (vars.flatMap fun v => [Lexeme.slot (.var v)])
        (" ".intercalate (vars.map Variable.text)).toList :=
      prints_intercalate fun v _ => ⟨List.cons_ne_nil _ _, prints_slot (.var v)⟩
    have inside := names.closing.opening.space sub.prints (List.cons_ne_nil _ _)
    rw [← List.map_eq_flatMap, List.cons_append, List.append_assoc] at inside
    refine .of_eq (inside.bracketed (.word .project)) ?_
    have written : (project vars sub).text
        = "(project (" ++ " ".intercalate (vars.map Variable.text) ++ ") " ++ sub.text ++ ")" := rfl
    simp [written, Lexeme.text, Rule.name, String.toList_append]
  | .distinct sub => by
    refine .of_eq (sub.prints.bracketed (.word .distinct)) ?_
    have written : (distinct sub).text = "(distinct " ++ sub.text ++ ")" := rfl
    simp [written, Lexeme.text, Rule.name, String.toList_append]

theorem prints_parts : (parts : List Algebra) →
    ∀ part ∈ parts, Prints part.lexemes part.text.toList
  | [], _, member => absurd member List.not_mem_nil
  | first :: rest, part, member => by
    rcases List.mem_cons.1 member with same | later
    · rw [same]
      exact first.prints
    · exact prints_parts rest part later

end

/-- The text of a query is a layout of its lexemes with nothing behind it. -/
theorem laid_text (op : Algebra) : Laid op.lexemes op.text.toList [] := by
  simpa using op.prints [] nofun

end Algebra

end QuadQuery
