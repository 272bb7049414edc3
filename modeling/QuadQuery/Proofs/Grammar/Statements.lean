import QuadQuery.Grammar.Text
import QuadQuery.Proofs.Grammar.RoundTrip
import QuadQuery.Proofs.Grammar.TermWords

/-!
# The statements that a text writes

Which statements a text writes is said by its words alone (`Statement.Writes`): words for terms with
blanks and comments between them, and a full stop behind three or four of them. Reading a text finds
these statements and no others (`Statement.ofChars_eq_ok_iff`).
-/

namespace QuadQuery

open Grammar Recognizer

namespace Statement

variable {st st' : Statement} {sts sts' : List Statement} {text rest rest' : List Char}

/-- The text begins with three or four terms and a full stop, which write the statement, and the rest
follows them. -/
inductive Begins : Statement → List Char → List Char → Prop
  | triple {s p o : Term} {text atPredicate atObject atStop rest : List Char}
    (subject : s.Begins text atPredicate) (predicate : p.Begins (afterLayout atPredicate) atObject)
    (object : o.Begins (afterLayout atObject) atStop) (stop : afterLayout atStop = '.' :: rest) :
    Begins ⟨s, p, o, none⟩ text rest
  | quad {s p o g : Term} {text atPredicate atObject atGraph atStop rest : List Char}
    (subject : s.Begins text atPredicate) (predicate : p.Begins (afterLayout atPredicate) atObject)
    (object : o.Begins (afterLayout atObject) atGraph)
    (graph : g.Begins (afterLayout atGraph) atStop) (stop : afterLayout atStop = '.' :: rest) :
    Begins ⟨s, p, o, some g⟩ text rest

/-- The text consists of statements with blanks and comments between them. -/
inductive Writes : List Char → List Statement → Prop
  | nil {text : List Char} (blank : afterLayout text = []) : Writes text []
  | cons {text rest : List Char} {st : Statement} {sts : List Statement}
    (first : st.Begins (afterLayout text) rest) (others : Writes rest sts) : Writes text (st :: sts)

namespace Begins

theorem takes (h : st.Begins text rest) :
    statement.Takes text rest fun tree => tree.meaning = .ok st := by
  have takesStop (rest : List Char) : (exactly ['.']).Takes ('.' :: rest) rest fun _ => True :=
    takes_exactly ['.'] rest
  cases h with
  | @triple s p o _ _ _ atStop _ subject predicate object stop =>
    -- No term begins with the full stop.
    have noTerm : Token.term ('.' :: rest) = none :=
      Token.term_eq_none (fun k => by cases k <;> simp [TermKind.Begins, Char.isDigit]) rest
    have noGraph := (rejects_term noTerm).optional.spaced_afterLayout
    have takesObject := object.takes.spaced_afterLayout
    rw [← stop, afterLayout_afterLayout, stop] at noGraph
    rw [stop] at takesObject
    refine .tracked <| subject.takes.spaced_afterLayout.bind fun s means =>
      predicate.takes.spaced_afterLayout.bind fun p means' =>
      takesObject.bind fun o means'' =>
      noGraph.bind fun g absent => (takesStop rest).bind fun _ _ => takes_pure ?_
    simp only [StatementTree.meaning, means, means', means'', absent]
    rfl
  | quad subject predicate object graph stop =>
    have takesGraph := graph.takes.optional.spaced_afterLayout
    rw [stop] at takesGraph
    refine .tracked <| subject.takes.spaced_afterLayout.bind fun s means =>
      predicate.takes.spaced_afterLayout.bind fun p means' =>
      object.takes.spaced_afterLayout.bind fun o means'' =>
      takesGraph.bind fun g found => (takesStop rest).bind fun _ _ => takes_pure ?_
    obtain ⟨tree, present, means'''⟩ := found
    simp only [StatementTree.meaning, means, means', means'', present, means''']
    rfl

theorem of_result {tree : StatementTree} {c c' : Cursor} (h : (statement c).result = some (tree, c'))
    (means : tree.meaning = .ok st) : st.Begins c.rest c'.rest := by
  obtain ⟨subject, c₁, readSubject, h⟩ := exists_of_bind h
  obtain ⟨predicate, c₂, readPredicate, h⟩ := exists_of_bind h
  obtain ⟨object, c₃, readObject, h⟩ := exists_of_bind h
  obtain ⟨graph, c₄, readGraph, h⟩ := exists_of_bind h
  obtain ⟨_, last, readStop, h⟩ := exists_of_bind h
  cases h
  obtain ⟨atPredicate, readSubject, gap⟩ := exists_of_spaced readSubject
  obtain ⟨atObject, readPredicate, gap'⟩ := exists_of_spaced readPredicate
  obtain ⟨atGraph, readObject, gap''⟩ := exists_of_spaced readObject
  obtain ⟨atStop, readGraph, toStop⟩ := exists_of_spaced readGraph
  have stop := rest_of_exactly readStop
  obtain ⟨s, meansSubject, means⟩ := exists_ok_of_bind means
  obtain ⟨p, meansPredicate, means⟩ := exists_ok_of_bind means
  obtain ⟨o, meansObject, means⟩ := exists_ok_of_bind means
  have subject := Term.Begins.of_result readSubject meansSubject
  have predicate := Term.Begins.of_result readPredicate meansPredicate
  have object := Term.Begins.of_result readObject meansObject
  rw [gap] at predicate
  rw [gap'] at object
  rcases cases_of_optional readGraph with ⟨tree, rfl, readTerm⟩ | ⟨rfl, rfl⟩
  · obtain ⟨g?, meansGraph, means⟩ := exists_ok_of_bind means
    cases means
    obtain ⟨g, meansTerm, rfl⟩ := exists_ok_of_map meansGraph
    have graph := Term.Begins.of_result readTerm meansTerm
    rw [gap''] at graph
    exact .quad subject predicate object graph (toStop.symm.trans stop)
  · cases means
    rw [gap'', afterLayout_afterLayout] at toStop
    exact .triple subject predicate object (toStop.symm.trans stop)

/-- A text does not begin with two statements. -/
theorem unique (h : st.Begins text rest) (h' : st'.Begins text rest') : st = st' ∧ rest = rest' := by
  obtain ⟨tree, _, read, means⟩ := h.takes 0
  obtain ⟨tree', _, read', means'⟩ := h'.takes 0
  rw [read] at read'
  cases read'
  exact ⟨Except.ok.inj (means.symm.trans means'), rfl⟩

theorem length_lt (h : st.Begins text rest) : rest.length < text.length := by
  have behind {t : Term} {cs rest : List Char} (begins : t.Begins (afterLayout cs) rest) :
      rest.length < cs.length :=
    Nat.lt_of_lt_of_le begins.length_lt (length_afterLayout_le cs)
  have stopped {cs : List Char} (stop : afterLayout cs = '.' :: rest) : rest.length < cs.length := by
    have shorter := length_afterLayout_le cs
    rw [stop, List.length_cons] at shorter
    exact shorter
  cases h with
  | triple subject predicate object stop =>
    calc
      rest.length < _ := stopped stop
      _ < _ := behind object
      _ < _ := behind predicate
      _ < text.length := subject.length_lt
  | quad subject predicate object graph stop =>
    calc
      rest.length < _ := stopped stop
      _ < _ := behind graph
      _ < _ := behind object
      _ < _ := behind predicate
      _ < text.length := subject.length_lt

theorem ne_nil (h : st.Begins text rest) : text ≠ [] := by
  rintro rfl
  exact Nat.not_lt_zero _ h.length_lt

end Begins

/-! ## Texts of statements -/

namespace Writes

/-- As many turns as there are characters are enough, since every statement takes one at least. -/
theorem takes_repeated (h : Writes text sts) : ∀ bound, (afterLayout text).length < bound →
    (repeated statement bound).Takes (afterLayout text) []
      fun trees => sts.Forall₂ (fun st tree => tree.meaning = .ok st) trees := by
  induction h with
  | nil blank =>
    intro bound _
    have ends : statement.Rejects [] := ((rejects_term rfl).spaced.bind _).tracked
    rw [blank]
    refine (takes_repeated_nil ends bound).mono ?_
    rintro _ rfl
    exact .nil
  | @cons text rest st sts first others ih =>
    intro bound enough
    obtain ⟨bound, rfl⟩ := Nat.exists_eq_succ_of_ne_zero (Nat.ne_zero_of_lt enough)
    have shorter := Nat.lt_of_le_of_lt (length_afterLayout_le rest) first.length_lt
    refine (takes_repeated_cons first.takes.spaced_afterLayout (ih bound (by omega))).mono ?_
    rintro _ ⟨tree, later, rfl, means, all⟩
    exact .cons means all

/-- What is read from a cursor behind blanks and comments is written in the text in front of them. -/
theorem of_repeated (bound : Nat) {trees : List StatementTree} {c c' : Cursor} {sts : List Statement}
    (h : (repeated statement bound c).result = some (trees, c')) (ends : afterLayout c'.rest = [])
    (means : sts.Forall₂ (fun st tree => tree.meaning = .ok st) trees) {text : List Char}
    (gap : c.rest = afterLayout text) : Writes text sts := by
  induction bound generalizing trees c sts text with
  | zero =>
    cases h
    cases means
    rw [gap, afterLayout_afterLayout] at ends
    exact .nil ends
  | succ bound ih =>
    rw [result_repeated] at h
    split at h
    · cases h
      cases means
      rw [gap, afterLayout_afterLayout] at ends
      exact .nil ends
    · next tree mid here =>
      obtain ⟨⟨later, _⟩, there, same⟩ := Option.map_eq_some_iff.1 h
      cases same
      obtain ⟨behind, here, gap'⟩ := exists_of_spaced here
      cases means with
      | cons first others =>
        refine .cons ?_ (ih there others gap')
        rw [← gap]
        exact Begins.of_result here first

end Writes

/-- Reading a text yields the statements that it writes. -/
theorem ofChars_eq_ok_iff : Statement.ofChars text = .ok sts ↔ Writes text sts := by
  rw [Statement.ofChars, located_eq_ok_iff]
  constructor
  · intro h
    obtain ⟨trees, read, means⟩ := exists_ok_of_bind h
    obtain ⟨last, read⟩ := recognize_eq_ok_iff.1 read
    obtain ⟨_, first, gap, afterGap⟩ := exists_of_bind read
    obtain ⟨trees', mid, repeats, afterTrees⟩ := exists_of_bind afterGap
    obtain ⟨_, last', gap', atEnd⟩ := exists_of_bind afterTrees
    obtain ⟨_, last'', ends, yielded⟩ := exists_of_bind atEnd
    cases gap
    cases gap'
    cases yielded
    exact .of_repeated _ repeats (rest_of_endOfText ends) (mapM_eq_ok_iff.1 means) rfl
  · intro h
    have takesEnd : endOfText.Takes [] [] fun _ => True := fun offset => ⟨(), offset, rfl, trivial⟩
    have takesMany : (many statement).Takes (afterLayout text) []
        fun trees => sts.Forall₂ (fun st tree => tree.meaning = .ok st) trees := fun offset =>
      h.takes_repeated _ (Nat.lt_succ_self _) offset
    have takes : statements.Takes text [] fun trees =>
        sts.Forall₂ (fun st tree => tree.meaning = .ok st) trees :=
      .tracked <| (takes_afterLayout text).bind fun _ _ => takesMany.bind fun _ means =>
        (takes_afterLayout []).bind fun _ _ => takesEnd.bind fun _ _ => takes_pure means
    obtain ⟨trees, _, read, means⟩ := takes 0
    rw [recognize_eq_ok_iff.2 ⟨_, read⟩]
    exact mapM_eq_ok_iff.2 means

end Statement

end QuadQuery
