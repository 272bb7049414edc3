import QuadQuery.Proofs.DatasetContents
import QuadQuery.Proofs.Grammar.Statements

/-!
# Loading in pieces

A text of statements and another text, joined by a line break, write the statements of the one and
then those of the other (`Statement.Writes.append_line_iff`): no word of the first text would go on
behind its end. So to load the joined text is to load one text and then the other
(`Dataset.load_joined`).
-/

namespace QuadQuery.Grammar

open Recognizer

variable {text : List Char}

theorem drop_layout_append (inside : Bool) (text later : List Char) :
    (text ++ '\n' :: later).drop (layoutLength inside (text ++ '\n' :: later))
      = if text.drop (layoutLength inside text) = [] then afterLayout later
        else text.drop (layoutLength inside text) ++ '\n' :: later := by
  induction text generalizing inside with
  | nil => cases inside <;> rfl
  | cons c text ih =>
    rw [List.cons_append]
    by_cases comment : inside = true
    · simp only [layoutLength, comment, if_true, List.drop_succ_cons, ih]
    by_cases blank : isLayoutBlank c = true
    · simp only [layoutLength, comment, blank, Bool.false_eq_true, if_true, if_false,
        List.drop_succ_cons, ih]
    by_cases begins : (c == '#') = true
    · simp only [layoutLength, comment, blank, begins, Bool.false_eq_true, if_true, if_false,
        List.drop_succ_cons, ih]
    · simp only [layoutLength, comment, blank, begins, Bool.false_eq_true, if_false, List.drop_zero]
      rfl

/-- A line break ends a comment at the end of a text. -/
theorem afterLayout_append_of_nil (blank : afterLayout text = []) (later : List Char) :
    afterLayout (text ++ '\n' :: later) = afterLayout later :=
  (drop_layout_append false text later).trans (if_pos blank)

theorem afterLayout_append_of_ne_nil (some : afterLayout text ≠ []) (later : List Char) :
    afterLayout (text ++ '\n' :: later) = afterLayout text ++ '\n' :: later :=
  (drop_layout_append false text later).trans (if_neg some)

end QuadQuery.Grammar

namespace QuadQuery

open Grammar

namespace Statement

variable {st : Statement} {sts all : List Statement} {text rest : List Char}

theorem Begins.append_line (h : st.Begins text rest) (later : List Char) :
    st.Begins (text ++ '\n' :: later) (rest ++ '\n' :: later) := by
  have behind {t : Term} {cs rest : List Char} (begins : t.Begins (afterLayout cs) rest) :
      t.Begins (afterLayout (cs ++ '\n' :: later)) (rest ++ '\n' :: later) := by
    rw [afterLayout_append_of_ne_nil begins.ne_nil]
    exact begins.append_line later
  have stopped {cs : List Char} (stop : afterLayout cs = '.' :: rest) :
      afterLayout (cs ++ '\n' :: later) = '.' :: (rest ++ '\n' :: later) := by
    rw [afterLayout_append_of_ne_nil (by rw [stop]; exact List.cons_ne_nil _ _), stop,
      List.cons_append]
  cases h with
  | triple subject predicate object stop =>
    exact .triple (subject.append_line later) (behind predicate) (behind object) (stopped stop)
  | quad subject predicate object graph stop =>
    exact .quad (subject.append_line later) (behind predicate) (behind object) (behind graph)
      (stopped stop)

namespace Writes

/-- Only what follows the blanks and comments in front counts. -/
theorem congr {text' : List Char} (same : afterLayout text = afterLayout text') :
    Writes text sts ↔ Writes text' sts := by
  have one_way {text text' : List Char} (same : afterLayout text = afterLayout text')
      (h : Writes text sts) : Writes text' sts := by
    cases h with
    | nil blank => exact .nil (same ▸ blank)
    | cons first others => exact .cons (same ▸ first) others
  exact ⟨one_way same, one_way same.symm⟩

theorem cons_iff (first : st.Begins (afterLayout text) rest) :
    Writes text all ↔ ∃ others, all = st :: others ∧ Writes rest others := by
  constructor
  · rintro (blank | ⟨first', others⟩)
    · exact absurd blank first.ne_nil
    · obtain ⟨rfl, rfl⟩ := first.unique first'
      exact ⟨_, rfl, others⟩
  · rintro ⟨others, rfl, writes⟩
    exact .cons first writes

/-- Behind a text of statements and a line break, another text writes what it writes alone. -/
theorem append_line_iff (h : Writes text sts) (later : List Char) :
    Writes (text ++ '\n' :: later) all ↔ ∃ sts', Writes later sts' ∧ all = sts ++ sts' := by
  induction h generalizing all with
  | nil blank =>
    rw [congr (afterLayout_append_of_nil blank later)]
    simp
  | @cons text rest st sts first others ih =>
    have first' : st.Begins (afterLayout (text ++ '\n' :: later)) (rest ++ '\n' :: later) := by
      rw [afterLayout_append_of_ne_nil first.ne_nil]
      exact first.append_line later
    rw [cons_iff first']
    constructor
    · rintro ⟨_, rfl, writes⟩
      obtain ⟨sts', writes', rfl⟩ := ih.1 writes
      exact ⟨sts', writes', rfl⟩
    · rintro ⟨sts', writes, rfl⟩
      exact ⟨_, rfl, ih.2 ⟨sts', writes, rfl⟩⟩

end Writes

end Statement

namespace Dataset

variable {d d' : Dataset} {text : String} {sts : List Statement}

theorem addAll_append (d : Dataset) (sts sts' : List Statement) : d.addAll (sts ++ sts') =
    ((d.addAll sts).1 + ((d.addAll sts).2.addAll sts').1, ((d.addAll sts).2.addAll sts').2) := by
  induction sts generalizing d with
  | nil => simp [addAll]
  | cons st sts ih =>
    simp only [List.cons_append, addAll, ih]
    refine Prod.ext ?_ rfl
    dsimp only
    split
    · omega
    · rfl

theorem load_of_ofText (d : Dataset) (accepted : Statement.ofText text = .ok sts) :
    d.load text = .ok (d.addAll sts) := by
  rw [load, accepted]
  rfl

/-- A text that is accepted may be loaded together with any other one behind a line break. The joined
text is accepted exactly if the other one is, and then it has the statements of both in turn, and
loading it counts as many quads and leaves the same dataset as loading one text and then the
other. A text that is refused leaves the dataset as it was. -/
theorem load_joined {first : String} {sts : List Statement}
    (accepted : Statement.ofText first = .ok sts) :
    (∀ second all, Statement.ofText (first ++ "\n" ++ second) = .ok all ↔
      ∃ sts', Statement.ofText second = .ok sts' ∧ all = sts ++ sts') ∧
    (∀ (d : Dataset) second sts', Statement.ofText second = .ok sts' →
      ∃ count d' count' d'', d.load first = .ok (count, d') ∧ d'.load second = .ok (count', d'') ∧
        d.load (first ++ "\n" ++ second) = .ok (count + count', d'')) ∧
    (∀ (d : Dataset) text refusal, d.load text = .error refusal → (Call.load text).perform d = d) := by
  have joined : ∀ second all, Statement.ofText (first ++ "\n" ++ second) = .ok all ↔
      ∃ sts', Statement.ofText second = .ok sts' ∧ all = sts ++ sts' := by
    intro second all
    have text : (first ++ "\n" ++ second).toList = first.toList ++ '\n' :: second.toList := by
      simp [String.toList_append]
    simp only [Statement.ofText, Statement.ofChars_eq_ok_iff] at accepted ⊢
    rw [text, accepted.append_line_iff]
  refine ⟨joined, fun d second sts' accepted' => ?_, fun d text refusal refused => ?_⟩
  · refine ⟨_, _, _, _, load_of_ofText d accepted, load_of_ofText _ accepted', ?_⟩
    rw [load_of_ofText d ((joined second _).2 ⟨sts', accepted', rfl⟩), addAll_append]
  · rw [Call.perform, refused]
    rfl

/-- A full stop that would go on to a decimal, a comment at the end of the text, a string of two
lines and a fourth term. -/
theorem load_joined_full_stop :
    let first := "<a> <p> 1. # one"
    let second := "2 <p> \"#\n.\" <g> ."
    let sts : List Statement := [⟨.iri "a", .iri "p", .integer 1, none⟩]
    Statement.ofText first = .ok sts ∧
    (∀ second all, Statement.ofText (first ++ "\n" ++ second) = .ok all ↔
      ∃ sts', Statement.ofText second = .ok sts' ∧ all = sts ++ sts') ∧
    (∃ count d' count' d'', load ∅ first = .ok (count, d') ∧ d'.load second = .ok (count', d'') ∧
      load ∅ (first ++ "\n" ++ second) = .ok (count + count', d'')) ∧
    Statement.ofText second = .ok [⟨.integer 2, .iri "p", .str "#\n.", some (.iri "g")⟩] := by
  have accepted : Statement.ofText "<a> <p> 1. # one"
      = .ok [⟨.iri "a", .iri "p", .integer 1, none⟩] := by
    decide +kernel
  have accepted' : Statement.ofText "2 <p> \"#\n.\" <g> ."
      = .ok [⟨.integer 2, .iri "p", .str "#\n.", some (.iri "g")⟩] := by
    decide +kernel
  obtain ⟨joined, loads, _⟩ := load_joined accepted
  exact ⟨accepted, joined, loads ∅ _ _ accepted', accepted'⟩

end Dataset

end QuadQuery
