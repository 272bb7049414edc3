import QuadQuery.Grammar.Text
import QuadQuery.Proofs.Decimals
import QuadQuery.Proofs.IndexContents
import QuadQuery.Proofs.Interning

/-!
# The contents of a dataset

Statements are added one by one or as the text of many. What the dataset then answers about terms
and quads can be read off the statements, terms being equal if they are alike, decimals by value
(`Dataset.contents_after`): the numbers of the term table belong one to one to the terms that were
seen, a number stays with its term, and a statement is new if no statement before was alike.
-/

namespace QuadQuery

namespace Term

theorem Alike.refl (t : Term) : t.Alike t := same_iff_alike.1 (same_self t)

theorem Alike.symm {t u : Term} (h : t.Alike u) : u.Alike t := by
  rw [← same_iff_alike, same_iff] at *
  exact h.symm

theorem Alike.trans {t u v : Term} (h : t.Alike u) (h' : u.Alike v) : t.Alike v := by
  rw [← same_iff_alike, same_iff] at *
  exact h.trans h'

end Term

/-! ## Numbers of terms -/

namespace TermTable

variable {table table' table'' : TermTable} {t u : Term} {id : TermId}

/-- No term has two numbers, and the default graph has the first one. -/
structure OneToOne (table : TermTable) : Prop where
  distinct : table.terms.Pairwise fun t u => ¬ t.Alike u
  defaultGraph : table.term? TermTable.defaultGraph = some Term.defaultGraph

/-- The table has a number for the term. -/
def Knows (table : TermTable) (t : Term) : Prop :=
  ∃ u ∈ table.terms, u.Alike t

theorem isSome_term?_iff : (table.term? id).isSome = true ↔ id < table.size := by
  simp [term?, size]

theorem isSome_id?_iff : (table.id? t).isSome = true ↔ table.Knows t := by
  simp only [id?, List.findIdx?_isSome, List.any_eq_true, Term.same_iff_alike, Knows]

/-- A term that is given a new number was not in the table, and neither was the number. -/
theorem intern_of_unknown (unknown : table.id? t = none) :
    table.intern t = (table.size, ⟨table.terms ++ [t]⟩) ∧ (∀ u ∈ table.terms, ¬ u.Alike t) ∧
      table.term? table.size = none := by
  refine ⟨by rw [intern, unknown], fun u member alike => ?_, ?_⟩
  · have found := isSome_id?_iff.2 ⟨u, member, alike⟩
    rw [unknown] at found
    cases found
  · exact List.getElem?_eq_none (Nat.le_refl _)

/-- The terms with their numbers. -/
def pairs (table : TermTable) : List (Term × TermId) :=
  table.terms.zipIdx

/-- Pairs in which no term and no number comes twice, after one more was put in: one that has the same
term or the same number gives way to it. -/
def putPair (pairs : List (Term × TermId)) (t : Term) (id : TermId) : List (Term × TermId) :=
  (pairs.filter fun e => !(e.1.same t || e.2 == id)) ++ [(t, id)]

/-- The next number is how many pairs there are, and no pair gives way to the new one. -/
theorem pairs_intern_of_unknown (unknown : table.id? t = none) :
    (table.intern t).1 = table.pairs.length ∧
      (table.intern t).2.pairs = putPair table.pairs t table.pairs.length ∧
      table.pairs <+: (table.intern t).2.pairs := by
  obtain ⟨same, new, _⟩ := intern_of_unknown unknown
  have length : table.pairs.length = table.size := List.length_zipIdx
  have pairs : (table.intern t).2.pairs = table.pairs ++ [(t, table.size)] := by
    rw [same, TermTable.pairs, TermTable.pairs, List.zipIdx_append, Nat.zero_add]
    rfl
  have stay : (table.pairs.filter fun e => !(e.1.same t || e.2 == table.pairs.length))
      = table.pairs := by
    refine List.filter_eq_self.2 fun e member => ?_
    obtain ⟨_, inside, term⟩ := List.mem_zipIdx member
    have other : e.1.same t = false :=
      Bool.eq_false_iff.2 fun here => new e.1 (term ▸ List.getElem_mem _) (Term.same_iff_alike.1 here)
    have earlier : e.2 ≠ table.pairs.length := by
      rw [length]
      exact Nat.ne_of_lt (by simpa [size] using inside)
    simp [other, earlier]
  refine ⟨by rw [same, length], ?_, ?_⟩
  · rw [pairs, putPair, stay, length]
  · rw [pairs]
    exact List.prefix_append _ _

/-- Looking a term up and looking its number up are inverse to each other. -/
theorem OneToOne.id?_eq_some_iff (h : table.OneToOne) :
    table.id? t = some id ↔ ∃ u, table.term? id = some u ∧ u.Alike t := by
  unfold id? term?
  rw [List.findIdx?_eq_some_iff_getElem]
  constructor
  · rintro ⟨bound, here, _⟩
    exact ⟨table.terms[id], List.getElem?_eq_getElem bound, Term.same_iff_alike.1 here⟩
  · rintro ⟨u, here, alike⟩
    obtain ⟨bound, rfl⟩ := List.getElem?_eq_some_iff.1 here
    refine ⟨bound, Term.same_iff_alike.2 alike, fun j before found => ?_⟩
    -- A term in front would be alike as well, and then both places were those of one term.
    have twice : table.terms[j].Alike table.terms[id] :=
      (Term.same_iff_alike.1 found).trans alike.symm
    exact List.pairwise_iff_getElem.1 h.distinct j id (before.trans bound) bound before twice

theorem id?_congr (alike : t.Alike u) : table.id? t = table.id? u := by
  have same : (fun v : Term => v.same t) = fun v => v.same u := by
    funext v
    rw [Bool.eq_iff_iff, Term.same_iff_alike, Term.same_iff_alike]
    exact ⟨fun h => h.trans alike, fun h => h.trans alike.symm⟩
  rw [id?, id?, same]

/-- Terms with one number are alike. -/
theorem OneToOne.alike_of_id? (h : table.OneToOne) (first : table.id? t = some id)
    (second : table.id? u = some id) : t.Alike u := by
  obtain ⟨v, here, alike⟩ := h.id?_eq_some_iff.1 first
  obtain ⟨w, here', alike'⟩ := h.id?_eq_some_iff.1 second
  obtain rfl : v = w := Option.some.inj (here.symm.trans here')
  exact alike.symm.trans alike'

/-- Alike terms have one number. -/
theorem OneToOne.eq_of_alike {i j : TermId} (h : table.OneToOne) (first : table.term? i = some t)
    (second : table.term? j = some u) (alike : t.Alike u) : i = j := by
  have here : table.id? u = some i := h.id?_eq_some_iff.2 ⟨t, first, alike⟩
  have there : table.id? u = some j := h.id?_eq_some_iff.2 ⟨u, second, .refl u⟩
  exact Option.some.inj (here.symm.trans there)

/-- The table has come to know the terms, and no others, and all numbers stay what they were. -/
structure Grown (table : TermTable) (terms : List Term) (table' : TermTable) : Prop where
  oneToOne : table'.OneToOne
  kept : table.terms <+: table'.terms
  knows : ∀ t, table'.Knows t ↔ table.Knows t ∨ ∃ u ∈ terms, u.Alike t

theorem Grown.refl (h : table.OneToOne) : Grown table [] table :=
  ⟨h, List.prefix_rfl, fun t => by simp⟩

theorem Grown.trans {terms terms' : List Term} (h : Grown table terms table')
    (h' : Grown table' terms' table'') : Grown table (terms ++ terms') table'' where
  oneToOne := h'.oneToOne
  kept := h.kept.trans h'.kept
  knows t := by
    rw [h'.knows, h.knows]
    simp only [List.mem_append, or_and_right, exists_or, or_assoc]

theorem Grown.term? {terms : List Term} (h : Grown table terms table')
    (known : table.term? id = some t) : table'.term? id = some t := by
  obtain ⟨more, same⟩ := h.kept
  obtain ⟨bound, _⟩ := List.getElem?_eq_some_iff.1 known
  rw [TermTable.term?, ← same, List.getElem?_append_left bound]
  exact known

theorem Grown.id? {terms : List Term} (before : table.OneToOne) (h : Grown table terms table')
    (known : table.id? t = some id) : table'.id? t = some id := by
  obtain ⟨u, here, alike⟩ := before.id?_eq_some_iff.1 known
  exact h.oneToOne.id?_eq_some_iff.2 ⟨u, h.term? here, alike⟩

/-- A term that is interned is known by its number from then on. -/
theorem OneToOne.intern (h : table.OneToOne) (t : Term) :
    Grown table [t] (table.intern t).2 ∧ (table.intern t).2.id? t = some (table.intern t).1 := by
  unfold TermTable.intern
  split
  · next known =>
    obtain ⟨u, member, alike⟩ := isSome_id?_iff.1 (Option.isSome_of_eq_some known)
    refine ⟨⟨h, List.prefix_rfl, fun v => ?_⟩, known⟩
    simp only [List.mem_singleton, exists_eq_left]
    exact ⟨.inl, fun either => either.elim id fun other => ⟨u, member, alike.trans other⟩⟩
  · next unknown =>
    obtain ⟨_, new, _⟩ := intern_of_unknown unknown
    have distinct : (table.terms ++ [t]).Pairwise fun u v => ¬ u.Alike v := by
      refine List.pairwise_append.2
        ⟨h.distinct, List.pairwise_singleton .., fun u member v last => ?_⟩
      rw [List.mem_singleton.1 last]
      exact new u member
    obtain ⟨bound, _⟩ := List.getElem?_eq_some_iff.1 h.defaultGraph
    have first : (⟨table.terms ++ [t]⟩ : TermTable).term? TermTable.defaultGraph
        = some Term.defaultGraph :=
      (List.getElem?_append_left bound).trans h.defaultGraph
    refine ⟨⟨⟨distinct, first⟩, List.prefix_append .., fun v => ?_⟩, ?_⟩
    · simp only [Knows, List.mem_append, List.mem_singleton, or_and_right, exists_or,
        exists_eq_left]
    · have last : (⟨table.terms ++ [t]⟩ : TermTable).term? table.size = some t := by
        simp [TermTable.term?, size]
      exact (OneToOne.mk distinct first).id?_eq_some_iff.2 ⟨t, last, .refl t⟩

end TermTable

/-! ## Statements and their quads -/

namespace Statement

/-- The terms that the statement names. -/
def terms (st : Statement) : List Term :=
  [st.subject, st.predicate, st.object] ++ st.graph.toList

/-- The quad that is stated. Without a graph it stands in the default graph. -/
def quad (st : Statement) : Quad Term :=
  ⟨st.subject, st.predicate, st.object, st.graph.getD Term.defaultGraph⟩

/-- The statements state one quad. -/
def Alike (st st' : Statement) : Prop :=
  ∀ p, (st.quad.get p).Alike (st'.quad.get p)

end Statement

namespace Dataset

/-- A call that puts statements into a dataset. -/
inductive Call where
  | add (st : Statement)
  | load (text : String)

namespace Call

/-- The statements that are put in, none if the text is refused. -/
def statements : Call → List Statement
  | .add st => [st]
  | .load text => (Statement.ofText text).toOption.getD []

/-- The dataset after the call, the old one if the text is refused. -/
def perform (d : Dataset) : Call → Dataset
  | .add st => (d.add st).2
  | .load text => (d.load text).toOption.elim d Prod.snd

theorem perform_eq (d : Dataset) (call : Call) : call.perform d = (d.addAll call.statements).2 := by
  cases call with
  | add st => rfl
  | load text =>
    rw [perform, statements, Dataset.load]
    cases Statement.ofText text with
    | ok all => rfl
    | error refusal => rfl

end Call

/-- A new dataset after some calls. -/
def after (calls : List Call) : Dataset :=
  calls.foldl Call.perform ∅

theorem reachable_after (calls : List Call) : (after calls).Reachable := by
  have performed : ∀ d : Dataset, d.Reachable → (calls.foldl Call.perform d).Reachable := by
    induction calls with
    | nil => exact fun d reachable => reachable
    | cons call rest ih =>
      intro d reachable
      apply ih
      rw [call.perform_eq]
      exact reachable.addAll call.statements
  exact performed ∅ .empty

/-! ## Stored statements -/

variable {d : Dataset} {st : Statement}

/-- Adding a statement gives its terms numbers and adds the quad of these numbers. -/
theorem add_spec (h : d.terms.OneToOne) (st : Statement) : ∃ q : Quad TermId,
    (d.add st).1 = (d.index.insert q).1 ∧ (d.add st).2.index = (d.index.insert q).2 ∧
      TermTable.Grown d.terms st.terms (d.add st).2.terms ∧
      ∀ p, (d.add st).2.lookup? (st.quad.get p) = some (q.get p) := by
  obtain ⟨s, p, o, graph⟩ := st
  obtain ⟨grownS, idS⟩ := h.intern s
  obtain ⟨grownP, idP⟩ := grownS.oneToOne.intern p
  obtain ⟨grownO, idO⟩ := grownP.oneToOne.intern o
  have upTo := (grownS.trans grownP).trans grownO
  have idP := grownO.id? grownP.oneToOne idP
  have idS := grownO.id? grownP.oneToOne (grownP.id? grownS.oneToOne idS)
  cases graph with
  | none =>
    have idG := upTo.oneToOne.id?_eq_some_iff.2 ⟨_, upTo.oneToOne.defaultGraph, .refl _⟩
    refine ⟨⟨_, _, _, TermTable.defaultGraph⟩, rfl, rfl, upTo, fun place => ?_⟩
    cases place
    exacts [idS, idP, idO, idG]
  | some g =>
    obtain ⟨grownG, idG⟩ := grownO.oneToOne.intern g
    refine ⟨⟨_, _, _, _⟩, rfl, rfl, upTo.trans grownG, fun place => ?_⟩
    cases place
    exacts [grownG.id? grownO.oneToOne idS, grownG.id? grownO.oneToOne idP,
      grownG.id? grownO.oneToOne idO, idG]

/-- The quads of the dataset are the statements with their terms numbered. -/
structure Stores (d : Dataset) (statements : List Statement) : Prop where
  oneToOne : d.terms.OneToOne
  index : d.index.Valid
  knows : ∀ t, d.terms.Knows t ↔ ∃ u ∈ Term.defaultGraph :: statements.flatMap Statement.terms,
    u.Alike t
  quads : ∀ q, q ∈ d.quads ↔ ∃ st ∈ statements, ∀ p, d.lookup? (st.quad.get p) = some (q.get p)

variable {statements : List Statement}

theorem stores_empty : (∅ : Dataset).Stores [] where
  oneToOne := ⟨List.pairwise_singleton .., rfl⟩
  index := QuadIndex.valid_empty
  knows t := by simp [TermTable.Knows, EmptyCollection.emptyCollection, empty, TermTable.empty]
  quads q := iff_of_false List.not_mem_nil (by simp)

theorem Stores.knows_quad (h : d.Stores statements) {st : Statement} (member : st ∈ statements)
    (p : Place) : ∃ id, d.lookup? (st.quad.get p) = some id := by
  refine Option.isSome_iff_exists.1 (TermTable.isSome_id?_iff.2 ((h.knows _).2 ⟨_, ?_, .refl _⟩))
  cases named : st.graph <;> cases p <;>
    simp only [Statement.quad, Quad.get, named, Option.getD_none, Option.getD_some, List.mem_cons,
      true_or, List.mem_flatMap]
  all_goals exact .inr ⟨st, member, by simp [Statement.terms, named]⟩

/-- A quad of numbers is stored if some statement before was alike. -/
theorem Stores.mem_quads_iff (h : d.Stores statements) {terms : List Term} {terms' : TermTable}
    (grown : TermTable.Grown d.terms terms terms') {q : Quad TermId}
    (ids : ∀ p, terms'.id? (st.quad.get p) = some (q.get p)) :
    q ∈ d.quads ↔ ∃ earlier ∈ statements, earlier.Alike st := by
  rw [h.quads]
  refine exists_congr fun earlier => and_congr_right fun member =>
    ⟨fun same p => ?_, fun alike p => ?_⟩
  · exact grown.oneToOne.alike_of_id? (grown.id? h.oneToOne (same p)) (ids p)
  · obtain ⟨id, known⟩ := h.knows_quad member p
    have there : terms'.id? (st.quad.get p) = some id :=
      (TermTable.id?_congr (alike p)).symm.trans (grown.id? h.oneToOne known)
    rw [known, ← there, ids p]

/-- A statement is new if no statement before was alike. -/
theorem Stores.new_iff (h : d.Stores statements) (st : Statement) :
    (d.add st).1 = true ↔ ∀ earlier ∈ statements, ¬ earlier.Alike st := by
  obtain ⟨q, new, _, grown, ids⟩ := add_spec h.oneToOne st
  rw [new, h.index.new_iff]
  exact (not_congr (h.mem_quads_iff grown ids)).trans (by simp)

theorem Stores.add (h : d.Stores statements) (st : Statement) :
    (d.add st).2.Stores (statements ++ [st]) := by
  obtain ⟨q, _, index, grown, ids⟩ := add_spec h.oneToOne st
  refine ⟨grown.oneToOne, index ▸ h.index.insert q, fun t => ?_, fun r => ?_⟩
  · rw [grown.knows, h.knows]
    simp only [List.flatMap_append, List.flatMap_singleton, List.mem_cons, List.mem_append,
      or_and_right, exists_or, or_assoc]
  · have members : r ∈ (d.add st).2.quads ↔ r = q ∨ r ∈ d.quads := by
      rw [Dataset.quads, index]
      exact h.index.mem_insert
    rw [members, h.quads]
    simp only [List.mem_append, List.mem_singleton, or_and_right, exists_or, exists_eq_left]
    rw [or_comm]
    refine or_congr (exists_congr fun earlier => and_congr_right fun member =>
      forall_congr' fun p => ?_) ?_
    · obtain ⟨id, known⟩ := h.knows_quad member p
      rw [known, show (d.add st).2.lookup? _ = _ from grown.id? h.oneToOne known]
    · exact ⟨fun same p => by rw [ids, same], fun same => Quad.ext_get fun p => by
        rw [← Option.some.injEq, ← same p, ids p]⟩

theorem Stores.addAll (h : d.Stores statements) (more : List Statement) :
    (d.addAll more).2.Stores (statements ++ more) := by
  induction more generalizing d statements with
  | nil => rwa [List.append_nil]
  | cons st rest ih =>
    have all := ih (h.add st)
    rw [List.append_assoc] at all
    exact all

/-- A dataset that came about by adding statements stores them. -/
theorem Reachable.exists_stores (h : d.Reachable) : ∃ statements, d.Stores statements := by
  induction h with
  | empty => exact ⟨[], stores_empty⟩
  | add _ st ih =>
    obtain ⟨statements, stored⟩ := ih
    exact ⟨statements ++ [st], stored.add st⟩

theorem addAll_grown (h : d.terms.OneToOne) (more : List Statement) :
    TermTable.Grown d.terms (more.flatMap Statement.terms) (d.addAll more).2.terms := by
  induction more generalizing d with
  | nil => exact .refl h
  | cons st rest ih =>
    obtain ⟨_, _, _, grown, _⟩ := add_spec h st
    exact grown.trans (ih grown.oneToOne)

/-- There are as many quads as statements of which no two are alike. -/
theorem Stores.exists_distinct (h : d.Stores statements) : ∃ distinct : List Statement,
    (∀ st ∈ distinct, st ∈ statements) ∧ distinct.Pairwise (fun st st' => ¬ st.Alike st') ∧
      (∀ st ∈ statements, ∃ other ∈ distinct, other.Alike st) ∧ d.size = distinct.length := by
  have nodup : d.quads.Nodup :=
    (h.index.arranged d.index.bySubject (by simp [QuadIndex.arrangements])).nodup
  -- Every quad is the quad of some statement, and it is picked for it.
  choose pick member ids using fun q : { q // q ∈ d.quads } => (h.quads q).1 q.2
  refine ⟨d.quads.attach.map pick, fun st picked => ?_, ?_, fun st stated => ?_, ?_⟩
  · obtain ⟨q, _, rfl⟩ := List.mem_map.1 picked
    exact member q
  · refine List.pairwise_map.2 (nodup.attach.imp fun {q r} other alike => other ?_)
    refine Subtype.ext (Quad.ext_get fun p => ?_)
    have same := (TermTable.id?_congr (alike p)).symm.trans (ids q p)
    exact Option.some.inj (same.symm.trans (ids r p))
  · choose id known using h.knows_quad stated
    let q : Quad TermId := ⟨id .subject, id .predicate, id .object, id .graph⟩
    have named : ∀ p, d.lookup? (st.quad.get p) = some (q.get p) := fun p => by
      cases p <;> exact known _
    have stored : q ∈ d.quads := (h.quads q).2 ⟨st, stated, named⟩
    refine ⟨pick ⟨q, stored⟩, List.mem_map_of_mem (List.mem_attach ..), fun p => ?_⟩
    exact h.oneToOne.alike_of_id? (ids ⟨q, stored⟩ p) (named p)
  · rw [List.length_map, List.length_attach]
    rfl

/-- What a dataset that was given some statements answers, read off the statements. -/
structure Contents (d : Dataset) (statements : List Statement) : Prop where
  /-- The numbers are those below the size of the table. -/
  numbered : ∀ id, (d.term? id).isSome = true ↔ id < d.terms.size
  /-- The number of a term and the term of a number are inverse to each other. -/
  inverse : ∀ t id, d.lookup? t = some id ↔ ∃ u, d.term? id = some u ∧ u.Alike t
  seen : ∀ t, (d.lookup? t).isSome = true ↔
    ∃ u ∈ Term.defaultGraph :: statements.flatMap Statement.terms, u.Alike t
  defaultGraph : d.term? 0 = some Term.defaultGraph
  known : ∀ q ∈ d.quads, ∀ p, (d.term? (q.get p)).isSome = true
  new : ∀ st, (d.add st).1 = true ↔ ∀ earlier ∈ statements, ¬ earlier.Alike st
  /-- There are as many quads as statements of which no two are alike. -/
  size : ∃ distinct : List Statement, (∀ st ∈ distinct, st ∈ statements) ∧
    distinct.Pairwise (fun st st' => ¬ st.Alike st') ∧
    (∀ st ∈ statements, ∃ other ∈ distinct, other.Alike st) ∧ d.size = distinct.length

theorem Stores.contents (h : d.Stores statements) : d.Contents statements where
  numbered _ := TermTable.isSome_term?_iff
  inverse _ _ := h.oneToOne.id?_eq_some_iff
  seen t := TermTable.isSome_id?_iff.trans (h.knows t)
  defaultGraph := h.oneToOne.defaultGraph
  known q stored p := by
    obtain ⟨st, _, ids⟩ := (h.quads q).1 stored
    obtain ⟨u, here, _⟩ := h.oneToOne.id?_eq_some_iff.1 (ids p)
    exact Option.isSome_of_eq_some here
  new := h.new_iff
  size := h.exists_distinct

/-- Calls store the statements that they put in, and all numbers stay what they were. -/
theorem Stores.performAll (h : d.Stores statements) (calls : List Call) :
    (calls.foldl Call.perform d).Stores (statements ++ calls.flatMap Call.statements) ∧
      TermTable.Grown d.terms ((calls.flatMap Call.statements).flatMap Statement.terms)
        (calls.foldl Call.perform d).terms := by
  induction calls generalizing d statements with
  | nil => exact ⟨by rwa [List.flatMap_nil, List.append_nil], .refl h.oneToOne⟩
  | cons call rest ih =>
    have stored : (call.perform d).Stores (statements ++ call.statements) := by
      rw [call.perform_eq]
      exact h.addAll call.statements
    have grown : TermTable.Grown d.terms (call.statements.flatMap Statement.terms)
        (call.perform d).terms := by
      rw [call.perform_eq]
      exact addAll_grown h.oneToOne call.statements
    obtain ⟨all, more⟩ := ih stored
    rw [List.flatMap_cons, List.flatMap_append, ← List.append_assoc]
    exact ⟨all, grown.trans more⟩

/-- After any calls the dataset answers as the statements that were put in say, and whatever calls
follow, a number stays with its term and a term with its number. -/
theorem contents_after (calls later : List Call) :
    (after calls).Contents (calls.flatMap Call.statements) ∧
      (∀ id t, (after calls).term? id = some t → (after (calls ++ later)).term? id = some t) ∧
      ∀ t id, (after calls).lookup? t = some id → (after (calls ++ later)).lookup? t = some id := by
  obtain ⟨stored, _⟩ := stores_empty.performAll calls
  obtain ⟨_, grown⟩ := stored.performAll later
  rw [← List.foldl_append] at grown
  exact ⟨stored.contents, fun _ _ => grown.term?, fun _ _ => grown.id? stored.oneToOne⟩

/-- One decimal in two spellings makes one quad; the integer beside it is another term. -/
example :
    let a : Term := .iri "a"
    let d := after [.add ⟨a, a, .decimal ⟨10, 1⟩, none⟩, .add ⟨a, a, .decimal ⟨100, 2⟩, none⟩,
      .add ⟨a, a, .integer 1, some .defaultGraph⟩]
    d.size = 2 ∧ d.lookup? (.decimal ⟨1, 0⟩) = some 2 ∧ d.lookup? (.integer 1) = some 3 := by
  decide +kernel

end Dataset

end QuadQuery
