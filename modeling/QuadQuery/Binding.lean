import QuadQuery.TermTable
import QuadQuery.Variable

/-!
# Bindings

A binding gives term numbers to finitely many variables. Its entries are kept in the order of
the variables, so that two bindings that give the same values are equal (`Binding.ext_get?`),
however they came about.
-/

namespace QuadQuery

/-- The entries come in strictly ascending order of their variables. -/
def Ascending (entries : List (Variable × TermId)) : Prop :=
  entries.Pairwise fun a b => a.1 < b.1

/-- One row of variables with the numbers of their terms. -/
structure Binding where
  entries : List (Variable × TermId)
  ascending : Ascending entries

namespace Binding

/-- Puts an entry in its place, over the entry of the same variable if there is one. -/
def insertEntry (v : Variable) (id : TermId) :
    List (Variable × TermId) → List (Variable × TermId)
  | [] => [(v, id)]
  | e :: rest =>
    if v < e.1 then (v, id) :: e :: rest
    else if e.1 < v then e :: insertEntry v id rest
    else (v, id) :: rest

theorem mem_insertEntry {v : Variable} {id : TermId} {entries : List (Variable × TermId)}
    {e : Variable × TermId} (h : e ∈ insertEntry v id entries) : e = (v, id) ∨ e ∈ entries := by
  induction entries with
  | nil => exact .inl (List.mem_singleton.1 h)
  | cons head rest ih =>
    unfold insertEntry at h
    split at h
    · exact List.mem_cons.1 h
    · split at h
      · rcases List.mem_cons.1 h with rfl | h
        · exact .inr (List.mem_cons_self ..)
        · exact (ih h).imp_right (List.mem_cons_of_mem _)
      · exact (List.mem_cons.1 h).imp_right (List.mem_cons_of_mem _)

theorem ascending_insertEntry (v : Variable) (id : TermId) {entries : List (Variable × TermId)}
    (h : Ascending entries) : Ascending (insertEntry v id entries) := by
  induction entries with
  | nil => exact List.pairwise_singleton ..
  | cons head rest ih =>
    obtain ⟨first, others⟩ := List.pairwise_cons.1 h
    unfold insertEntry
    split
    next before =>
      refine List.pairwise_cons.2 ⟨fun e he => ?_, h⟩
      rcases List.mem_cons.1 he with rfl | he
      · exact before
      · exact Variable.lt_trans before (first e he)
    next notBefore =>
      split
      next after =>
        refine List.pairwise_cons.2 ⟨fun e he => ?_, ih others⟩
        rcases mem_insertEntry he with rfl | he
        · exact after
        · exact first e he
      next notAfter =>
        have same : v = head.1 := Variable.eq_of_not_lt notBefore notAfter
        exact List.pairwise_cons.2 ⟨fun e he => same ▸ first e he, others⟩

/-- The binding of no variable. -/
def empty : Binding :=
  ⟨[], List.Pairwise.nil⟩

instance : EmptyCollection Binding := ⟨empty⟩

instance : Inhabited Binding := ⟨empty⟩

instance : DecidableEq Binding := fun a b =>
  if h : a.entries = b.entries then
    isTrue (by cases a; cases b; cases h; rfl)
  else
    isFalse (fun same => h (same ▸ rfl))

/-- The number given to `v`. -/
def get? (b : Binding) (v : Variable) : Option TermId :=
  (b.entries.find? fun e => e.1 == v).map (·.2)

def contains (b : Binding) (v : Variable) : Bool :=
  (b.get? v).isSome

/-- The binding with `v` given the number `id`, whatever it had before. -/
def insert (b : Binding) (v : Variable) (id : TermId) : Binding :=
  ⟨insertEntry v id b.entries, ascending_insertEntry v id b.ascending⟩

/-- Pairs the variables with the numbers, as far as both go. -/
def ofRow (vars : List Variable) (ids : List TermId) : Binding :=
  (vars.zip ids).foldl (fun b e => b.insert e.1 e.2) ∅

/-- The entries of `other` are added for variables that have none here. -/
def extendAbsent (b other : Binding) : Binding :=
  other.entries.foldl (fun b e => if b.contains e.1 then b else b.insert e.1 e.2) b

def size (b : Binding) : Nat :=
  b.entries.length

def isEmpty (b : Binding) : Bool :=
  b.entries.isEmpty

/-- The variables, in ascending order. -/
def vars (b : Binding) : List Variable :=
  b.entries.map (·.1)

/-- Entries in braces, in the order of the variables. -/
def text (b : Binding) : String :=
  "\x7b" ++ ", ".intercalate (b.entries.map fun e => e.1.text ++ "=" ++ e.2.text) ++ "\x7d"

/-! ## Look-up -/

theorem not_mem_of_ascending {e : Variable × TermId} {rest : List (Variable × TermId)}
    (h : Ascending (e :: rest)) : e ∉ rest := fun member =>
  Variable.lt_irrefl e.1 ((List.pairwise_cons.1 h).1 e member)

/-- An ascending list is determined by its members. -/
theorem eq_of_same_members {l m : List (Variable × TermId)} (hl : Ascending l) (hm : Ascending m)
    (same : ∀ e, e ∈ l ↔ e ∈ m) : l = m := by
  induction l generalizing m with
  | nil =>
    cases m with
    | nil => rfl
    | cons e m => exact absurd ((same e).2 (List.mem_cons_self ..)) (List.not_mem_nil)
  | cons a l ih =>
    cases m with
    | nil => exact absurd ((same a).1 (List.mem_cons_self ..)) (List.not_mem_nil)
    | cons b m =>
      obtain ⟨afterA, restL⟩ := List.pairwise_cons.1 hl
      obtain ⟨afterB, restM⟩ := List.pairwise_cons.1 hm
      have heads : a = b := by
        rcases List.mem_cons.1 ((same a).1 (List.mem_cons_self ..)) with eq | inM
        · exact eq
        · rcases List.mem_cons.1 ((same b).2 (List.mem_cons_self ..)) with eq | inL
          · exact eq.symm
          · exact absurd (Variable.lt_trans (afterA b inL) (afterB a inM)) (Variable.lt_irrefl a.1)
      subst heads
      refine congrArg (a :: ·) (ih restL restM fun e => ⟨fun inL => ?_, fun inM => ?_⟩)
      · rcases List.mem_cons.1 ((same e).1 (List.mem_cons_of_mem a inL)) with rfl | inM
        · exact absurd inL (not_mem_of_ascending hl)
        · exact inM
      · rcases List.mem_cons.1 ((same e).2 (List.mem_cons_of_mem a inM)) with rfl | inL
        · exact absurd inM (not_mem_of_ascending hm)
        · exact inL

/-- Entries of one variable in an ascending list are one entry. -/
theorem eq_of_mem_ascending {entries : List (Variable × TermId)} (h : Ascending entries)
    {v : Variable} {i j : TermId} (hi : (v, i) ∈ entries) (hj : (v, j) ∈ entries) : i = j := by
  induction entries with
  | nil => cases hi
  | cons head rest ih =>
    obtain ⟨first, others⟩ := List.pairwise_cons.1 h
    rcases List.mem_cons.1 hi with rfl | inI <;> rcases List.mem_cons.1 hj with eq | inJ
    · exact (Prod.mk.inj eq).2.symm
    · exact absurd (first (v, j) inJ) (Variable.lt_irrefl v)
    · subst eq
      exact absurd (first (v, i) inI) (Variable.lt_irrefl v)
    · exact ih others inI inJ

theorem mem_entries_iff {b : Binding} {v : Variable} {id : TermId} :
    (v, id) ∈ b.entries ↔ b.get? v = some id := by
  constructor
  · intro member
    have found : (b.entries.find? fun e => e.1 == v).isSome := by
      simpa using ⟨id, member⟩
    obtain ⟨⟨w, j⟩, hw⟩ := Option.isSome_iff_exists.1 found
    have same : w = v := by simpa using List.find?_some hw
    subst same
    have eq := eq_of_mem_ascending b.ascending member (List.mem_of_find?_eq_some hw)
    simp [get?, hw, eq]
  · intro h
    obtain ⟨⟨w, j⟩, hw, eq⟩ := Option.map_eq_some_iff.1 h
    have same : w = v := by simpa using List.find?_some hw
    subst same eq
    exact List.mem_of_find?_eq_some hw

/-- Bindings that give every variable the same number are equal. -/
theorem ext_get? {a b : Binding} (h : ∀ v, a.get? v = b.get? v) : a = b := by
  have same : a.entries = b.entries := eq_of_same_members a.ascending b.ascending fun (v, id) => by
    rw [mem_entries_iff, mem_entries_iff, h]
  cases a; cases b; cases same; rfl

@[simp]
theorem get?_empty (v : Variable) : (∅ : Binding).get? v = none := rfl

theorem find?_insertEntry (v w : Variable) (id : TermId) (entries : List (Variable × TermId)) :
    (insertEntry v id entries).find? (fun e => e.1 == w)
      = if v = w then some (v, id) else entries.find? fun e => e.1 == w := by
  induction entries with
  | nil => by_cases h : v = w <;> simp [insertEntry, h]
  | cons head rest ih =>
    unfold insertEntry
    split
    · by_cases h : v = w <;> simp [h]
    · next notBefore =>
      split
      · next after =>
        rw [List.find?_cons, ih, List.find?_cons]
        by_cases h : v = w
        · subst h
          have differ : (head.1 == v) = false := by
            simpa using fun eq : head.1 = v => Variable.lt_irrefl v (eq ▸ after)
          simp [differ]
        · simp [h]
      · next notAfter =>
        have same : v = head.1 := Variable.eq_of_not_lt notBefore notAfter
        by_cases h : v = w
        · simp [h]
        · have differ : (head.1 == w) = false := by simpa [← same] using h
          simp [h, differ]

/-- An entry is found under its variable, and all others are found as before. -/
@[simp]
theorem get?_insert (b : Binding) (v w : Variable) (id : TermId) :
    (b.insert v id).get? w = if v = w then some id else b.get? w := by
  unfold get? insert
  rw [find?_insertEntry]
  by_cases h : v = w <;> simp [h]

/-- One step of `extendAbsent`. -/
theorem get?_addAbsent (b : Binding) (e : Variable × TermId) (v : Variable) :
    (if b.contains e.1 then b else b.insert e.1 e.2).get? v
      = (b.get? v).or (if e.1 = v then some e.2 else none) := by
  unfold contains
  cases known : b.get? e.1 with
  | none =>
    by_cases h : e.1 = v
    · subst h; simp [known]
    · simp [h]
  | some id =>
    by_cases h : e.1 = v
    · subst h; simp [known]
    · simp [h]

/-- Every variable has its number here, and the number in `other` if it has none here. -/
@[simp]
theorem get?_extendAbsent (b other : Binding) (v : Variable) :
    (b.extendAbsent other).get? v = (b.get? v).or (other.get? v) := by
  unfold extendAbsent
  rw [show other.get? v = (other.entries.find? fun e => e.1 == v).map (·.2) from rfl]
  induction other.entries generalizing b with
  | nil => simp
  | cons e rest ih =>
    rw [List.foldl_cons, ih, get?_addAbsent, Option.or_assoc, List.find?_cons]
    by_cases h : e.1 = v
    · simp [h]
    · simp [h, beq_eq_false_iff_ne.2 h]

end Binding

end QuadQuery
