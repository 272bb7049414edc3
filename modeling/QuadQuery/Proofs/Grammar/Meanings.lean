import Mathlib.Data.List.Forall2
import QuadQuery.Grammar.Meaning
import QuadQuery.Proofs.Solutions

/-!
# What lists of trees mean

A list of trees means a list of values if each tree means the value in its place
(`mapM_eq_ok_iff`). The functions that give several trees a meaning are all of this kind.
-/

namespace QuadQuery

theorem exists_ok_of_bind {ε α β : Type} {x : Except ε α} {f : α → Except ε β} {b : β}
    (h : (x >>= f) = .ok b) : ∃ a, x = .ok a ∧ f a = .ok b := by
  cases x with
  | error failure => cases h
  | ok a => exact ⟨a, rfl, h⟩

namespace Grammar

section

variable {ε τ α : Type} {f : τ → Except ε α} {trees : List τ} {values : List α}

theorem mapM_eq_ok_iff :
    trees.mapM f = .ok values ↔ values.Forall₂ (fun a tree => f tree = .ok a) trees := by
  constructor
  · intro h
    induction trees generalizing values with
    | nil =>
      cases h
      exact .nil
    | cons tree rest ih =>
      rw [List.mapM_cons] at h
      obtain ⟨a, here, h⟩ := exists_ok_of_bind h
      obtain ⟨others, there, h⟩ := exists_ok_of_bind h
      cases h
      exact .cons here (ih there)
  · intro h
    induction h with
    | nil => rfl
    | cons here _ ih => rw [List.mapM_cons, here, ih]; rfl

theorem exists_of_forall₂ (h : values.Forall₂ (fun a tree => f tree = .ok a) trees) :
    ∀ a ∈ values, ∃ tree ∈ trees, f tree = .ok a := by
  induction h with
  | nil => exact List.forall_mem_nil _
  | @cons a tree _ _ here _ ih =>
    refine List.forall_mem_cons.2 ⟨⟨tree, List.mem_cons_self, here⟩, fun a' later => ?_⟩
    obtain ⟨tree', listed, means⟩ := ih a' later
    exact ⟨tree', List.mem_cons_of_mem _ listed, means⟩

end

theorem ExprTree.meanings_eq_mapM (trees : List ExprTree) :
    ExprTree.meanings trees = trees.mapM ExprTree.meaning := by
  induction trees with
  | nil => rfl
  | cons tree rest ih => rw [ExprTree.meanings, ih, List.mapM_cons]

theorem ExprTree.meanings_eq_ok_iff {trees : List ExprTree} {exprs : List Expr} :
    ExprTree.meanings trees = .ok exprs ↔
      exprs.Forall₂ (fun e tree => tree.meaning = .ok e) trees := by
  rw [ExprTree.meanings_eq_mapM, mapM_eq_ok_iff]

theorem AlgebraTree.meanings_eq_mapM (trees : List AlgebraTree) :
    AlgebraTree.meanings trees = trees.mapM AlgebraTree.meaning := by
  induction trees with
  | nil => rfl
  | cons tree rest ih => rw [AlgebraTree.meanings, ih, List.mapM_cons]

theorem AlgebraTree.meanings_eq_ok_iff {trees : List AlgebraTree} {parts : List Algebra} :
    AlgebraTree.meanings trees = .ok parts ↔
      parts.Forall₂ (fun op tree => tree.meaning = .ok op) trees := by
  rw [AlgebraTree.meanings_eq_mapM, mapM_eq_ok_iff]

theorem TripleTree.meanings_eq_ok_iff {trees : List TripleTree} {pattern : BasicPattern} :
    TripleTree.meanings trees = .ok pattern ↔
      pattern.patterns.Forall₂ (fun p tree => tree.meaning = .ok p) trees := by
  rw [← mapM_eq_ok_iff]
  constructor
  · intro h
    obtain ⟨patterns, all, rfl⟩ := exists_ok_of_map h
    exact all
  · intro all
    rw [TripleTree.meanings, all]
    rfl

end Grammar

/-! ## Regular expressions -/

theorem Regex.ofText?_source (pattern : Regex) : Regex.ofText? pattern.source = some pattern := by
  unfold Regex.ofText?
  split
  · exact congrArg some (Regex.ext_source rfl)
  · next refused => exact absurd (refused.symm.trans pattern.reads) nofun

theorem Regex.source_of_ofText? {source : String} {pattern : Regex}
    (h : Regex.ofText? source = some pattern) : pattern.source = source := by
  unfold Regex.ofText? at h
  split at h
  · obtain rfl := Option.some.inj h
    rfl
  · cases h

end QuadQuery
