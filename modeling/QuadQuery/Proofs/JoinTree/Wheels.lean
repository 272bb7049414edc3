import Mathlib

/-!
# Odometers

A wheel lists what can still be read off it until it comes to its end and what it reads off over a
whole turn. From the wheels alone it follows which positions the odometer will still come to, the
first wheel turning fastest. Moving the first wheel that is not at its end, and turning those in
front of it back to their start, leads to the next of these positions.
-/

namespace QuadQuery

/-- A wheel of an odometer. -/
@[ext]
structure Wheel (α : Type) where
  /-- What can be read from where it is to its end. -/
  ahead : List α
  /-- What can be read over a whole turn. -/
  all : List α

namespace Wheel

variable {α : Type}

/-- The wheel turned back to its start. -/
def restarted (w : Wheel α) : Wheel α :=
  { w with ahead := w.all }

/-- All ways to read one value off every list, where the first list varies fastest. -/
def picks : List (List α) → List (List α)
  | [] => [[]]
  | values :: rest => (picks rest).flatMap fun upper => values.map (· :: upper)

/-- What the wheels will still show together, their current position first. -/
def positions : List (Wheel α) → List (List α)
  | [] => [[]]
  | w :: rest =>
    match positions rest with
    | [] => []
    | now :: later =>
      w.ahead.map (· :: now) ++ later.flatMap fun upper => w.all.map (· :: upper)

variable {w : Wheel α} {ws rest rest' : List (Wheel α)} {x : α} {xs later : List α}

/-! ## Picks -/

/-- Picks take one value from every list. -/
theorem mem_picks {columns : List (List α)} :
    xs ∈ picks columns ↔ xs.Forall₂ (· ∈ ·) columns := by
  induction columns generalizing xs with
  | nil => simp [picks]
  | cons values rest ih =>
    simp only [picks, List.mem_flatMap, List.mem_map, ih, List.forall₂_cons_right_iff]
    constructor
    · rintro ⟨upper, others, x, member, rfl⟩
      exact ⟨x, upper, member, others, rfl⟩
    · rintro ⟨x, upper, member, others, rfl⟩
      exact ⟨upper, others, x, member, rfl⟩

theorem nodup_picks {columns : List (List α)} (distinct : ∀ values ∈ columns, values.Nodup) :
    (picks columns).Nodup := by
  induction columns with
  | nil => exact List.nodup_singleton _
  | cons values rest ih =>
    obtain ⟨first, others⟩ := List.forall_mem_cons.1 distinct
    refine List.nodup_flatMap.2 ⟨fun upper _ => first.map fun _ _ h => (List.cons.inj h).1, ?_⟩
    refine (ih others).imp fun {a b} differ => List.disjoint_left.2 fun xs inA inB => ?_
    obtain ⟨x, _, rfl⟩ := List.mem_map.1 inA
    obtain ⟨y, _, same⟩ := List.mem_map.1 inB
    exact differ (List.cons.inj same).2.symm

/-- The last list varies slowest. -/
theorem picks_append_singleton (columns : List (List α)) (values : List α) :
    picks (columns ++ [values]) = values.flatMap fun x => (picks columns).map (· ++ [x]) := by
  induction columns with
  | nil => simp only [List.nil_append, picks, List.flatMap_cons, List.flatMap_nil, List.append_nil,
      List.map_eq_flatMap]
  | cons first rest ih =>
    simp only [List.cons_append, picks, ih, List.flatMap_assoc, List.map_flatMap, List.flatMap_map,
      List.map_map, Function.comp_def]

/-- Picking from rearranged lists gives rearranged picks. -/
theorem perm_picks {columns columns' : List (List α)} (h : columns.Forall₂ List.Perm columns') :
    (picks columns).Perm (picks columns') := by
  induction h with
  | nil => exact List.Perm.refl _
  | cons first _ ih => exact ih.flatMap fun upper _ => first.map _

theorem picks_map {β : Type} (f : α → β) (columns : List (List α)) :
    picks (columns.map (List.map f)) = (picks columns).map (List.map f) := by
  induction columns with
  | nil => rfl
  | cons values rest ih =>
    simp only [List.map_cons, picks, ih, List.flatMap_map, List.map_flatMap, List.map_map,
      Function.comp_def]

/-! ## Positions -/

/-- From their start the wheels show everything. -/
theorem positions_restarted (ws : List (Wheel α)) :
    positions (ws.map restarted) = picks (ws.map Wheel.all) := by
  induction ws with
  | nil => rfl
  | cons w rest ih =>
    simp only [List.map_cons, positions, picks, ih]
    cases picks (rest.map Wheel.all) with
    | nil => rfl
    | cons now later => rw [List.flatMap_cons]; rfl

/-- The current position is made of the current values. -/
theorem positions_eq_cons (h : List.Forall₂ (fun w x => w.ahead.head? = some x) ws xs) :
    ∃ others, positions ws = xs :: others := by
  induction h with
  | nil => exact ⟨[], rfl⟩
  | @cons w x rest xs first _ ih =>
    obtain ⟨later, same⟩ := ih
    obtain ⟨others, ahead⟩ := List.head?_eq_some_iff.1 first
    simp only [positions, same, ahead, List.map_cons, List.cons_append]
    exact ⟨_, rfl⟩

/-- A wheel moves on by itself as long as it is not at its end. -/
theorem tail_positions_of_step (ahead : w.ahead = x :: later) :
    (positions (w :: rest)).tail = positions ({ w with ahead := later } :: rest) := by
  simp only [positions]
  cases positions rest with
  | nil => rfl
  | cons now others => simp only [ahead, List.map_cons, List.cons_append, List.tail_cons]

/-- A wheel at its end moves on with the wheels behind it. -/
theorem tail_positions_of_end (ahead : w.ahead = [x])
    (moved : positions rest' = (positions rest).tail) :
    (positions (w :: rest)).tail = positions (w.restarted :: rest') := by
  simp only [positions, moved]
  cases positions rest with
  | nil => rfl
  | cons now others =>
    simp only [ahead, List.map_cons, List.map_nil, List.singleton_append, List.tail_cons]
    cases others with
    | nil => rfl
    | cons next others => rw [List.flatMap_cons]; rfl

/-- Wheels that are all at their end have shown everything. -/
theorem tail_positions_eq_nil (ahead : w.ahead = [x]) (stuck : (positions rest).tail = []) :
    (positions (w :: rest)).tail = [] := by
  simp only [positions]
  cases same : positions rest with
  | nil => rfl
  | cons now others =>
    obtain rfl : others = [] := by simpa [same] using stuck
    simp [ahead]

end Wheel

end QuadQuery
