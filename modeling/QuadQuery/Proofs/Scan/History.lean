import QuadQuery.Proofs.Scan.Matches

/-!
# Histories of a scan

A settled scan may be opened, moved, reset and drawn from in any order. As long as the hints are
right, it replies as if every opening, moving and starting over took a fresh scan and moved that to
the context (`IndexScan.replies_eq_renewed`): what the scan keeps between contexts only saves work.
-/

namespace QuadQuery

namespace IndexScan

/-- What can be done to a scan. -/
inductive Step where
  | «open»
  | seek (context : Binding) (firstChanged : Nat)
  | reset
  | next

/-- What comes of it. -/
inductive Reply where
  | done
  | found (some : Bool)
  | row (row : Option Row)
  | failed
deriving DecidableEq

/-- Does one step with the scan. -/
def perform (d : Dataset) (s : IndexScan) : Step → Reply × IndexScan
  | .open =>
    match s.open d with
    | .ok s => (.done, s)
    | .error _ => (.failed, s)
  | .seek context firstChanged =>
    match s.seek d context firstChanged with
    | .ok (found, s) => (.found found, s)
    | .error _ => (.failed, s)
  | .reset => (.found s.reset.1, s.reset.2)
  | .next =>
    match s.next? false with
    | some (row, s) => (.row (some row), s)
    | none => (.row none, s)

/-- The replies to steps that are done in turn. -/
def replies (d : Dataset) (s : IndexScan) : List Step → List Reply
  | [] => []
  | step :: rest => (s.perform d step).1 :: (s.perform d step).2.replies d rest

/-- Every context that is sought agrees with the last one at all places of the order before the
hint. Before the first context any hint will do. -/
def Truthful (order : AttributeOrder) : Option Binding → List Step → Prop
  | _, [] => True
  | _, .open :: rest => Truthful order (some ∅) rest
  | last, .seek context firstChanged :: rest =>
    (∀ old, last = some old → order.Unchanged old context firstChanged) ∧
      Truthful order (some context) rest
  | last, .reset :: rest | last, .next :: rest => Truthful order last rest

/-! ## Renewing -/

/-- A scan that is thrown away whenever the context is set or started over. -/
structure Renewed where
  /-- The scan that is drawn from. -/
  scan : IndexScan
  /-- The context that was last opened or sought. -/
  place : Option Binding := none

namespace Renewed

/-- Takes a fresh scan and moves it to a context. -/
def renew (d : Dataset) (fresh : IndexScan) (context : Binding) : Reply × Renewed :=
  let (reply, scan) := fresh.perform d (.seek context 0)
  (reply, { scan, place := some context })

/-- Does one step, with a fresh scan if the step goes to the start of a context. -/
def perform (d : Dataset) (fresh : IndexScan) (r : Renewed) : Step → Reply × Renewed
  | .open => (.done, (renew d fresh ∅).2)
  | .seek context _ => renew d fresh context
  | .reset =>
    match r.place with
    | some context => renew d fresh context
    | none =>
      let (reply, scan) := r.scan.perform d .reset
      (reply, { r with scan })
  | .next =>
    let (reply, scan) := r.scan.perform d .next
    (reply, { r with scan })

/-- The replies to steps that are done in turn. -/
def replies (d : Dataset) (fresh : IndexScan) (r : Renewed) : List Step → List Reply
  | [] => []
  | step :: rest => (r.perform d fresh step).1 :: (r.perform d fresh step).2.replies d fresh rest

end Renewed

/-! ## One step -/

/-- The rows of the context that was last opened or sought. -/
def Renewed.rows (d : Dataset) (fresh : IndexScan) (r : Renewed) : List Row :=
  r.place.elim [] fun context => fresh.rowsFor d (fresh.keyFor context)

/-- A fresh scan is settled and has not been anywhere. -/
structure Fresh (d : Dataset) (s : IndexScan) : Prop where
  init : s.Initialized d
  nowhere : s.context = none
  rows : s.rows = []
  rest : s.rest = []

/-- The scan that was kept and the one that was renewed have the same rows left. -/
structure Keeps (d : Dataset) (fresh s : IndexScan) (r : Renewed) : Prop where
  blank : (Scan.index s).blank = (Scan.index fresh).blank
  rows : s.rows = r.rows d fresh
  rest : s.rest = r.scan.rest
  left : s.rest <:+ s.rows
  placed : fresh.openTerms = true → ∀ context, r.place = some context →
    (Scan.index s).At d context
  nowhere : r.place = none → s.context = none ∧ r.scan.rows = []

/-- Both reply the same to the step and keep together. -/
def Keeps.Together (d : Dataset) (fresh s : IndexScan) (r : Renewed) (step : Step) : Prop :=
  (s.perform d step).1 = (r.perform d fresh step).1 ∧
    Keeps d fresh (s.perform d step).2 (r.perform d fresh step).2

variable {d : Dataset} {fresh s : IndexScan} {r : Renewed} {order : AttributeOrder}
  {context : Binding} {firstChanged : Nat}

theorem fresh_init (d : Dataset) (pattern : BasicPattern) (incoming : AttributeOrder) :
    (({ pattern } : IndexScan).init d incoming).2.Fresh d :=
  ⟨initialized_init .., rfl, rfl, rfl⟩

theorem Fresh.renew (is : fresh.Fresh d) (context : Binding) :
    ∃ scan, Renewed.renew d fresh context =
        (.found !(fresh.rowsFor d (fresh.keyFor context)).isEmpty,
          { scan, place := some context }) ∧
      scan.rest = fresh.rowsFor d (fresh.keyFor context) := by
  obtain ⟨scan, sought, rest⟩ := seek_first is.init is.nowhere is.rest context 0
  exact ⟨scan, by simp only [Renewed.renew, perform, sought], rest⟩

namespace Keeps

theorem of_fresh (is : fresh.Fresh d) : Keeps d fresh fresh { scan := fresh } where
  blank := rfl
  rows := is.rows
  rest := rfl
  left := is.rest ▸ List.nil_suffix
  placed := nofun
  nowhere := fun _ => ⟨is.nowhere, is.rows⟩

theorem initialized (h : Keeps d fresh s r) (is : fresh.Fresh d) : s.Initialized d :=
  Scan.Sound.of_blank (s := .index fresh) is.init h.blank

/-- A scan with the rows of a context keeps together with one that was renewed there. -/
theorem at_context {scan : IndexScan} (blank : (Scan.index s).blank = (Scan.index fresh).blank)
    (rows : s.rows = fresh.rowsFor d (fresh.keyFor context)) (rest : s.rest = scan.rest)
    (left : s.rest <:+ s.rows) (stands : fresh.openTerms = true → (Scan.index s).At d context) :
    Keeps d fresh s { scan, place := some context } := by
  refine ⟨blank, rows, rest, left, ?_, fun away => absurd away (Option.some_ne_none _)⟩
  rintro possible _ ⟨⟩
  exact stands possible

theorem of_moved (h : Keeps d fresh s r) {s' scan : IndexScan}
    (moved : Scan.Moved d context (.index s) (.index s'))
    (rest : scan.rest = fresh.rowsFor d (fresh.keyFor context)) :
    Keeps d fresh s' { scan, place := some context } := by
  have blank := moved.blank.trans h.blank
  have rows : s'.rows = fresh.rowsFor d (fresh.keyFor context) :=
    (moved.stands.rows_eq moved.positioned).trans (Scan.rowsAt_of_blank blank d context)
  have all : s'.rest = fresh.rowsFor d (fresh.keyFor context) :=
    moved.rest.trans (Scan.rowsAt_of_blank h.blank d context)
  exact at_context blank rows (all.trans rest.symm) ((all.trans rows.symm) ▸ List.suffix_rfl)
    fun _ => moved.stands

theorem of_open (h : Keeps d fresh s r) (is : fresh.Fresh d) : Together d fresh s r .open := by
  obtain ⟨scan, renewed, rest⟩ := is.renew ∅
  simp only [Together, perform, open_eq (h.initialized is), Renewed.perform, renewed]
  exact ⟨trivial, h.of_moved (Scan.moved_derive s d ∅) rest⟩

/-- A scan that can be moved is moved to the context that is sought, if the hint is right. -/
theorem exists_moved (h : Keeps d fresh s r) (is : fresh.Fresh d)
    (possible : fresh.openTerms = true)
    (truthful : ∀ old, r.place = some old → (Scan.index s).Unmoved old context firstChanged) :
    ∃ s', s.seek d context firstChanged
        = .ok (!(fresh.rowsFor d (fresh.keyFor context)).isEmpty, s') ∧
      Scan.Moved d context (.index s) (.index s') := by
  have possible' : (Scan.index s).openTerms = true :=
    (Scan.openTerms_of_blank h.blank).trans possible
  obtain ⟨old, stands, unmoved⟩ : ∃ old, (Scan.index s).At d old ∧
      ((Scan.index s).Positioned → (Scan.index s).Unmoved old context firstChanged) := by
    cases place : r.place with
    | none =>
      obtain ⟨away, _⟩ := h.nowhere place
      have rows : s.rows = [] := by rw [h.rows, Renewed.rows, place]; rfl
      exact ⟨∅, .inl ⟨away, rows⟩, fun placed => absurd away placed⟩
    | some old => exact ⟨old, h.placed possible old place, fun _ => truthful old place⟩
  obtain ⟨found, sought, moved⟩ :=
    Scan.seek_spec (s := .index s) (h.initialized is) stands possible' unmoved
  rw [Scan.rowsAt_of_blank h.blank] at sought
  simp only [Scan.seek] at sought
  split at sought
  · next s' same =>
    cases sought
    exact ⟨s', same, moved⟩
  · cases sought

theorem of_seek (h : Keeps d fresh s r) (is : fresh.Fresh d)
    (truthful : ∀ old, r.place = some old → (Scan.index s).Unmoved old context firstChanged) :
    Together d fresh s r (.seek context firstChanged) := by
  obtain ⟨scan, renewed, rest⟩ := is.renew context
  simp only [Together, perform, Renewed.perform, renewed]
  by_cases possible : fresh.openTerms = true
  · obtain ⟨s', sought, moved⟩ := h.exists_moved is possible truthful
    simp only [sought]
    exact ⟨trivial, h.of_moved moved rest⟩
  · -- The terms cannot be met, so that there are no rows anywhere and the scan stays where it is.
    have impossible : fresh.openTerms = false := by simpa using possible
    have none := rowsFor_eq_nil (d := d) impossible
    have impossible' : s.openTerms = false := (Scan.openTerms_of_blank h.blank).trans impossible
    have rows : s.rows = [] := by
      rw [h.rows, Renewed.rows]
      cases r.place with
      | none => rfl
      | some old => exact none _
    have left : s.rest = [] := List.suffix_nil.1 (rows ▸ h.left)
    have sought : s.seek d context firstChanged = .ok (false, s) := by
      simp [seek, (h.initialized is).initialized, impossible']
    simp only [sought, none]
    exact ⟨rfl, at_context h.blank (rows.trans (none _).symm)
      (left.trans (rest.trans (none _)).symm) h.left fun some => absurd some possible⟩

theorem of_reset (h : Keeps d fresh s r) (is : fresh.Fresh d) : Together d fresh s r .reset := by
  cases place : r.place with
  | none =>
    obtain ⟨away, none⟩ := h.nowhere place
    have rows : s.rows = [] := by rw [h.rows, Renewed.rows, place]; rfl
    simp only [Together, perform, Renewed.perform, place]
    refine ⟨by simp [reset, rows, none], h.blank, ?_, rows.trans none.symm, List.suffix_rfl, nofun,
      fun _ => ⟨away, none⟩⟩
    exact rows
  | some context =>
    obtain ⟨scan, renewed, rest⟩ := is.renew context
    have rows : s.rows = fresh.rowsFor d (fresh.keyFor context) := by
      rw [h.rows, Renewed.rows, place]
      rfl
    simp only [Together, perform, Renewed.perform, place, renewed]
    exact ⟨by rw [reset, rows], at_context h.blank rows (rows.trans rest.symm) List.suffix_rfl
      fun possible => h.placed possible context place⟩

theorem of_next (h : Keeps d fresh s r) : Together d fresh s r .next := by
  have same := h.rest
  cases rest : s.rest with
  | nil =>
    rw [rest] at same
    simp only [Together, perform, Renewed.perform, next?, rest, ← same]
    exact ⟨rfl, h⟩
  | cons row others =>
    rw [rest] at same
    simp only [Together, perform, Renewed.perform, next?, rest, ← same]
    exact ⟨rfl, h.blank, h.rows, rfl, (List.suffix_cons row others).trans (rest ▸ h.left),
      h.placed, h.nowhere⟩

/-! ## All steps -/

/-- One step keeps the two together, and the hints after it are as good as before. -/
theorem together (h : Keeps d fresh s r) (is : fresh.Fresh d)
    (heeds : (Scan.index fresh).Heeds order) {step : Step} {rest : List Step}
    (truthful : Truthful order r.place (step :: rest)) :
    Together d fresh s r step ∧ Truthful order (r.perform d fresh step).2.place rest := by
  cases step with
  | «open» => exact ⟨h.of_open is, truthful⟩
  | seek context firstChanged =>
    refine ⟨h.of_seek is fun old place => ?_, truthful.2⟩
    exact (heeds old context firstChanged (truthful.1 old place)).of_blank h.blank
  | reset =>
    refine ⟨h.of_reset is, ?_⟩
    simp only [Renewed.perform]
    split
    · next context place => exact (place ▸ truthful : Truthful order (some context) rest)
    · exact truthful
  | next => exact ⟨h.of_next, truthful⟩

theorem replies_eq (h : Keeps d fresh s r) (is : fresh.Fresh d)
    (heeds : (Scan.index fresh).Heeds order) (steps : List Step)
    (truthful : Truthful order r.place steps) :
    s.replies d steps = r.replies d fresh steps := by
  induction steps generalizing s r with
  | nil => rfl
  | cons step rest ih =>
    obtain ⟨⟨reply, keeps⟩, truthful'⟩ := h.together is heeds truthful
    rw [replies, Renewed.replies, reply, ih keeps truthful']

end Keeps

/-- The steps of a settled scan come to what they come to where a fresh scan is moved to every
context. -/
theorem replies_eq_renewed (d : Dataset) (pattern : BasicPattern) (incoming : AttributeOrder)
    (steps : List Step) (truthful : Truthful incoming none steps) :
    (({ pattern } : IndexScan).init d incoming).2.replies d steps
      = Renewed.replies d (({ pattern } : IndexScan).init d incoming).2
          { scan := (({ pattern } : IndexScan).init d incoming).2 } steps :=
  have is := fresh_init d pattern incoming
  (Keeps.of_fresh is).replies_eq is (Scan.heeds_init (.index { pattern }) d incoming) steps truthful

/-- A hint that nothing changed, a context without the variable, and a scan left half-way. -/
theorem replies_eq_renewed_half_way :
    let d := (Dataset.empty.addAll [⟨.iri "a", .iri "p", .iri "b", none⟩,
      ⟨.iri "a", .iri "p", .iri "c", none⟩, ⟨.iri "b", .iri "p", .iri "c", none⟩]).2
    let pattern : BasicPattern := ⟨[.triple (.var ⟨"s"⟩) (.term (.iri "p")) (.var ⟨"o"⟩)]⟩
    let context := Binding.ofRow [⟨"s"⟩] [1]
    let steps := [.reset, .seek context 7, .next, .seek context 1, .next, .reset, .next, .next,
      .next, .open, .next, .seek (.ofRow [⟨"x"⟩] [3]) 1, .next]
    (({ pattern } : IndexScan).init d ⟨[⟨"s"⟩]⟩).2.replies d steps = [.found false, .found true,
      .row (some [1, 3]), .found true, .row (some [1, 3]), .found true, .row (some [1, 3]),
      .row (some [1, 4]), .row none, .done, .row (some [1, 3]), .found true,
      .row (some [1, 3])] := by
  intro d pattern context steps
  have truthful : Truthful ⟨[⟨"s"⟩]⟩ none steps := by
    refine ⟨nofun, ?_, ?_, trivial⟩
    · rintro _ ⟨⟩ p _ v _
      rfl
    · rintro _ ⟨⟩ p before v here
      obtain rfl : p = 0 := Nat.lt_one_iff.1 before
      cases here
      rfl
  refine (replies_eq_renewed d pattern ⟨[⟨"s"⟩]⟩ steps truthful).trans ?_
  decide +kernel

end IndexScan

end QuadQuery
