import Mathlib
import ReactiveView.Proofs.Layout.SetUp

/-!
This module contains the edits of a probe. Each edit adds its own term to what is minimised and
nothing else, and withdrawing the edits, the latest first, restores the lists of the system from
whatever basis they have led to.
-/

namespace ReactiveView

namespace Solver

/-- The system `t` is a system `s` with one more variable edited. -/
structure Editing (s : Solver ℚ) (x : Variable) (strength : Strength ℚ) (v : ℚ) (t : Solver ℚ) :
    Prop where
  consistent : t.Consistent
  pinned : t.Pinned
  clean : t.dirty = false
  erase_edits : t.edits.erase x = s.edits
  exists_edit : ∃ edit lv, t.edits.get? x = some edit ∧ edit.target = v ∧
    t.live.get? edit.handle = some lv ∧ lv.constraint = s.editConstraint x strength ∧
    t.live.erase edit.handle = s.live

variable {s t u : Solver ℚ} {x y : Variable} {strength : Strength ℚ} {v : ℚ} {e : SolverError}
variable {values : Variable → ℚ} {edit : Edit ℚ} {r : Except SolverError Unit}
variable {wishes rest : List (Variable × ℚ)}

/-! ### One edit -/

theorem AddsEdit.lists (h : AddsEdit s x strength (.ok ()) t) : ∃ tag,
    s.live.get? (.edit s.nextId) = none ∧
    t.live = s.live.insert (.edit s.nextId) ⟨s.editConstraint x strength, tag⟩ ∧
    t.edits = s.edits.insert x { handle := .edit s.nextId, tag, target := 0 } := by
  cases h with
  | @added u tag hnone hsoft hadds hlv =>
    obtain ⟨hedits, -, -, hfree, -, tag', -, hlive⟩ := hadds.lists ordinary_ok
    have htag : tag' = tag := by
      rw [hlive, Table.get?_insert_self] at hlv
      cases hlv
      rfl
    refine ⟨tag, hfree, ?_, ?_⟩
    · rw [← htag]
      exact hlive
    · rw [← hedits]

theorem Consistent.suggest_lists (hs : s.Consistent)
    (h : s.perform (Solver.suggest x v) = (.ok (), t)) : ∃ edit, s.edits.get? x = some edit ∧
      t.edits = s.edits.insert x { edit with target := v } ∧ t.live = s.live ∧
      t.dirty = false := by
  cases hs.performs_suggest h with
  | @mends u t edit r hsolves hedit hend =>
    cases hend with
    | mended hsteps =>
      obtain ⟨hu, hclean, -⟩ := hs.solves hsolves
      have hret := hu.retargets hedit v
      have hnames := hsolves.sameNames
      refine ⟨edit, hnames.edits ▸ hedit, ?_, ?_, ?_⟩
      · rw [← hnames.edits]
        exact hsteps.sameFrame.edits.trans hret.frame.edits
      · rw [← hnames.live]
        exact hsteps.sameFrame.live.trans hret.frame.live
      · exact (hsteps.sameFrame.dirty.trans hret.frame.dirty).trans hclean

/-- The system between the two operations of an edit. -/
structure Enables (s : Solver ℚ) (x : Variable) (strength : Strength ℚ) (t : Solver ℚ) : Prop where
  consistent : t.Consistent
  pinned : t.Pinned
  lists : ∃ tag, s.live.get? (.edit s.nextId) = none ∧
    t.live = s.live.insert (.edit s.nextId) ⟨s.editConstraint x strength, tag⟩ ∧
    t.edits = s.edits.insert x { handle := .edit s.nextId, tag, target := 0 }

theorem Consistent.enables (hs : s.Consistent) (hp : s.Pinned)
    (h : s.perform (Solver.addEdit x strength) = (.ok (), t)) : s.Enables x strength t := by
  have hadds := hs.performs_addEdit h
  exact ⟨hs.addsEdit hadds ordinary_ok, hadds.pinned ordinary_ok hp, hadds.lists⟩

theorem Enables.editing (h : s.Enables x strength u) (hnone : s.edits.get? x = none)
    (hsuggest : u.perform (suggest x v) = (.ok (), t)) : s.Editing x strength v t := by
  have hu := h.consistent
  obtain ⟨tag, hfree, hlive, hedits⟩ := h.lists
  obtain ⟨edit, hedit, hedits', hlive', hclean⟩ := hu.suggest_lists hsuggest
  have hnew : edit = { handle := .edit s.nextId, tag, target := 0 } := by
    rw [hedits, Table.get?_insert_self] at hedit
    cases hedit
    rfl
  subst hnew
  refine ⟨hu.suggest hsuggest ordinary_ok, hu.pinned_suggest hsuggest ordinary_ok h.pinned, hclean,
    ?_, ?_⟩
  · rw [hedits', Table.erase_insert_self, hedits, Table.erase_insert _ hnone]
  · refine ⟨{ handle := .edit s.nextId, tag, target := v }, ⟨s.editConstraint x strength, tag⟩, ?_,
      rfl, ?_, rfl, ?_⟩
    · rw [hedits']
      exact Table.get?_insert_self _ _ _
    · rw [hlive', hlive]
      exact Table.get?_insert_self _ _ _
    · rw [hlive', hlive]
      exact Table.erase_insert _ hfree

theorem penalty_editConstraint {lv : Live ℚ} (hsoft : strength.clipped.isRequired = false)
    (hlv : lv.constraint = s.editConstraint x strength) :
    lv.penalty values v = strength.clipped.value * |values x - v| := by
  unfold Live.penalty Live.gap
  rw [hlv, if_neg (editConstraint_not_isRequired hsoft)]
  simp [editConstraint, Constraint.make]

section Editing

variable (h : s.Editing x strength v t)
include h

theorem Editing.get?_edits (hne : y ≠ x) : t.edits.get? y = s.edits.get? y := by
  rw [← h.erase_edits, Table.get?_erase_ne _ hne]

theorem Editing.penalty_eq (hs : s.Consistent) (hsoft : strength.clipped.isRequired = false) :
    t.penalty t.targetOf values
      = s.penalty s.targetOf values + strength.clipped.value * |values x - v| := by
  obtain ⟨edit, lv, hedit, rfl, hlv, hconstraint, hlive⟩ := h.exists_edit
  have ht := h.consistent
  have hold : ∀ key, key ≠ edit.handle → s.targetOf key = t.targetOf key := fun key hkey =>
    ht.edited.targetOf_erase hedit hs.edited h.erase_edits.symm hkey
  -- The other constraints keep their targets, and what is left is the term of the edit.
  have hrest : ∀ entry ∈ s.live.entries,
      entry.2.penalty values (t.targetOf entry.1) = entry.2.penalty values (s.targetOf entry.1) := by
    rintro ⟨key, lv'⟩ hmem
    rw [hold key]
    rintro rfl
    rw [← hlive] at hmem
    have hget := (ht.valid.sound.models.tagged.ascending.erase _).mem_entries_iff.1 hmem
    rw [Table.get?_erase_self] at hget
    cases hget
  unfold penalty
  rw [ht.valid.sound.models.tagged.ascending.sum_erase hlv fun entry =>
      entry.2.penalty values (t.targetOf entry.1), hlive, List.map_congr_left hrest,
    ht.edited.targetOf hedit, penalty_editConstraint hsoft hconstraint]
  ring

theorem Editing.isMet_iff (hsoft : strength.clipped.isRequired = false) :
    t.IsMet values ↔ s.IsMet values := by
  obtain ⟨edit, lv, -, -, hlv, hconstraint, hlive⟩ := h.exists_edit
  constructor
  · intro hmet key lv' hlv'
    rw [← hlive] at hlv'
    exact hmet key lv' (Table.of_get?_erase hlv').2
  · intro hmet key lv' hlv' hreq
    by_cases hkey : key = edit.handle
    · rw [hkey, hlv] at hlv'
      cases hlv'
      rw [hconstraint] at hreq
      exact absurd hreq (editConstraint_not_isRequired hsoft)
    · apply hmet key lv' _ hreq
      rw [← hlive, Table.get?_erase_ne _ hkey]
      exact hlv'

theorem Editing.weighted (hw : s.Weighted) : t.Weighted := by
  obtain ⟨edit, lv, -, -, hlv, hconstraint, hlive⟩ := h.exists_edit
  intro key lv' hlv'
  by_cases hkey : key = edit.handle
  · rw [hkey, hlv] at hlv'
    cases hlv'
    rw [hconstraint]
    exact Strength.clipped_nonneg _
  · apply hw key lv'
    rw [← hlive, Table.get?_erase_ne _ hkey]
    exact hlv'

end Editing

section Errors

variable (hs : s.Consistent) (hp : s.Pinned) (hw : s.Weighted) (hmet : s.IsMet values)
include hs hp hw hmet

theorem Consistent.addEdit_error (hnone : s.edits.get? x = none)
    (hsoft : strength.clipped.isRequired = false)
    (h : s.perform (Solver.addEdit x strength) = (.error e, t)) : e = .pivotLimit := by
  cases hs.performs_addEdit h with
  | duplicate hedit => exact absurd hnone hedit
  | required _ hrequired =>
    rw [hsoft] at hrequired
    cases hrequired
  | refused _ _ hadds =>
    rcases hadds.of_error hs.valid.sound hp hw (Strength.clipped_nonneg _)
        (fun hfree => hs.edited.targetOf_of_not_live hfree) hmet
        (fun hreq => absurd hreq (editConstraint_not_isRequired hsoft)) with hlimit | hlive
    · exact hlimit
    · obtain ⟨lv, hlv⟩ := Option.ne_none_iff_exists'.1 hlive
      exact absurd (hs.edited.known _ lv hlv) (lt_irrefl _)

omit hs hp in
theorem Enables.suggest_error (hsoft : strength.clipped.isRequired = false)
    (h : s.Enables x strength u) (hsuggest : u.perform (suggest x v) = (.error e, t)) :
    e = .pivotLimit := by
  obtain ⟨tag, hfree, hlive, hedits⟩ := h.lists
  have hmet' : u.IsMet values := by
    intro key lv hlv hreq
    rw [hlive] at hlv
    rcases Table.of_get?_insert hlv with ⟨-, rfl⟩ | hlv
    · exact absurd hreq (editConstraint_not_isRequired hsoft)
    · exact hmet key lv hlv hreq
  have herror := (h.consistent.performs_suggest hsuggest).of_error h.consistent
    (hw.insert hlive (Strength.clipped_nonneg _)) hmet'
  rcases herror with hlimit | hnone
  · exact hlimit
  · rw [hedits, Table.get?_insert_self] at hnone
    cases hnone

end Errors

/-- The withdrawal of one edit. -/
theorem Consistent.withdraws (hs : s.Consistent) (hw : s.Weighted)
    (hedit : s.edits.get? x = some edit) (h : s.perform (Solver.removeEdit x) = (r, t)) :
    (r = .ok () ∧ t.live = s.live.erase edit.handle ∧ t.edits = s.edits.erase x) ∨
      r = .error .pivotLimit := by
  obtain ⟨lv, hlv, -⟩ := hs.edited.live x edit hedit
  have hremoves := hs.removes_of_removeEdit hedit h
  cases r with
  | ok =>
    obtain ⟨hedits, -, -, ⟨-, hunknown, -⟩ | ⟨-, hlive, -⟩⟩ := hremoves.lists
    · cases hunknown
    · exact .inl ⟨rfl, hlive, hedits⟩
  | error e =>
    rcases hremoves.of_error hs.valid.sound.congr_edits hw with rfl | hnone
    · exact .inr rfl
    · exact absurd (hlv.symm.trans hnone) (by simp)

/-! ### Edits on top of each other -/

/-- The system after edits on top of a system, the latest first. -/
inductive Stacked (base : Solver ℚ) (strength : Strength ℚ) : List (Variable × ℚ) → Solver ℚ → Prop
  | base : Stacked base strength [] base
  | edit {wishes : List (Variable × ℚ)} {s t : Solver ℚ} {x : Variable} {v : ℚ}
      (hstacked : Stacked base strength wishes s) (hediting : s.Editing x strength v t) :
      Stacked base strength ((x, v) :: wishes) t

/-- What edits add to what is minimised. -/
def wishCost (strength : Strength ℚ) (wishes : List (Variable × ℚ)) (values : Variable → ℚ) : ℚ :=
  (wishes.map fun wish => strength.value * |values wish.1 - wish.2|).sum

section Stacked

variable {base : Solver ℚ} (h : Stacked base strength wishes s)
include h

theorem Stacked.consistent (hbase : base.Consistent) : s.Consistent := by
  cases h with
  | base => exact hbase
  | edit _ hediting => exact hediting.consistent

theorem Stacked.pinned (hbase : base.Pinned) : s.Pinned := by
  cases h with
  | base => exact hbase
  | edit _ hediting => exact hediting.pinned

theorem Stacked.weighted (hbase : base.Weighted) : s.Weighted := by
  induction h with
  | base => exact hbase
  | edit _ hediting ih => exact hediting.weighted ih

theorem Stacked.isMet_iff (hsoft : strength.clipped.isRequired = false) :
    s.IsMet values ↔ base.IsMet values := by
  induction h with
  | base => rfl
  | edit _ hediting ih => rw [hediting.isMet_iff hsoft, ih]

theorem Stacked.penalty_eq (hbase : base.Consistent)
    (hsoft : strength.clipped.isRequired = false) :
    s.penalty s.targetOf values
      = base.penalty base.targetOf values + wishCost strength.clipped wishes values := by
  unfold wishCost
  induction h with
  | base => simp
  | edit hstacked hediting ih =>
    rw [hediting.penalty_eq (hstacked.consistent hbase) hsoft, ih, List.map_cons, List.sum_cons]
    ring

/-- Under edits no values of the variables that meet the requirements come out better than those of
the system. -/
theorem Stacked.value_le (hbase : base.Consistent) (hw : base.Weighted)
    (hsoft : strength.clipped.isRequired = false) (hwishes : wishes ≠ [])
    (hmet : base.IsMet values) :
    base.penalty base.targetOf s.value + wishCost strength.clipped wishes s.value
      ≤ base.penalty base.targetOf values + wishCost strength.clipped wishes values := by
  have hclean : s.dirty = false := by
    cases h with
    | base => exact absurd rfl hwishes
    | edit _ hediting => exact hediting.clean
  have hs := h.consistent hbase
  have hle := hs.valid.sound.penalty_value_le (hs.valid.settled hclean) (h.weighted hw)
    ((h.isMet_iff hsoft).2 hmet)
  rwa [h.penalty_eq hbase hsoft, h.penalty_eq hbase hsoft] at hle

/-- Withdrawing all edits, the latest first, restores the lists. -/
theorem Stacked.withdraws (hs : t.Consistent) (hp : t.Pinned) (hw : t.Weighted)
    (hlive : t.live = s.live) (hedits : t.edits = s.edits)
    (hperform : t.perform ((wishes.map Prod.fst).forM Solver.removeEdit) = (r, u)) :
    (r = .ok () ∧ u.Consistent ∧ u.Pinned ∧ u.live = base.live ∧ u.edits = base.edits) ∨
      r = .error .pivotLimit := by
  -- The basis of `t` is arbitrary: only the lists are those that the edits have led to.
  induction h generalizing t with
  | base =>
    cases hperform
    exact .inl ⟨rfl, hs, hp, hlive, hedits⟩
  | @edit wishes s s' x v hstacked hediting ih =>
    have hcons : ((((x, v) :: wishes).map Prod.fst).forM Solver.removeEdit : Solving ℚ Unit)
        = Solver.removeEdit x >>= fun _ => (wishes.map Prod.fst).forM Solver.removeEdit := rfl
    obtain ⟨edit, lv, hedit, -, -, -, herase⟩ := hediting.exists_edit
    rw [← hedits] at hedit
    rw [hcons, perform_bind] at hperform
    rcases hremove : t.perform (Solver.removeEdit x) with ⟨r', w⟩
    rw [hremove] at hperform
    rcases hs.withdraws hw hedit hremove with ⟨rfl, hlive', hedits'⟩ | rfl
    · refine ih (hs.removeEdit hremove ordinary_ok) (hs.pinned_removeEdit hremove hp)
        (hw.erase hlive') ?_ ?_ hperform
      · rw [hlive', hlive, herase]
      · rw [hedits', hedits, hediting.erase_edits]
    · cases hperform
      exact .inr rfl

end Stacked

/-- Editing variables one after the other stacks the edits, or ends at the limit of a loop. -/
theorem Stacked.editAll {base : Solver ℚ} (hbase : base.Consistent) (hp : base.Pinned)
    (hw : base.Weighted) (hmet : base.IsMet values) (hsoft : strength.clipped.isRequired = false)
    (h : Stacked base strength wishes s) (hfresh : ∀ wish ∈ rest, s.edits.get? wish.1 = none)
    (hnodup : (rest.map Prod.fst).Nodup) {added : List Variable}
    (heq : Layout.editAll strength rest (wishes.map Prod.fst) s = (r, added, t)) :
    (r = .ok () ∧ Stacked base strength (rest.reverse ++ wishes) t ∧
      added = (rest.reverse ++ wishes).map Prod.fst) ∨ r = .error .pivotLimit := by
  induction rest generalizing s wishes with
  | nil =>
    cases heq
    exact .inl ⟨rfl, h, rfl⟩
  | cons wish rest ih =>
    obtain ⟨x, v⟩ := wish
    have hs := h.consistent hbase
    have hnone := hfresh (x, v) List.mem_cons_self
    have hw' := h.weighted hw
    have hmet' := (h.isMet_iff hsoft).2 hmet
    rw [Layout.editAll] at heq
    rcases hadd : s.perform (Solver.addEdit x strength) with ⟨e | _, u⟩
    · rw [hadd] at heq
      cases heq
      rw [hs.addEdit_error (h.pinned hp) hw' hmet' hnone hsoft hadd]
      exact .inr rfl
    · have henables := hs.enables (h.pinned hp) hadd
      rw [hadd] at heq
      dsimp only at heq
      rcases hsuggest : u.perform (Solver.suggest x v) with ⟨e | _, w⟩
      · rw [hsuggest] at heq
        cases heq
        rw [henables.suggest_error hw' hmet' hsoft hsuggest]
        exact .inr rfl
      · have hediting := henables.editing hnone hsuggest
        rw [hsuggest] at heq
        rw [List.map_cons, List.nodup_cons] at hnodup
        rw [List.reverse_cons, List.append_assoc]
        refine ih (h.edit hediting) ?_ hnodup.2 heq
        intro wish hmem
        rw [hediting.get?_edits]
        · exact hfresh wish (List.mem_cons_of_mem _ hmem)
        · rintro rfl
          exact hnodup.1 (List.mem_map.2 ⟨wish, hmem, rfl⟩)

end Solver

namespace Layout

open Solver

variable {l : Layout ℚ} {cs : List (Constraint ℚ)} {live : Table Handle (Live ℚ)}
variable {wishes : List (Variable × ℚ)} {strength : Strength ℚ}

/-- What edits of a width and a height add to what is minimised. -/
def sizeCost (strength : Strength ℚ) (width height : Variable) (size : Size ℚ)
    (values : Variable → ℚ) : ℚ :=
  strength.value * |values width - size.width| + strength.value * |values height - size.height|

/-- Whether values meet the requirements of a list, and no others that do come out better with
regard to a size. -/
def IsBest (cs : List (Constraint ℚ)) (strength : Strength ℚ) (width height : Variable)
    (size : Size ℚ) (values : Variable → ℚ) : Prop :=
  Constraint.AllMet cs values ∧ ∀ values', Constraint.AllMet cs values' →
    Constraint.totalPenalty cs values + sizeCost strength width height size values
      ≤ Constraint.totalPenalty cs values' + sizeCost strength width height size values'

/-- Whether a layout has the constraints of a list, under given symbols, and no edit variables. -/
def Keeps (l : Layout ℚ) (cs : List (Constraint ℚ)) (live : Table Handle (Live ℚ)) : Prop :=
  ∃ s, l.solver = some s ∧ s.Loaded cs ∧ s.live = live

/-- A solution under edits of a width and a height is best, and leaves the lists alone. -/
theorem Keeps.solveWith {width height : Variable} {operation : String} (h : l.Keeps cs live)
    (size : Size ℚ) (hstrengths : ∀ c ∈ cs, 0 ≤ c.strength.value) (hne : width ≠ height)
    (hsoft : strength.clipped.isRequired = false) {r : Except LayoutError (Solution ℚ)}
    {l' : Layout ℚ} (hsolve : l.solveWith operation [(width, size.width), (height, size.height)]
      strength = (r, l')) (hends : r ≠ .error (.solver .pivotLimit)) :
    ∃ sol, r = .ok sol ∧ IsBest cs strength.clipped width height size sol.value ∧
      l'.Keeps cs live := by
  obtain ⟨s, hsolver, hs, hlive⟩ := h
  have hw := hs.lists.weighted hs.ascending hstrengths
  have hmet := hs.consistent.valid.sound.isMet hs.pinned
  rcases hedit : editAll strength [(width, size.width), (height, size.height)] [] s
    with ⟨outcome, added, t⟩
  rcases hcleanup : t.perform (added.forM Solver.removeEdit) with ⟨cleanup, u⟩
  unfold Layout.solveWith at hsolve
  rw [hsolver] at hsolve
  dsimp only at hsolve
  rw [hedit] at hsolve
  dsimp only at hsolve
  rw [hcleanup] at hsolve
  dsimp only at hsolve
  have hfresh : ∀ wish ∈ [(width, size.width), (height, size.height)],
      s.edits.get? wish.1 = none := by
    intro wish _
    rw [hs.edits]
    rfl
  rcases Stacked.base.editAll hs.consistent hs.pinned hw hmet hsoft hfresh (by simp [hne]) hedit
    with ⟨rfl, hstacked, rfl⟩ | rfl
  · have ht := hstacked.consistent hs.consistent
    have hpinned := hstacked.pinned hs.pinned
    rcases hstacked.withdraws ht hpinned (hstacked.weighted hw) rfl rfl hcleanup
      with ⟨rfl, hu, hup, hulive, huedits⟩ | rfl
    · cases hsolve
      have hvalue : t.solution.value = t.value := funext (value_solution t)
      refine ⟨t.solution, rfl, ⟨?_, ?_⟩, u, rfl,
        ⟨hu, hup, huedits.trans hs.edits, hs.lists.congr hulive⟩, hulive.trans hlive⟩
      · rw [hvalue, ← hs.lists.isMet_iff hs.ascending, ← hstacked.isMet_iff hsoft]
        exact ht.valid.sound.isMet hpinned
      · intro values' hmet'
        rw [← hs.lists.isMet_iff hs.ascending] at hmet'
        have hle := hstacked.value_le hs.consistent hw hsoft (by simp) hmet'
        rw [hs.lists.penalty_eq _ hs.targetOf_eq, hs.lists.penalty_eq _ hs.targetOf_eq] at hle
        rw [hvalue]
        unfold wishCost at hle
        unfold sizeCost
        simp only [List.reverse_cons, List.reverse_nil, List.nil_append, List.cons_append,
          List.append_nil, List.map_cons, List.map_nil, List.sum_cons, List.sum_nil] at hle
        linarith
    · cases hsolve
      exact absurd rfl hends
  · cases hsolve
    exact absurd rfl hends

end Layout

end ReactiveView
