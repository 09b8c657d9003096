import Mathlib
import ReactiveView.Proofs.Simplex.Adding

/-!
This module contains what all operations on a system keep: the tableau represents the live
constraints, its rows keep to their sorts of symbols, and its corner is not negative.
-/

namespace ReactiveView

namespace Solver

/-- The tableau represents the constraints, and its corner keeps the signs. -/
structure Sound (s : Solver ℚ) (target : Handle → ℚ) : Prop where
  models : s.Models target
  closed : s.Closed
  nonneg : s.Nonneg
  notes : s.Notes

/-- A sound tableau, at its least cost unless minimisation is due. -/
structure Valid (s : Solver ℚ) (target : Handle → ℚ) : Prop where
  sound : s.Sound target
  settled : s.dirty = false → s.Optimal

/-- Whether an answer is one that a user has to expect. -/
def Ordinary (r : Except SolverError Unit) : Prop :=
  ∀ e, r = .error e → e.isInternal = false

variable {s t u : Solver ℚ} {row : Row ℚ} {target : Handle → ℚ} {key : Handle} {lv : Live ℚ}
variable {c : Constraint ℚ} {tag : Tag} {r : Except SolverError Unit} {value : Symbol → ℚ}

theorem ordinary_ok : Ordinary (.ok ()) := by
  intro e he
  cases he

theorem Ordinary.not_isInternal {e : SolverError} (h : Ordinary (.error e)) :
    ¬e.isInternal = true := by
  rw [h e rfl]
  exact Bool.false_ne_true

/-- What fails in no other way than by a breakdown has not failed. -/
theorem Ordinary.eq_ok (h : Ordinary r) (hr : ∀ e, r = .error e → e.isInternal = true) :
    r = .ok () := by
  cases r with
  | ok => rfl
  | error e => exact absurd (hr e rfl) h.not_isInternal

/-! ### Minimisation -/

theorem PrimalSteps.sound (h : PrimalSteps .main s t) (hs : s.Sound target) : t.Sound target where
  models := hs.models.congr h.sameFrame.live h.sameFrame.vars h.sameFrame.nextId.ge
    (h.solved hs.models.solved) (h.idle hs.models.solved hs.models.idle)
    (fun value => h.satisfies_iff hs.models.solved value)
    fun _ hsat => h.eval_objective hs.models.solved hsat
  closed := h.closed hs.models.solved hs.closed
  nonneg := h.nonneg hs.models.solved hs.nonneg
  notes := h.notes hs.models.solved hs.notes

theorem Sound.congr (hs : s.Sound target) (hlive : t.live = s.live) (hvars : t.vars = s.vars)
    (hrows : t.rows = s.rows) (hobj : t.objective = s.objective)
    (hart : t.artificial = s.artificial) (hid : s.nextId ≤ t.nextId)
    (hinfeasible : t.infeasible = s.infeasible) : t.Sound target where
  models := by
    apply hs.models.congr hlive hvars hid (hs.models.solved.congr hrows hobj hart hid)
      (hart.trans hs.models.idle)
    · intro value
      exact ⟨fun hsat => hsat.congr hrows.symm, fun hsat => hsat.congr hrows⟩
    · intro value _
      rw [hobj]
  closed := hs.closed.congr hrows hobj hart
  nonneg := hs.nonneg.congr hrows
  notes := by
    unfold Notes
    rw [hinfeasible]
    exact hs.notes

theorem Sound.congr_dirty (hs : s.Sound target) {dirty : Bool} :
    Sound { s with dirty := dirty } target :=
  hs.congr rfl rfl rfl rfl rfl le_rfl rfl

theorem PrimalEnd.optimal (h : PrimalEnd .main t (.ok ())) (ht : t.Solved) : t.Optimal := by
  cases h with
  | least hleast =>
    intro x hx
    exact entering?_eq_none (ht.normal _ .objective) hleast hx

theorem PrimalEnd.isInternal {goal : Goal} {e : SolverError} (h : PrimalEnd goal t (.error e)) :
    e.isInternal = true := by
  cases h with
  | limit => rfl
  | unbounded => rfl

/-- What minimisation leaves alone. -/
structure SameNames (s t : Solver ℚ) : Prop where
  live : t.live = s.live
  vars : t.vars = s.vars
  edits : t.edits = s.edits
  nextId : t.nextId = s.nextId
  autoSolve : t.autoSolve = s.autoSolve

theorem SameFrame.sameNames (h : s.SameFrame t) : s.SameNames t :=
  ⟨h.live, h.vars, h.edits, h.nextId, h.autoSolve⟩

section Follows

variable (h : Follows s r t)
include h

theorem Follows.sameNames : s.SameNames t := by
  cases h with
  | minimised _ hsteps => exact hsteps.sameFrame.sameNames
  | due => exact ⟨rfl, rfl, rfl, rfl, rfl⟩

theorem Follows.sound (hs : s.Sound target) : t.Sound target := by
  cases h with
  | minimised _ hsteps => exact hsteps.sound hs
  | due => exact hs.congr_dirty

theorem Follows.settled (hs : s.Solved) (hr : r = .ok ()) (hclean : t.dirty = false) :
    t.Optimal := by
  cases h with
  | minimised _ hsteps hend =>
    subst hr
    exact hend.optimal (hsteps.solved hs)
  | due => cases hclean

theorem Follows.pinned (hs : s.Solved) (hp : s.Pinned) : t.Pinned := by
  cases h with
  | minimised _ hsteps => exact hsteps.pinned hs hp
  | due => exact hp.congr rfl

theorem Follows.dirty (hauto : s.autoSolve = false) : t.dirty = true := by
  cases h with
  | minimised hauto' =>
    rw [hauto] at hauto'
    cases hauto'
  | due => rfl

/-- Minimisation fails only where the loop does. -/
theorem Follows.isInternal {e : SolverError} (hr : r = .error e) : e.isInternal = true := by
  cases h with
  | minimised _ _ hend =>
    subst hr
    exact hend.isInternal
  | due => cases hr

end Follows

/-! ### Additions -/

theorem Models.enlist (hm : s.Models target) (hchart : s.Charted c row tag u)
    (hjoins : u.Joins row t) (hnone : s.live.get? key = none) (htarget : target key = 0) :
    (t.enlist key ⟨c, tag⟩).Models target := by
  have hs := hm.solved
  have hlive := live_enlist (hjoins.live.trans hchart.grown.live) key ⟨c, tag⟩
  have hvars : ∀ x y, s.vars.get? x = some y → (t.enlist key ⟨c, tag⟩).vars.get? x = some y := by
    intro x y hy
    show t.vars.get? x = some y
    rw [hjoins.vars]
    exact hchart.grown.vars x y hy
  have hid : s.nextId ≤ (t.enlist key ⟨c, tag⟩).nextId := hchart.grown.nextId.trans hjoins.nextId
  have hread : ∀ value, (t.enlist key ⟨c, tag⟩).reading value = u.reading value :=
    fun value => reading_of_vars hjoins.vars value
  have htagged : (t.enlist key ⟨c, tag⟩).Tagged := by
    refine hm.tagged.insert hlive hvars hchart.fits hchart.distinct ?_ ?_ hid ?_
    · intro x hx
      exact (hchart.fresh x hx).1
    · intro x hx
      exact (hchart.fresh x hx).2.trans_le hjoins.nextId
    · intro v hv hc
      obtain ⟨y, hy⟩ := hchart.covered v hv hc
      refine ⟨y, ?_⟩
      show t.vars.get? _ = some y
      rw [hjoins.vars]
      exact hy
  refine ⟨hjoins.solved.congr rfl rfl rfl le_rfl, hjoins.idle,
    hchart.registered.congr hjoins.vars hjoins.nextId, htagged, ?_, ?_⟩
  · intro value
    rw [hm.tagged.balances_insert_iff hnone hlive hvars, htarget, hread, ← hm.satisfies_iff]
    have hsat : (t.enlist key ⟨c, tag⟩).Satisfies value ↔ t.Satisfies value := Iff.rfl
    rw [hsat, hjoins.satisfies_iff, hchart.grown.satisfies_iff]
    exact and_congr_right fun hv => hchart.eval_eq_zero_iff hv
  · obtain ⟨k, hk⟩ := hm.objective
    refine ⟨k, ?_⟩
    intro value hsat
    have hsat' : s.Satisfies value :=
      hchart.grown.satisfies_iff.1 ((hjoins.satisfies_iff value).1 hsat).1
    show t.objective.eval value = _
    rw [hjoins.objective value hsat, hchart.eval_objective hs, hk value hsat',
      hm.tagged.cost_insert hnone hlive]
    ring

theorem Sound.enlist (hs : s.Sound target) (hchart : s.Charted c row tag u)
    (hjoins : u.Joins row t) (hnone : s.live.get? key = none) (htarget : target key = 0) :
    (t.enlist key ⟨c, tag⟩).Sound target where
  models := hs.models.enlist hchart hjoins hnone htarget
  closed := (hjoins.closed (hchart.closed hs.closed)).congr rfl rfl rfl
  nonneg := (hjoins.nonneg (hchart.closed hs.closed) (hs.nonneg.congr hchart.grown.rows)).congr rfl
  notes := by
    apply hjoins.notes
    unfold Notes
    rw [hchart.grown.infeasible]
    exact hs.notes

/-- A refused addition leaves the tableau alone. -/
theorem Sound.restores (hs : s.Sound target) (hchart : s.Charted c row tag u)
    (hrestores : Restores s u t) : t.Sound target where
  models := by
    have hid := hchart.grown.nextId.trans hrestores.nextId
    refine hs.models.grow hrestores.live ?_ (hchart.registered.congr hrestores.vars hrestores.nextId)
      hid ?_ hrestores.idle ?_ ?_
    · rw [hrestores.vars]
      exact hchart.grown.vars
    · exact hs.models.solved.congr hrestores.rows hrestores.objective
        (hrestores.idle.trans hs.models.idle.symm) hid
    · intro value
      exact ⟨fun hsat => hsat.congr hrestores.rows.symm, fun hsat => hsat.congr hrestores.rows⟩
    · intro value _
      rw [hrestores.objective]
  closed := hs.closed.congr hrestores.rows hrestores.objective
    (hrestores.idle.trans hs.models.idle.symm)
  nonneg := hs.nonneg.congr hrestores.rows
  notes := hrestores.notes hs.notes

theorem ArtificialEnd.isInternal {e : SolverError} (h : ArtificialEnd s row (.error e) t) :
    e.isInternal = true := by
  cases h with
  | failed _ hend => exact hend.isInternal

section Adds

variable (h : Adds s key c r t) (hr : Ordinary r)
include h hr

theorem Adds.valid (hs : s.Valid target) (htarget : s.live.get? key = none → target key = 0) :
    t.Valid target := by
  cases h with
  | duplicate => exact hs
  | refused hnone hchart _ hrestores =>
    refine ⟨hs.sound.restores hchart hrestores, ?_⟩
    intro hclean x hx
    rw [hrestores.objective]
    exact hs.settled (hrestores.dirty ▸ hclean) x hx
  | joined hnone hchart hjoins hfollows =>
    have hsound := hs.sound.enlist hchart hjoins hnone (htarget hnone)
    exact ⟨hfollows.sound hsound,
      hfollows.settled hsound.models.solved (hr.eq_ok fun _ => hfollows.isInternal)⟩
  | failed _ _ _ hend => exact absurd hend.isInternal hr.not_isInternal

theorem Adds.pinned (hp : s.Pinned) : t.Pinned := by
  cases h with
  | duplicate => exact hp
  | refused _ _ _ hrestores => exact hp.congr hrestores.rows
  | joined _ hchart hjoins hfollows =>
    have hp' := hjoins.pinned (hp.congr hchart.grown.rows)
    exact hfollows.pinned (hjoins.solved.congr rfl rfl rfl le_rfl) (hp'.congr rfl)
  | failed _ _ _ hend => exact absurd hend.isInternal hr.not_isInternal

/-- An addition either lists the constraint, with symbols of its own, or changes no list. -/
theorem Adds.lists : t.edits = s.edits ∧ t.autoSolve = s.autoSolve ∧ s.nextId ≤ t.nextId ∧
    match r with
    | .ok () => s.live.get? key = none ∧ s.nextId < t.nextId ∧
      ∃ tag, Live.Fits ⟨c, tag⟩ ∧ t.live = s.live.insert key ⟨c, tag⟩
    | .error _ => t.live = s.live ∧ t.dirty = s.dirty := by
  cases h with
  | duplicate => exact ⟨rfl, rfl, le_rfl, rfl, rfl⟩
  | refused _ hchart _ hrestores =>
    exact ⟨hrestores.edits, hrestores.autoSolve, hchart.grown.nextId.trans hrestores.nextId,
      hrestores.live, hrestores.dirty⟩
  | @joined row tag u v t r hnone hchart hjoins hfollows =>
    have hnames := hfollows.sameNames
    have hid : s.nextId < t.nextId := by
      obtain ⟨hlow, hhigh⟩ := hchart.fresh _ List.mem_cons_self
      rw [hnames.nextId]
      exact (hlow.trans_lt hhigh).trans_le hjoins.nextId
    refine ⟨?_, ?_, hid.le, ?_⟩
    · rw [hnames.edits]
      exact hjoins.edits.trans hchart.grown.edits
    · rw [hnames.autoSolve]
      exact hjoins.autoSolve.trans hchart.grown.autoSolve
    · obtain rfl := hr.eq_ok fun _ => hfollows.isInternal
      refine ⟨hnone, hid, tag, hchart.fits, ?_⟩
      rw [hnames.live, ← hchart.grown.live, ← hjoins.live]
      rfl
  | failed _ _ _ hend => exact absurd hend.isInternal hr.not_isInternal

end Adds

end Solver

end ReactiveView
