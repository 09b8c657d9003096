import Mathlib
import ReactiveView.Proofs.Simplex.Extension

/-!
This module contains that minimisation succeeds and finds the least weighted violation. The primal
loop is never unbounded, the dual loop never stuck while the requirements can be met, and a
constraint is refused only where they cannot.
-/

namespace ReactiveView

namespace Solver

variable {s t u : Solver ℚ} {target : Handle → ℚ} {values : Variable → ℚ} {value : Symbol → ℚ}
variable {row : Row ℚ} {e : Symbol} {goal : Goal} {error : SolverError} {key : Handle}
variable {c : Constraint ℚ}

/-! ### The least violation -/

/-- No admissible solution is below the constant of a row in which only dummies may sink. -/
theorem Solved.constant_le_eval (hs : s.Solved) (hc : s.Closed) (hrow : s.HasRestrictedRow row)
    (hleast : ∀ x, ¬x.IsDummy → 0 ≤ row.coefficient x) (hadm : Admissible value) :
    row.constant ≤ row.eval value :=
  Row.constant_le_eval (hs.normal row hrow.hasRow) (hc row hrow) hleast hadm.nonneg hadm.dummy

theorem Sound.cost_corner_le (hs : s.Sound target) (ho : s.Optimal) (hsat : s.Satisfies value)
    (hadm : Admissible value) : s.cost s.corner ≤ s.cost value := by
  have hm := hs.models
  obtain ⟨k, hk⟩ := hm.objective
  have hle := hm.solved.constant_le_eval hs.closed .objective ho hadm
  rw [← hm.solved.eval_corner .objective, hk _ hm.solved.satisfies_corner, hk _ hsat] at hle
  linarith

theorem Sound.penalty_value_le (hs : s.Sound target) (ho : s.Optimal) (hw : s.Weighted)
    (hmet : s.IsMet values) : s.penalty target s.value ≤ s.penalty target values := by
  have hm := hs.models
  obtain ⟨value, hextends⟩ := exists_extends hm.registered hm.tagged target values
  calc s.penalty target s.value
      ≤ s.cost s.corner := by
        rw [← reading_corner]
        exact hm.tagged.penalty_le_cost hw ((hm.satisfies_iff _).1 hm.solved.satisfies_corner)
          fun x hx => hs.nonneg.corner hx
    _ ≤ s.cost value := hs.cost_corner_le ho ((hm.satisfies_iff _).2 (hextends.balances hm.tagged))
        (hextends.admissible hm.tagged hmet)
    _ = s.penalty target values := hextends.cost_eq hm.tagged

theorem Models.exists_admissible (hm : s.Models target) (hmet : s.IsMet values) :
    ∃ value, s.Satisfies value ∧ Admissible value := by
  obtain ⟨value, hextends⟩ := exists_extends hm.registered hm.tagged target values
  exact ⟨value, (hm.satisfies_iff _).2 (hextends.balances hm.tagged),
    hextends.admissible hm.tagged hmet⟩

/-! ### The loops -/

/-- Along a symbol that no row bounds a goal falls below everything. -/
theorem Solved.exists_eval_lt (hs : s.Solved) (hn : s.Nonneg) (hrow : s.HasRow row)
    (hneg : row.coefficient e < 0) (hnone : s.leaving? e = none) (bound : ℚ) :
    ∃ value, s.Satisfies value ∧ (∀ x : Symbol, x.IsRestricted → 0 ≤ value x) ∧
      row.eval value < bound := by
  -- Far enough along `e` its term outweighs the constant.
  let τ := max ((bound - row.constant - 1) / row.coefficient e) 0
  have hτ : 0 ≤ τ := le_max_right _ _
  have heval : ∀ row', s.HasRow row' →
      row'.eval (Function.update (fun _ => 0) e τ) = row'.constant + row'.coefficient e * τ := by
    intro row' hrow'
    rw [Row.eval_update (hs.normal row' hrow'), Row.eval_zero, sub_zero]
  refine ⟨s.complete (Function.update (fun _ => 0) e τ), hs.satisfies_complete _, ?_, ?_⟩
  · intro x hx
    by_cases hb : s.IsBasic x
    · obtain ⟨row', hrow'⟩ := hb
      rw [complete_of_get? hrow', heval row' (.basic hrow')]
      exact add_nonneg (hn x row' hrow' hx) (mul_nonneg (leaving?_eq_none hnone hrow' hx) hτ)
    · rw [complete_of_not_isBasic hb, Function.update_apply]
      split
      · exact hτ
      · exact le_rfl
  · rw [hs.eval_complete hrow, heval row hrow]
    have hle : (bound - row.constant - 1) / row.coefficient e ≤ τ := le_max_left _ _
    rw [div_le_iff_of_neg hneg] at hle
    linarith

/-- The primal loop only fails at its limit, if its goal is bounded from below. -/
theorem PrimalEnd.eq_pivotLimit (h : PrimalEnd goal t (.error error)) (ht : t.Solved)
    (hn : t.Nonneg) (hrow : t.goalRow goal = some row) (hhas : t.HasRow row) {bound : ℚ}
    (hbound : ∀ value, t.Satisfies value → (∀ x : Symbol, x.IsRestricted → 0 ≤ value x) →
      bound ≤ row.eval value) : error = .pivotLimit := by
  cases h with
  | limit => rfl
  | @unbounded e he hnone =>
    rw [hrow] at he
    have hneg := (entering?_eq_some (ht.normal row hhas) he).2
    obtain ⟨value, hsat, hnonneg, hlt⟩ := ht.exists_eval_lt hn hhas hneg hnone bound
    exact absurd (hbound value hsat hnonneg) (not_le.2 hlt)

theorem Sound.bounded (hs : s.Sound target) (hw : s.Weighted) :
    ∃ bound, ∀ value, s.Satisfies value → (∀ x : Symbol, x.IsRestricted → 0 ≤ value x) →
      bound ≤ s.objective.eval value := by
  have hm := hs.models
  obtain ⟨k, hk⟩ := hm.objective
  refine ⟨k, ?_⟩
  intro value hsat hnonneg
  have hle := hm.tagged.penalty_le_cost hw ((hm.satisfies_iff value).1 hsat) hnonneg
  have hnonneg : 0 ≤ s.penalty target (s.reading value) := hw.penalty_nonneg hm.tagged
  rw [hk value hsat]
  linarith

theorem Weighted.congr (hw : s.Weighted) (hlive : t.live = s.live) : t.Weighted := by
  unfold Weighted
  rw [hlive]
  exact hw

theorem PrimalSteps.eq_pivotLimit (h : PrimalSteps .main s t)
    (hend : PrimalEnd .main t (.error error)) (hs : s.Sound target) (hw : s.Weighted) :
    error = .pivotLimit := by
  have ht := h.sound hs
  obtain ⟨bound, hbound⟩ := ht.bounded (hw.congr h.sameFrame.live)
  exact hend.eq_pivotLimit ht.models.solved ht.nonneg rfl .objective hbound

theorem Follows.eq_pivotLimit (h : Follows s (.error error) t) (hs : s.Sound target)
    (hw : s.Weighted) : error = .pivotLimit := by
  cases h with
  | minimised _ hsteps hend => exact hsteps.eq_pivotLimit hend hs hw

theorem Solves.eq_pivotLimit (h : Solves s (.error error) t) (hs : s.Sound target)
    (hw : s.Weighted) : error = .pivotLimit := by
  cases h with
  | failed hsteps hend => exact hsteps.eq_pivotLimit hend hs hw

/-- The artificial symbol is never negative, so its row is bounded. -/
theorem ArtificialEnd.eq_pivotLimit (h : ArtificialEnd s row (.error error) t) (hs : s.Solved)
    (hp : s.Parametric row) (hn : s.Nonneg) (hpos : 0 ≤ row.constant) : error = .pivotLimit := by
  cases h with
  | failed hsteps hend =>
    have hs' := hs.adjoin hp
    have ht := hsteps.solved hs'
    obtain ⟨g, hg, -⟩ := hsteps.eval_artificial hs' rfl
    have hbound : ∀ value, t.Satisfies value → (∀ x : Symbol, x.IsRestricted → 0 ≤ value x) →
        0 ≤ g.eval value := by
      intro value hsat hnonneg
      rw [← hsteps.art_eq hs hp hg hsat]
      exact hnonneg _ (by simp [Symbol.IsRestricted, art])
    exact hend.eq_pivotLimit ht (hsteps.nonneg hs' (hn.adjoin hpos)) hg (.artificial hg) hbound

/-- A row that nothing mends is negative in all admissible solutions. -/
theorem DualEnd.eq_pivotLimit (h : DualEnd s t (.error error)) (hm : s.Mending)
    (hsat : s.Satisfies value) (hadm : Admissible value) : error = .pivotLimit := by
  cases h with
  | limit => rfl
  | @stuck u l rest row hsteps hnoted hrow hneg hnone =>
    have hu := hsteps.mending hm
    have hl : l.IsRestricted := by
      apply hu.noted.restricted
      rw [hnoted]
      exact List.mem_cons_self
    have hn := hu.solved.normal row (.basic hrow)
    -- Turned round the row is a goal that only dummies could make smaller.
    have hle : row.negated.constant ≤ row.negated.eval value := by
      apply Row.constant_le_eval hn.negated _ _ hadm.nonneg hadm.dummy
      · intro x hx
        rw [Row.coefficient_negated] at hx
        exact hu.closed row (.basic hrow hl) x (neg_ne_zero.1 hx)
      · intro x hx
        rw [Row.coefficient_negated]
        exact neg_nonneg.2 (mending?_eq_none hn hnone hx)
    rw [Row.constant_negated, Row.eval_negated] at hle
    have := hadm.nonneg l hl
    rw [(hsteps.satisfies_iff hm value).2 hsat l row hrow] at this
    linarith

/-! ### The operations -/

theorem Weighted.insert {lv : Live ℚ} (hw : s.Weighted) (hlive : t.live = s.live.insert key lv)
    (hnew : 0 ≤ lv.constraint.strength.value) : t.Weighted := by
  intro key' lv' hlv'
  rw [hlive] at hlv'
  rcases Table.of_get?_insert hlv' with ⟨-, rfl⟩ | hlv'
  · exact hnew
  · exact hw key' lv' hlv'

theorem Weighted.erase (hw : s.Weighted) (hlive : t.live = s.live.erase key) : t.Weighted := by
  intro key' lv' hlv'
  rw [hlive] at hlv'
  exact hw key' lv' (Table.of_get?_erase hlv').2

/-- What is refused cannot be met together with the requirements there are. -/
theorem Sound.not_refuted {tag : Tag} (hs : s.Sound target) (hchart : s.Charted c row tag u)
    (hnone : s.live.get? key = none) (htarget : target key = 0) (hmet : s.IsMet values)
    (hholds : c.IsRequired → c.Holds values) :
    ∃ value, s.Satisfies value ∧ Admissible value ∧ row.eval value = 0 := by
  have hm := hs.models
  have hlive := live_enlist hchart.grown.live key ⟨c, tag⟩
  have hvars : ∀ x y, s.vars.get? x = some y → (u.enlist key ⟨c, tag⟩).vars.get? x = some y :=
    hchart.grown.vars
  have hr : (u.enlist key ⟨c, tag⟩).Registered := hchart.registered.congr rfl le_rfl
  have ht : (u.enlist key ⟨c, tag⟩).Tagged :=
    hm.tagged.insert hlive hvars hchart.fits hchart.distinct (fun x hx => (hchart.fresh x hx).1)
      (fun x hx => (hchart.fresh x hx).2) hchart.grown.nextId hchart.covered
  obtain ⟨value, hextends⟩ := exists_extends hr ht target values
  obtain ⟨hold, hnew⟩ := (hm.tagged.balances_insert_iff hnone hlive hvars).1 (hextends.balances ht)
  have hsat := (hm.satisfies_iff value).2 hold
  refine ⟨value, hsat, hextends.admissible ht ?_, ?_⟩
  · intro key' lv' hlv'
    rw [hlive] at hlv'
    rcases Table.of_get?_insert hlv' with ⟨-, rfl⟩ | hlv'
    · exact hholds
    · exact hmet key' lv' hlv'
  · rw [hchart.eval_eq_zero_iff hsat, ← htarget]
    exact hnew

/-- An addition to requirements that can be met together with it fails at the limit of the loops
only, unless the constraint is there already. -/
theorem Adds.of_error (h : Adds s key c (.error error) t) (hs : s.Sound target) (hp : s.Pinned)
    (hw : s.Weighted) (hstrength : 0 ≤ c.strength.value)
    (htarget : s.live.get? key = none → target key = 0) (hmet : s.IsMet values)
    (hholds : c.IsRequired → c.Holds values) :
    error = .pivotLimit ∨ s.live.get? key ≠ none := by
  cases h with
  | duplicate hlive => exact .inr hlive
  | refused hnone hchart _ _ hrefuted =>
    obtain ⟨value, hsat, hadm, hzero⟩ :=
      hs.not_refuted hchart hnone (htarget hnone) hmet hholds
    exact absurd hzero (hrefuted hs.closed hs.nonneg hp value hsat hadm)
  | @joined row tag u v t r hnone hchart hjoins hfollows =>
    have hlive := live_enlist (hjoins.live.trans hchart.grown.live) key ⟨c, tag⟩
    exact .inl (hfollows.eq_pivotLimit (hs.enlist hchart hjoins hnone (htarget hnone))
      (hw.insert hlive hstrength))
  | failed hnone hchart _ hend =>
    exact .inl (hend.eq_pivotLimit (hchart.solved hs.models.solved) hchart.parametric
      (hs.nonneg.congr hchart.grown.rows) hchart.nonneg)

theorem Removes.of_error (h : Removes s key (.error error) t) (hs : s.Sound target)
    (hw : s.Weighted) : error = .pivotLimit ∨ s.live.get? key = none := by
  cases h with
  | unknown hnone => exact .inr hnone
  | basic hlv hb hfollows =>
    exact .inl (hfollows.eq_pivotLimit (hs.withdraw_basic hlv hb target
      fun _ _ => rfl) (hw.erase rfl))
  | gives hlv hb _ hrow hgives hfollows =>
    exact .inl (hfollows.eq_pivotLimit (hs.withdraw_gives hlv hb hrow hgives target
      fun _ _ => rfl) (hw.erase rfl))

theorem Suggests.of_error {x : Variable} {v : ℚ} (h : Suggests s x v (.error error) t)
    (hs : s.Consistent) (hw : s.Weighted) (hmet : s.IsMet values) :
    error = .pivotLimit ∨ s.edits.get? x = none := by
  cases h with
  | unsolved hsolves => exact .inl (hsolves.eq_pivotLimit hs.valid.sound hw)
  | unknown hsolves hnone => exact .inr (hsolves.sameNames.edits ▸ hnone)
  | @mends u t edit r hsolves hedit hend =>
    have hret := (hs.solves hsolves).1.retargets hedit v
    have hmet' : Solver.IsMet (Solver.shift { u with
        edits := u.edits.insert x { edit with target := v } } edit.tag (v - edit.target)) values := by
      unfold IsMet
      rw [hret.frame.live]
      show u.IsMet values
      unfold IsMet
      rw [hsolves.sameNames.live]
      exact hmet
    obtain ⟨value, hsat, hadm⟩ := hret.models.exists_admissible hmet'
    exact .inl (hend.eq_pivotLimit ⟨hret.models.solved, hret.closed, hret.noted⟩ hsat hadm)

end Solver

end ReactiveView
