import Mathlib
import ReactiveView.Proofs.Simplex.Runs

/-!
This module contains what a suggestion makes of a system. The three ways to shift the constants all
say that the target of the edit has moved, whichever of its symbols is basic, and the list of
infeasible rows knows every row that the shift has made negative. Mending them keeps the objective
from finding a way down, so that a suggestion that is answered leaves an optimal tableau.
-/

namespace ReactiveView

namespace Solver

variable {s t u : Solver ℚ} {x : Variable} {v : ℚ} {edit : Edit ℚ} {requests : List Request}

/-- What becomes of a system when the target of an edit variable moves to a value: the rows represent
the same constraints at the new target, and their corner is feasible and optimal. -/
structure Reoptimised (s : Solver ℚ) (x : Variable) (edit : Edit ℚ) (v : ℚ) (t : Solver ℚ) :
    Prop where
  nonneg : t.Nonneg
  optimal : t.Optimal
  infeasible : t.infeasible = []
  /-- Before, the rows said what the constraints say at the targets they had. -/
  satisfies_iff_before : ∀ value, s.Satisfies value ↔ s.Balances s.targetOf value
  /-- Now they say what the same constraints say with one target replaced. -/
  satisfies_iff : ∀ value,
    t.Satisfies value ↔ s.Balances (Function.update s.targetOf edit.handle v) value
  /-- The same, by the rows alone: the marker of the edit has moved with its target. -/
  satisfies_iff_moved : ∀ value, t.Satisfies value ↔
    s.Satisfies (Function.update value edit.tag.marker (value edit.tag.marker + (v - edit.target)))
  live : t.live = s.live
  vars : t.vars = s.vars
  edits : t.edits = s.edits.insert x { edit with target := v }
  autoSolve : t.autoSolve = s.autoSolve
  idle : t.artificial = none

/-- To move the target of an edit is to move its marker. -/
theorem Consistent.balances_update_iff (hs : s.Consistent) (hedit : s.edits.get? x = some edit)
    (v : ℚ) (value : Symbol → ℚ) :
    s.Balances (Function.update s.targetOf edit.handle v) value ↔
      s.Balances s.targetOf
        (Function.update value edit.tag.marker (value edit.tag.marker + (v - edit.target))) := by
  obtain ⟨lv, hlv, htag, hrel, hsoft⟩ := hs.edited.live x edit hedit
  have hm := hs.valid.sound.models
  obtain ⟨-, other, helastic, -⟩ := hm.elastic hlv hrel hsoft
  have hmarker : edit.tag.marker.IsRestricted :=
    htag ▸ (hm.tagged.fits _ lv hlv).kind_ne_external lv.marker_mem
  have htarget := hs.edited.targetOf hedit
  unfold Balances
  refine forall_congr' fun key => forall_congr' fun lv' => imp_congr_right fun hlv' => ?_
  unfold Live.Balanced
  rw [hm.registered.reading_update hmarker]
  by_cases hkey : key = edit.handle
  · subst hkey
    rw [hlv] at hlv'
    cases hlv'
    rw [Function.update_self, ← htag, helastic.residual_marker, htarget, add_sub_cancel]
  · have hne : ∀ y ∈ lv'.tag.symbols, y ≠ edit.tag.marker := by
      rintro y hy rfl
      exact hkey (hm.tagged.apart key lv' _ lv hlv' hlv _ hy (htag ▸ lv.marker_mem))
    rw [Function.update_of_ne hkey,
      Live.residual_congr rfl fun y hy => (Function.update_of_ne (hne y hy) _ value).symm]

theorem Consistent.reoptimised (hs : s.Consistent) (h : Suggests s x v (.ok ()) t) :
    ∃ edit, s.edits.get? x = some edit ∧ s.Reoptimised x edit v t := by
  cases h with
  | @mends u _ edit _ hsolves hedit hend =>
    obtain ⟨hu, -, hopt⟩ := hs.solves hsolves
    have hnames := hsolves.sameNames
    have hedit' : s.edits.get? x = some edit := hnames.edits ▸ hedit
    have hret := hu.retargets hedit v
    have hmending := Mending.mk hret.models.solved hret.closed hret.noted
    cases hend with
    | mended hsteps hdone =>
      have hsound := hsteps.sound hret.models hret.closed hret.noted hdone
      have hlive : t.live = s.live :=
        (hsteps.sameFrame.live.trans hret.frame.live).trans hnames.live
      have hvars : t.vars = s.vars :=
        (hsteps.sameFrame.vars.trans hret.frame.vars).trans hnames.vars
      have htarget : Solver.targetOf { u with edits := u.edits.insert x { edit with target := v } }
          = Function.update s.targetOf edit.handle v := by
        obtain ⟨hkey, hothers⟩ :=
          hu.edited.targetOf_retarget hedit v (hu.edited.retarget hedit v) rfl
        funext key
        by_cases hk : key = edit.handle
        · rw [hk, hkey, Function.update_self]
        · rw [hothers key hk, Function.update_of_ne hk, targetOf_congr hnames.edits]
      have hsat : ∀ value, t.Satisfies value ↔
          s.Balances (Function.update s.targetOf edit.handle v) value := by
        intro value
        rw [hsound.models.satisfies_iff, htarget]
        unfold Balances
        rw [hlive, reading_of_vars hvars]
      refine ⟨edit, hedit', ?_⟩
      exact {
        nonneg := hsound.nonneg
        optimal := by
          apply hsteps.optimal hmending
          intro z hz
          rw [hret.objective]
          exact hopt z hz
        infeasible := hdone
        satisfies_iff_before := hs.valid.sound.models.satisfies_iff
        satisfies_iff := hsat
        satisfies_iff_moved := by
          intro value
          rw [hsat, hs.balances_update_iff hedit', hs.valid.sound.models.satisfies_iff]
        live := hlive
        vars := hvars
        edits := by
          rw [hsteps.sameFrame.edits.trans hret.frame.edits, hnames.edits]
        autoSolve :=
          (hsteps.sameFrame.autoSolve.trans hret.frame.autoSolve).trans hnames.autoSolve
        idle := hsound.models.idle }

/-- Whenever a suggestion is answered, the tableau is optimal and feasible again, and it represents
what it did before with the target of one edit replaced. -/
theorem Runs.suggests_reoptimised (h : Runs Anything requests s)
    (hsuggest : s.perform (suggest x v) = (.ok (), t)) :
    ∃ edit, s.edits.get? x = some edit ∧ s.Reoptimised x edit v t :=
  h.consistent.reoptimised (h.consistent.performs_suggest hsuggest)

/-- Two edit variables and a bound between them. A suggestion has pushed one of them up. -/
def pushedRequests : List Request :=
  let x : LinearExpr ℚ := .ofVariable ⟨0⟩
  let y : LinearExpr ℚ := .ofVariable ⟨1⟩
  [.add (Constraint.between 0 x .atLeast y), .addEdit ⟨0⟩ .medium, .addEdit ⟨1⟩ .strong,
    .suggest ⟨1⟩ 30]

/-- Pulling the other edit variable down afterwards takes pivots and reaches the bound. -/
theorem Runs.suggests_reoptimised_pushed :
    ∃ s t, Runs Anything pushedRequests s ∧ s.perform (suggest ⟨0⟩ 12) = (.ok (), t) ∧
      t.value ⟨0⟩ = 30 ∧ ∃ edit, s.edits.get? ⟨0⟩ = some edit ∧ s.Reoptimised ⟨0⟩ edit 12 t := by
  have hserved : (served pushedRequests).map (fun s =>
      ((s.perform (suggest ⟨0⟩ 12)).1.toBool, (s.perform (suggest ⟨0⟩ 12)).2.value ⟨0⟩))
      = some (true, 30) := by decide +kernel
  obtain ⟨s, hs, hvalue⟩ := Option.map_eq_some_iff.1 hserved
  have hruns : Runs Anything pushedRequests s := runs_of_served (fun _ _ _ => trivial) hs
  rcases hsuggest : s.perform (suggest ⟨0⟩ 12) with ⟨_ | _, t⟩
  · rw [hsuggest] at hvalue
    cases hvalue
  · rw [hsuggest] at hvalue
    exact ⟨s, t, hruns, hsuggest, congrArg Prod.snd hvalue, hruns.suggests_reoptimised hsuggest⟩

end Solver

end ReactiveView
