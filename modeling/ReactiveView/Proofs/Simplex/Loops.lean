import Mathlib
import ReactiveView.Proofs.Simplex.Ratio

/-!
This module contains the pivot loops as sequences of steps. A loop that comes to its end has taken
finitely many of them and finds nothing left to do.
-/

namespace ReactiveView

namespace Solver

section Perform

variable {β γ : Type} (s : Solver ℚ)

@[simp]
theorem perform_pure (b : β) : s.perform (pure b : Solving ℚ β) = (.ok b, s) := rfl

@[simp]
theorem perform_throw (e : SolverError) : s.perform (throw e : Solving ℚ β) = (.error e, s) := rfl

@[simp]
theorem perform_get : s.perform (get : Solving ℚ (Solver ℚ)) = (.ok s, s) := rfl

@[simp]
theorem perform_set (t : Solver ℚ) : s.perform (set t : Solving ℚ PUnit) = (.ok ⟨⟩, t) := rfl

@[simp]
theorem perform_modify (f : Solver ℚ → Solver ℚ) :
    s.perform (modify f : Solving ℚ PUnit) = (.ok ⟨⟩, f s) := rfl

theorem perform_bind (x : Solving ℚ β) (f : β → Solving ℚ γ) :
    s.perform (x >>= f) =
      match s.perform x with
      | (.ok b, t) => t.perform (f b)
      | (.error e, t) => (.error e, t) := by
  unfold perform ExceptT.run StateT.run
  simp only [bind, ExceptT.bind, ExceptT.mk, StateT.bind, ExceptT.bindCont]
  rcases x s with ⟨r, t⟩
  cases r <;> rfl

end Perform

variable {s t : Solver ℚ} {goal : Goal}

/-- The fields that a pivot leaves alone. -/
structure SameFrame (s t : Solver ℚ) : Prop where
  live : t.live = s.live
  vars : t.vars = s.vars
  edits : t.edits = s.edits
  nextId : t.nextId = s.nextId
  autoSolve : t.autoSolve = s.autoSolve
  dirty : t.dirty = s.dirty

theorem SameFrame.refl (s : Solver ℚ) : s.SameFrame s := ⟨rfl, rfl, rfl, rfl, rfl, rfl⟩

theorem SameFrame.trans {u : Solver ℚ} (h : s.SameFrame t) (h' : t.SameFrame u) : s.SameFrame u :=
  ⟨h'.live.trans h.live, h'.vars.trans h.vars, h'.edits.trans h.edits, h'.nextId.trans h.nextId,
    h'.autoSolve.trans h.autoSolve, h'.dirty.trans h.dirty⟩

theorem sameFrame_pivot (s : Solver ℚ) (l e : Symbol) (row : Row ℚ) :
    s.SameFrame (s.pivot l e row) := ⟨rfl, rfl, rfl, rfl, rfl, rfl⟩

theorem ascending_pivot (h : s.rows.Ascending) (l e : Symbol) (row : Row ℚ) :
    (s.pivot l e row).rows.Ascending :=
  ((h.erase l).mapValues _).insert _ _

/-! ### The primal loop -/

/-- One pivot of the primal loop. -/
inductive PrimalStep (goal : Goal) : Solver ℚ → Solver ℚ → Prop
  | pivot {s : Solver ℚ} {e l : Symbol} {row : Row ℚ}
      (he : (s.goalRow goal).bind entering? = some e) (hl : s.leaving? e = some l)
      (hrow : s.rows.get? l = some row) : PrimalStep goal s (s.pivot l e row)

/-- Pivots of the primal loop. -/
def PrimalSteps (goal : Goal) : Solver ℚ → Solver ℚ → Prop :=
  Relation.ReflTransGen (PrimalStep goal)

theorem perform_minimiseFor_succ (s : Solver ℚ) (goal : Goal) (n : Nat) :
    s.perform (minimiseFor goal (n + 1)) =
      match (s.goalRow goal).bind entering? with
      | none => (.ok (), s)
      | some e =>
        match s.leaving? e with
        | none => (.error .unbounded, s)
        | some l =>
          match s.rows.get? l with
          | none => (.error .unbounded, s)
          | some row => (s.pivot l e row).perform (minimiseFor goal n) := by
  rw [minimiseFor, perform_bind]
  simp only [perform_get]
  cases (s.goalRow goal).bind entering? with
  | none => rfl
  | some e =>
    simp only
    cases s.leaving? e with
    | none => rfl
    | some l =>
      simp only
      cases s.rows.get? l with
      | none => rfl
      | some row =>
        simp only
        rw [perform_bind]
        simp only [perform_set]

/-- How the primal loop ends: at the least value, at its limit, or where nothing bounds it. -/
inductive PrimalEnd (goal : Goal) (t : Solver ℚ) : Except SolverError Unit → Prop
  | least (h : (t.goalRow goal).bind entering? = none) : PrimalEnd goal t (.ok ())
  | limit : PrimalEnd goal t (.error .pivotLimit)
  | unbounded {e : Symbol} (he : (t.goalRow goal).bind entering? = some e)
      (hl : t.leaving? e = none) : PrimalEnd goal t (.error .unbounded)

theorem perform_minimiseFor (ha : s.rows.Ascending) {n : Nat} {r : Except SolverError Unit}
    (h : s.perform (minimiseFor goal n) = (r, t)) : PrimalSteps goal s t ∧ PrimalEnd goal t r := by
  induction n generalizing s with
  | zero =>
    cases h
    exact ⟨.refl, .limit⟩
  | succ n ih =>
    rw [perform_minimiseFor_succ] at h
    split at h
    · next he =>
      cases h
      exact ⟨.refl, .least he⟩
    · next e he =>
      split at h
      · next hl =>
        cases h
        exact ⟨.refl, .unbounded he hl⟩
      · next l hl =>
        obtain ⟨row, hrow, -⟩ := leaving?_eq_some ha hl
        rw [hrow] at h
        obtain ⟨hsteps, hend⟩ := ih (ascending_pivot ha l e row) h
        exact ⟨.head (.pivot he hl hrow) hsteps, hend⟩

theorem perform_minimise (ha : s.rows.Ascending) {r : Except SolverError Unit}
    (h : s.perform (minimise goal) = (r, t)) : PrimalSteps goal s t ∧ PrimalEnd goal t r := by
  rw [minimise, perform_bind] at h
  exact perform_minimiseFor ha h

theorem PrimalSteps.sameFrame (h : PrimalSteps goal s t) : s.SameFrame t := by
  induction h with
  | refl => exact .refl s
  | tail _ hstep ih =>
    cases hstep with
    | pivot => exact ih.trans (sameFrame_pivot _ _ _ _)

/-! ### The dual loop -/

/-- One turn of the dual loop. -/
inductive DualStep : Solver ℚ → Solver ℚ → Prop
  | skip {s : Solver ℚ} {x : Symbol} {rest : List Symbol} (hnoted : s.infeasible = x :: rest)
      (hok : ∀ row, s.rows.get? x = some row → 0 ≤ row.constant) :
      DualStep s { s with infeasible := rest }
  | pivot {s : Solver ℚ} {l e : Symbol} {rest : List Symbol} {row : Row ℚ}
      (hnoted : s.infeasible = l :: rest) (hrow : s.rows.get? l = some row)
      (hneg : row.constant < 0) (he : s.mending? row = some e) :
      DualStep s ({ s with infeasible := rest }.pivot l e row)

/-- Turns of the dual loop. -/
def DualSteps : Solver ℚ → Solver ℚ → Prop := Relation.ReflTransGen DualStep

/-- How the dual loop ends: with nothing noted, at its limit, or at a row that nothing mends. -/
inductive DualEnd (s t : Solver ℚ) : Except SolverError Unit → Prop
  | mended (hsteps : DualSteps s t) (h : t.infeasible = []) : DualEnd s t (.ok ())
  | limit : DualEnd s t (.error .pivotLimit)
  | stuck {u : Solver ℚ} {l : Symbol} {rest : List Symbol} {row : Row ℚ} (hsteps : DualSteps s u)
      (hnoted : u.infeasible = l :: rest) (hrow : u.rows.get? l = some row)
      (hneg : row.constant < 0) (he : u.mending? row = none) : DualEnd s t (.error .infeasibleRow)

theorem DualEnd.head {u : Solver ℚ} {r : Except SolverError Unit} (h : DualStep s u)
    (hend : DualEnd u t r) : DualEnd s t r := by
  cases hend with
  | mended hsteps hnone => exact .mended (.head h hsteps) hnone
  | limit => exact .limit
  | stuck hsteps hnoted hrow hneg he => exact .stuck (.head h hsteps) hnoted hrow hneg he

theorem perform_mendFor_succ (s : Solver ℚ) (n : Nat) :
    s.perform (mendFor (n + 1)) =
      match s.infeasible with
      | [] => (.ok (), s)
      | l :: rest =>
        match s.rows.get? l with
        | none => { s with infeasible := rest }.perform (mendFor n)
        | some row =>
          if row.constant < 0 then
            match s.mending? row with
            | none => (.error .infeasibleRow, { s with infeasible := rest })
            | some e => ({ s with infeasible := rest }.pivot l e row).perform (mendFor n)
          else { s with infeasible := rest }.perform (mendFor n) := by
  rw [mendFor, perform_bind]
  simp only [perform_get]
  cases hs : s.infeasible with
  | nil => rfl
  | cons l rest =>
    simp only
    rw [perform_bind]
    simp only [perform_set]
    cases s.rows.get? l with
    | none => rfl
    | some row =>
      simp only
      by_cases hneg : row.constant < 0
      · have hcond : (!Scalar.negligible row.constant && Scalar.isNegative row.constant) = true := by
          simp [hneg, hneg.ne]
        rw [if_pos hcond, if_pos hneg]
        have hsame : ({ s with infeasible := rest } : Solver ℚ).mending? row = s.mending? row := rfl
        rw [hsame]
        cases s.mending? row with
        | none => rfl
        | some e =>
          simp only
          rw [perform_bind]
          simp only [perform_set]
      · have hcond : ¬(!Scalar.negligible row.constant && Scalar.isNegative row.constant) = true := by
          simp [hneg]
        rw [if_neg hcond, if_neg hneg]

theorem perform_mendFor {n : Nat} {r : Except SolverError Unit}
    (h : s.perform (mendFor n) = (r, t)) : DualEnd s t r := by
  induction n generalizing s with
  | zero =>
    cases h
    exact .limit
  | succ n ih =>
    rw [perform_mendFor_succ] at h
    split at h
    · next hnone =>
      cases h
      exact .mended .refl hnone
    · next l rest hnoted =>
      split at h
      · next hrow =>
        refine (ih h).head (.skip hnoted ?_)
        intro row hrow'
        rw [hrow] at hrow'
        cases hrow'
      · next row hrow =>
        split at h
        · next hneg =>
          split at h
          · next he =>
            cases h
            exact .stuck .refl hnoted hrow hneg he
          · next e he => exact (ih h).head (.pivot hnoted hrow hneg he)
        · next hneg =>
          refine (ih h).head (.skip hnoted ?_)
          intro row' hrow'
          rw [hrow] at hrow'
          cases hrow'
          exact not_lt.1 hneg

theorem perform_mend {r : Except SolverError Unit} (h : s.perform mend = (r, t)) :
    DualEnd s t r := by
  rw [mend, perform_bind] at h
  exact perform_mendFor h

theorem DualStep.sameFrame (h : DualStep s t) : s.SameFrame t := by
  cases h with
  | skip => exact ⟨rfl, rfl, rfl, rfl, rfl, rfl⟩
  | pivot => exact ⟨rfl, rfl, rfl, rfl, rfl, rfl⟩

theorem DualSteps.sameFrame (h : DualSteps s t) : s.SameFrame t := by
  induction h with
  | refl => exact .refl s
  | tail _ hstep ih => exact ih.trans hstep.sameFrame

end Solver

end ReactiveView
