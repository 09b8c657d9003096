import ReactiveView.Proofs.Simplex.Runs
import ReactiveView.Proofs.Simplex.Symbols

/-!
This module contains what a rejected constraint leaves behind, whatever the numbers are: symbols for
variables that the system had not met, and nothing else. Their values are zero, as they were before.
-/

namespace ReactiveView

namespace Solver

variable {α : Type} [Scalar α] {s t u : Solver α} {sort sort' : Symbol → Prop} {key : Handle}
  {c : Constraint α} {e : SolverError}

/-! ### Values -/

/-- A variable that has just got its symbol is zero, as it was. -/
theorem Enriches.value_eq (h : s.Enriches sort u sort') (hs : s.Stocks sort)
    (hrows : t.rows = s.rows) (hvars : t.vars = u.vars) (x : Variable) : t.value x = s.value x := by
  have hunfold (v : Solver α) : v.value x = (((v.vars.get? x).bind v.rows.get?).map
      Row.constant).getD Scalar.zero := by
    unfold Solver.value
    cases (v.vars.get? x).bind v.rows.get? <;> rfl
  rw [hunfold, hunfold, hrows, hvars]
  cases hy : u.vars.get? x with
  | none =>
    cases hx : s.vars.get? x with
    | none => rfl
    | some y => cases hy.symm.trans (h.vars_mono x y hx)
  | some y =>
    rcases h.vars x y hy with hx | ⟨hx, hid⟩
    · rw [hx]
    · rw [hx, Option.bind_some]
      cases hrow : s.rows.get? y with
      | none => rfl
      | some row =>
        exact absurd (hs.known y (hs.symbols.basic hrow).1) (Nat.not_lt.2 hid)

/-! ### Rejection -/

/-- Two systems that cannot be told apart but by the numbers of their next symbols. -/
structure SameSystem (s t : Solver α) : Prop where
  rows : t.rows = s.rows
  objective : t.objective = s.objective
  live : t.live = s.live
  edits : t.edits = s.edits
  autoSolve : t.autoSolve = s.autoSolve
  dirty : t.dirty = s.dirty
  idle : t.artificial = none
  value : ∀ x, t.value x = s.value x
  solution : ∀ x, t.solution.value x = s.solution.value x

/-- What comes of an addition: a rejection leaves the system as it was, and unless the rows break
down no artificial row remains. -/
structure Decides (s : Solver α) (r : Except SolverError Unit) (t : Solver α) : Prop where
  rejected : ∀ e, r = .error e → e.isInternal = false → s.SameSystem t
  idle : Ordinary r → t.artificial = none

theorem decides_of_isInternal (he : e.isInternal = true) : s.Decides (.error e) t where
  rejected e' he' hordinary := by
    cases he'
    rw [he] at hordinary
    cases hordinary
  idle hr := absurd he hr.not_isInternal

theorem SameSystem.decides (h : s.SameSystem t) : s.Decides (.error e) t :=
  ⟨fun _ _ _ => h, fun _ => h.idle⟩

theorem leads_followUp_idle (hidle : u.artificial = none) :
    Leads followUp.run u fun r t =>
      (∀ e, r = .error e → e.isInternal = true) ∧ t.artificial = none := by
  refine ((leads_followUp u).mono fun r t h => h.internal).and ?_
  refine leads_run_get_bind.2 ?_
  split
  · exact (reworks_minimise .main u).mono fun _ _ h => h.idle hidle
  · exact leads_run_modify.2 hidle

theorem Coherent.decides_addAs (h : s.Coherent) (hidle : s.artificial = none) (key : Handle)
    (c : Constraint α) : Leads (Solver.addAs key c).run s s.Decides := by
  obtain ⟨sort, hsort⟩ := h
  have hself : s.SameSystem s :=
    ⟨rfl, rfl, rfl, rfl, rfl, rfl, hidle, fun _ => rfl, fun _ => rfl⟩
  unfold Solver.addAs
  refine leads_run_get_bind.2 ?_
  split
  · exact leads_run_throw_bind.2 hself.decides
  · refine leads_run_get_bind.2 ?_
    obtain ⟨sort', hchart, hover, -⟩ := hsort.rowOf c
    have hkeeps := keeps_rowOf s c
    rcases hrow : s.rowOf c with ⟨row, tag, v⟩
    rw [hrow] at hchart hover hkeeps
    have hv : s.Enriches sort v sort' := hchart
    have hlists : s.Keeps v := hkeeps
    -- Rejection puts rows and objective back; all else has been left alone or is a name.
    have hsame {w : Solver α} (hrows : w.rows = s.rows) (hobj : w.objective = s.objective)
        (hw : v.Keeps w) (hauto : w.autoSolve = v.autoSolve) (hdirty : w.dirty = v.dirty)
        (hart : w.artificial = none) (hvars : w.vars = v.vars) : s.SameSystem w := by
      have hvalue := hv.value_eq hsort hrows hvars
      refine ⟨hrows, hobj, (hlists.trans hw).live, (hlists.trans hw).edits,
        hauto.trans hv.autoSolve, hdirty.trans hv.dirty, hart, hvalue, fun x => ?_⟩
      rw [value_solution, value_solution, hvalue]
    have henlist {w : Solver α} (hart : w.artificial = none) :
        Leads (modify (fun s => { s with live := s.live.insert key ⟨c, tag⟩ }) >>= fun _ =>
          followUp : Solving α Unit).run w s.Decides := by
      refine leads_run_modify_bind.2 ?_
      refine (leads_followUp_idle (u := { w with live := w.live.insert key ⟨c, tag⟩ }) hart).mono
        fun r t ht => ⟨?_, fun _ => ht.2⟩
      intro e he hordinary
      rw [ht.1 e he] at hordinary
      cases hordinary
    refine leads_run_set_bind.2 ?_
    dsimp only
    split
    · refine leads_run_set_bind.2 (leads_run_throw_bind.2 (SameSystem.decides ?_))
      exact hsame (w := { v with objective := s.objective }) hv.rows rfl ⟨rfl, rfl⟩ rfl rfl
        (hv.artificial.trans hidle) rfl
    · split
      · refine leads_run_set_bind.2 (henlist ?_)
        show v.artificial.map _ = none
        rw [hv.artificial, hidle]
        rfl
      · refine Leads.run_bind ((leads_addArtificial_tries hv.stocks hover).and
          (leads_addArtificial row v)) (fun success w hw => ?_) fun e w hw =>
            decides_of_isInternal (hw.2.internal e rfl)
        obtain ⟨htries, hcomputes⟩ := hw
        split
        · refine leads_run_modify_bind.2 (leads_run_throw_bind.2 (SameSystem.decides ?_))
          exact hsame (w := { w with rows := v.rows, objective := s.objective, infeasible := [] })
            hv.rows rfl ⟨hcomputes.live, hcomputes.edits⟩ htries.autoSolve htries.dirty
            (htries.idle _ rfl) htries.vars
        · exact henlist (htries.idle _ rfl)

/-! ### Reachable systems -/

/-- The operations that users call. -/
inductive Operation : Solving α Unit → Prop
  | add (c : Constraint α) : Operation (add c)
  | remove (c : Constraint α) : Operation (remove c)
  | addEdit (x : Variable) (strength : Strength α) : Operation (addEdit x strength)
  | removeEdit (x : Variable) : Operation (removeEdit x)
  | suggest (x : Variable) (v : α) : Operation (suggest x v)
  | setAutoSolve (enabled : Bool) : Operation (setAutoSolve enabled)
  | solve : Operation solve

/-- The systems that operations lead to, as long as none of them breaks down. -/
inductive Reached : Solver α → Prop
  | new : Reached Solver.new
  | step {s t : Solver α} {operation : Solving α Unit} {r : Except SolverError Unit}
      (h : Reached s) (hoperation : Operation operation) (hrun : s.perform operation = (r, t))
      (hr : Ordinary r) : Reached t

/-- Between operations no artificial row remains. -/
structure Idle (s : Solver α) : Prop where
  coherent : s.Coherent
  idle : s.artificial = none

theorem leads_solve_idle (hidle : s.artificial = none) :
    Leads solve.run s fun _ t => t.artificial = none := by
  refine leads_run_get_bind.2 ?_
  split
  · exact (reworks_minimise .main s).run_bind
      (fun _ _ h => leads_run_modify.2 (h.idle hidle)) fun _ _ h => h.idle hidle
  · exact leads_run_pure.2 hidle

theorem artificial_discharge (s : Solver α) (c : Constraint α) (tag : Tag) :
    (s.discharge c tag).artificial = s.artificial := by
  unfold Solver.discharge
  refine List.foldlRecOn tag.symbols _
    (motive := fun u : Solver α => u.artificial = s.artificial) rfl ?_
  intro u hu marker _
  split
  · exact hu
  · exact hu

theorem leads_removeAs_idle (key : Handle) (hidle : s.artificial = none) :
    Leads (removeAs key).run s fun _ t => t.artificial = none := by
  unfold Solver.removeAs
  refine leads_run_get_bind.2 ?_
  split
  · exact leads_run_throw.2 hidle
  · next c tag _ =>
    have hdischarge : ({ s with live := s.live.erase key }.discharge c tag).artificial = none :=
      (artificial_discharge ..).trans hidle
    have hfollow {u : Solver α} (hu : u.artificial = none) :
        Leads followUp.run u fun _ t => t.artificial = none :=
      (leads_followUp_idle hu).mono fun _ _ h => h.2
    refine leads_run_set_bind.2 ?_
    split
    · exact leads_run_set_bind.2 (hfollow hdischarge)
    · split
      · exact leads_run_throw_bind.2 hdischarge
      · split
        · exact leads_run_throw_bind.2 hdischarge
        · refine leads_run_set_bind.2 (hfollow ?_)
          show Option.map _ _ = none
          rw [hdischarge]
          rfl

theorem Idle.addEdit (h : s.Idle) (x : Variable) (strength : Strength α) :
    Leads (addEdit x strength).run s fun r t => Ordinary r → t.artificial = none := by
  unfold Solver.addEdit
  refine leads_run_get_bind.2 ?_
  split
  · exact leads_run_throw_bind.2 fun _ => h.idle
  · dsimp only
    split
    · exact leads_run_throw_bind.2 fun _ => h.idle
    · refine leads_run_get_bind.2 ((h.coherent.decides_addAs h.idle _ _).run_bind
        (fun _ t ht => ?_) fun e t ht hr => ht.idle hr)
      have hidle : t.artificial = none := ht.idle ordinary_ok
      refine leads_run_get_bind.2 ?_
      split
      · exact leads_run_throw.2 fun _ => hidle
      · exact leads_run_modify.2 fun _ => hidle

/-- Every operation that does not break down leaves the system fit for the next one. -/
theorem Idle.operate (h : s.Idle) {operation : Solving α Unit} (hoperation : Operation operation) :
    Leads operation.run s fun r t => Ordinary r → t.Idle := by
  have hcoherent : Leads operation.run s fun _ t => t.Coherent := by
    cases hoperation with
    | add c => exact coherent_addAs _ c s h.coherent
    | remove c => exact coherent_removeAs _ s h.coherent
    | addEdit x strength => exact coherent_addEdit x strength s h.coherent
    | removeEdit x => exact coherent_removeEdit x s h.coherent
    | suggest x v => exact coherent_suggest x v s h.coherent
    | setAutoSolve enabled => exact coherent_setAutoSolve enabled s h.coherent
    | solve => exact coherent_solve s h.coherent
  have hidle : Leads operation.run s fun r t => Ordinary r → t.artificial = none := by
    cases hoperation with
    | add c => exact (h.coherent.decides_addAs h.idle _ c).mono fun _ _ ht => ht.idle
    | remove c => exact (leads_removeAs_idle _ h.idle).mono fun _ _ ht _ => ht
    | addEdit x strength => exact h.addEdit x strength
    | removeEdit x =>
      unfold Solver.removeEdit
      refine leads_run_get_bind.2 ?_
      split
      · exact leads_run_throw.2 fun _ => h.idle
      · refine leads_run_modify_bind.2 ?_
        exact (leads_removeAs_idle (s := { s with edits := s.edits.erase x }) _ h.idle).mono
          fun _ _ ht _ => ht
    | suggest x v =>
      refine (leads_solve_idle h.idle).run_bind (fun _ t ht => ?_) fun _ _ ht _ => ht
      refine leads_run_get_bind.2 ?_
      split
      · exact leads_run_throw.2 fun _ => ht
      · refine leads_run_set_bind.2 ((reworks_mend _).mono fun _ u hu _ => hu.idle ?_)
        exact (reworks_shift _ _ _).idle ht
    | setAutoSolve enabled =>
      refine leads_run_modify_bind.2 ?_
      split
      · exact (leads_solve_idle (s := { s with autoSolve := enabled }) h.idle).mono
          fun _ _ ht _ => ht
      · exact leads_run_pure.2 fun _ => h.idle
    | solve => exact (leads_solve_idle h.idle).mono fun _ _ ht _ => ht
  exact (hcoherent.and hidle).mono fun _ _ ht hr => ⟨ht.1, ht.2 hr⟩

theorem Reached.idle (h : Reached s) : s.Idle := by
  induction h with
  | new => exact ⟨coherent_new, rfl⟩
  | step _ hoperation hrun hr ih => exact leads_of_run_eq hrun (ih.operate hoperation) hr

/-- A constraint that is refused as a duplicate or as unsatisfiable leaves the system as it was, on
any numbers: the same rows, objective, constraints, edit variables and modes, no artificial row, and
the same value of every variable. -/
theorem sameSystem_of_rejected (h : Reached s)
    (hadd : s.perform (add c) = (.error e, t))
    (he : e = .duplicateConstraint ∨ e = .unsatisfiable) : s.SameSystem t := by
  have hdecides : s.Decides (.error e) t :=
    leads_of_run_eq hadd (h.idle.coherent.decides_addAs h.idle.idle _ c)
  refine hdecides.rejected e rfl ?_
  rcases he with rfl | rfl
  · rfl
  · rfl

theorem Runs.reached {allowed : Solver ℚ → Request → Prop} {requests : List Request} {s : Solver ℚ}
    (h : Runs allowed requests s) : Reached s := by
  induction h with
  | start => exact .new
  | @step _ _ _ request _ _ hstep ih =>
    obtain ⟨r, hrun, hr⟩ := hstep
    refine ih.step ?_ hrun hr
    cases request with
    | add c => exact .add c
    | remove c => exact .remove c
    | addEdit x strength => exact .addEdit x strength
    | removeEdit x => exact .removeEdit x
    | suggest x v => exact .suggest x v
    | setAutoSolve enabled => exact .setAutoSolve enabled
    | solve => exact .solve

/-- A wish and a bound, both pending. -/
def pendingRequests : List Request :=
  let x : LinearExpr ℚ := .ofVariable ⟨0⟩
  [.setAutoSolve false, .add (Constraint.make 0 (x.minus (.ofConstant 5)) .equal .weak),
    .add (Constraint.between 1 x .atLeast (.ofConstant 10))]

/-- Two bounds on a variable that the system has not met, one of which contradicts what is there. -/
def contradiction : Constraint ℚ :=
  let x : LinearExpr ℚ := .ofVariable ⟨0⟩
  Constraint.between 2 x .atMost (.ofConstant 4)

/-- The contradiction is found after pivots of the artificial phase, and a symbol has been issued. -/
theorem sameSystem_of_rejected_pending :
    ∃ s t : Solver ℚ, Reached s ∧ s.dirty = true ∧
      s.perform (add contradiction) = (.error .unsatisfiable, t) ∧ s.nextId < t.nextId ∧
      s.SameSystem t := by
  have hserved : (served pendingRequests).map (fun s => (s.dirty, s.nextId,
      decide ((s.perform (add contradiction)).1 = .error .unsatisfiable),
      (s.perform (add contradiction)).2.nextId)) = some (true, 6, true, 8) := by decide +kernel
  obtain ⟨s, hs, hvalue⟩ := Option.map_eq_some_iff.1 hserved
  have hruns : Runs Anything pendingRequests s := runs_of_served (fun _ _ _ => trivial) hs
  simp only [Prod.mk.injEq, decide_eq_true_eq] at hvalue
  obtain ⟨hdirty, hnext, hanswer, hnext'⟩ := hvalue
  have hadd : s.perform (add contradiction)
      = (.error .unsatisfiable, (s.perform (add contradiction)).2) := by rw [← hanswer]
  exact ⟨s, _, hruns.reached, hdirty, hadd, by omega,
    sameSystem_of_rejected hruns.reached hadd (.inr rfl)⟩

end Solver

end ReactiveView
