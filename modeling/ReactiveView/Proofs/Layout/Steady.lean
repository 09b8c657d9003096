import Mathlib
import ReactiveView.Proofs.Layout.Batches
import ReactiveView.Proofs.Layout.Probes
import ReactiveView.Proofs.Simplex.Requirements

/-!
This module contains the invariant of a layout between two requests: its solver is consistent and no
variable is edited. Every request that does not end in a breakdown keeps it, also one that is refused
half way. A solution under edits meets the required inequalities, whatever else the solver has.
-/

namespace ReactiveView

namespace Solver

/-- The system is consistent, and no variable is edited. -/
structure Steady (s : Solver ℚ) : Prop where
  consistent : s.Consistent
  edits : s.edits = Table.empty

/-- Values of the variables meet the required inequalities of a system. -/
def Confines (s : Solver ℚ) (values : Variable → ℚ) : Prop :=
  ∀ key lv, s.live.get? key = some lv → lv.constraint.IsRequired →
    lv.constraint.relation ≠ .equal → lv.constraint.Holds values

variable {s t u : Solver ℚ} {x y : Variable} {xs : List Variable} {c : Constraint ℚ}
variable {cs old new : List (Constraint ℚ)} {strength : Strength ℚ} {e : SolverError}

theorem Consistent.confines (hs : s.Consistent) : s.Confines s.value := by
  intro key lv hlv hreq hrel
  exact (hs.valid.sound.holds_iff hlv hreq).2 fun heq => absurd heq hrel

/-! ### Batches -/

theorem steady_new : Steady (Solver.new : Solver ℚ) := ⟨consistent_new, rfl⟩

section Steady

variable (h : s.Steady)
include h

theorem Steady.leads_add (c : Constraint ℚ) :
    Leads (add c).run s fun r t => Ordinary r → t.Steady :=
  fun hr => ⟨h.consistent.add rfl hr, (leads_addAs _ c s).edits.trans h.edits⟩

theorem Steady.leads_remove (c : Constraint ℚ) :
    Leads (remove c).run s fun r t => Ordinary r → t.Steady :=
  fun hr => ⟨h.consistent.remove rfl hr, (leads_removeAs _ s).edits.trans h.edits⟩

theorem Steady.leads_setAutoSolve (enabled : Bool) :
    Leads (setAutoSolve enabled).run s fun r t => Ordinary r → t.Steady :=
  fun hr => ⟨h.consistent.setAutoSolve rfl hr,
    (Solver.leads_setAutoSolve enabled s).edits.trans h.edits⟩

/-- Without the solution at every step nothing breaks down. -/
theorem Steady.setAutoSolve_false : (s.perform (setAutoSolve false)).2.Steady :=
  h.leads_setAutoSolve false ordinary_ok

end Steady

theorem Steady.leads_addAll (h : s.Steady) (cs : List (Constraint ℚ)) :
    Leads (Layout.addAll cs).run s fun r t => Ordinary r → t.Steady := by
  induction cs generalizing s with
  | nil => exact leads_run_pure.2 fun _ => h
  | cons c rest ih =>
    exact (h.leads_add c).run_bind (fun _ t ht => ih (ht ordinary_ok)) fun _ _ ht => ht

theorem Steady.leads_removeAll (h : s.Steady) (cs : List (Constraint ℚ)) :
    Leads (Layout.removeAll cs).run s fun r t => Ordinary r → t.Steady := by
  induction cs generalizing s with
  | nil => exact leads_run_pure.2 fun _ => h
  | cons c rest ih =>
    exact (h.leads_remove c).run_bind (fun _ t ht => ih (ht ordinary_ok)) fun _ _ ht => ht

/-- A system after a batch, whether all steps were taken or not. -/
abbrev SteadyAfter (p : Except SolverError Unit × Nat × Nat × Solver ℚ) : Prop :=
  Ordinary p.1 → p.2.2.2.Steady

theorem Steady.adding (h : s.Steady) (removed added : Nat) :
    SteadyAfter (Layout.applyBatch.adding removed added new s) := by
  induction new generalizing s added with
  | nil =>
    unfold Layout.applyBatch.adding
    exact h.leads_setAutoSolve true
  | cons c rest ih =>
    unfold Layout.applyBatch.adding
    rcases hadd : s.perform (Solver.add c) with ⟨e | _, t⟩
    · exact leads_of_run_eq hadd (h.leads_add c)
    · exact ih (leads_of_run_eq hadd (h.leads_add c) ordinary_ok) _

theorem Steady.removing (h : s.Steady) (old new : List (Constraint ℚ)) (removed : Nat) :
    SteadyAfter (Layout.applyBatch.removing new removed old s) := by
  induction old generalizing s removed with
  | nil =>
    unfold Layout.applyBatch.removing
    exact h.adding removed 0
  | cons c rest ih =>
    unfold Layout.applyBatch.removing
    rcases hremove : s.perform (Solver.remove c) with ⟨e | _, t⟩
    · exact leads_of_run_eq hremove (h.leads_remove c)
    · exact ih (leads_of_run_eq hremove (h.leads_remove c) ordinary_ok) _

theorem Steady.leads_revertBatch (h : s.Steady) (removed added : Nat) :
    Leads (Layout.revertBatch old new removed added).run s fun r t => Ordinary r → t.Steady := by
  refine (h.leads_removeAll _).run_bind (fun _ t ht => ?_) fun _ _ ht => ht
  refine ((ht ordinary_ok).leads_addAll _).run_bind (fun _ u hu => ?_) fun _ _ hu => hu
  exact (hu ordinary_ok).leads_setAutoSolve true

/-! ### Edits -/

theorem Edits.get?_live (h : s.Edits x t) {key : Handle} {lv : Live ℚ}
    (hlv : s.live.get? key = some lv) : t.live.get? key = some lv := by
  obtain ⟨edit, -, -, -, hlive⟩ := h
  rw [← hlive] at hlv
  exact (Table.of_get?_erase hlv).2

theorem EditsAll.confines {values : Variable → ℚ} (h : s.EditsAll xs t) (hconfines : t.Confines values) :
    s.Confines values := by
  induction h with
  | nil hkeeps =>
    intro key lv hlv
    exact hconfines key lv (hkeeps.live ▸ hlv)
  | cons _ hedits ih => exact ih fun key lv hlv => hconfines key lv (hedits.get?_live hlv)

theorem Edits.get?_edits (h : s.Edits x t) (hs : s.edits = Table.empty) (hne : x ≠ y) :
    t.edits.get? y = none := by
  obtain ⟨edit, -, hrest, -⟩ := h
  have hnone : (t.edits.erase x).get? y = none := by rw [hrest, hs]; rfl
  rwa [Table.get?_erase, if_neg hne.symm] at hnone

/-- A variable that is not edited yet is refused only for the sake of the strength. -/
theorem Consistent.addEdit_refused (hs : s.Consistent) (hnone : s.edits.get? x = none)
    (h : s.perform (addEdit x strength) = (.error e, t)) (hr : Ordinary (.error e)) :
    t = s ∧ strength.clipped.isRequired = true := by
  cases hs.performs_addEdit h with
  | duplicate hedit => exact absurd hnone hedit
  | required _ hrequired => exact ⟨rfl, hrequired⟩
  | refused _ hsoft hadds =>
    exfalso
    cases hadds with
    | duplicate hlive =>
      obtain ⟨lv, hlv⟩ := Option.ne_none_iff_exists'.1 hlive
      exact absurd (hs.edited.known _ lv hlv) (lt_irrefl _)
    | refused _ _ hrequired => exact editConstraint_not_isRequired hsoft hrequired
    | joined _ _ _ hfollows => exact hr.not_isInternal (hfollows.isInternal rfl)
    | failed _ _ _ hend => exact hr.not_isInternal hend.isInternal

theorem Consistent.addEdit_soft (hs : s.Consistent)
    (h : s.perform (addEdit x strength) = (.ok (), t)) : strength.clipped.isRequired = false := by
  cases hs.performs_addEdit h with
  | added _ hsoft => exact hsoft

theorem Consistent.editAll (hs : s.Consistent) (strength : Strength ℚ)
    (edits : List (Variable × ℚ)) (added : List Variable) :
    Ordinary (Layout.editAll strength edits added s).1 →
      (Layout.editAll strength edits added s).2.2.Consistent := by
  induction edits generalizing s added with
  | nil => exact fun _ => hs
  | cons edit rest ih =>
    obtain ⟨x, v⟩ := edit
    unfold Layout.editAll
    rcases hadd : s.perform (addEdit x strength) with ⟨e | _, t⟩
    · exact hs.addsEdit (hs.performs_addEdit hadd)
    · have ht := hs.addsEdit (hs.performs_addEdit hadd) ordinary_ok
      dsimp only
      rcases hsuggest : t.perform (Solver.suggest x v) with ⟨e | _, u⟩
      · exact ht.suggest hsuggest
      · exact ih (ht.suggest hsuggest ordinary_ok) _

/-- If two variables cannot be edited, neither is. -/
theorem Steady.editAll_error (h : s.Steady) (hne : x ≠ y) {v w : ℚ} {added : List Variable}
    (heq : Layout.editAll strength [(x, v), (y, w)] [] s = (.error e, added, t))
    (hr : Ordinary (.error e)) : added = [] ∧ t = s := by
  unfold Layout.editAll at heq
  rcases hadd : s.perform (addEdit x strength) with ⟨e' | _, u⟩
  · rw [hadd] at heq
    cases heq
    refine ⟨rfl, (h.consistent.addEdit_refused ?_ hadd hr).1⟩
    rw [h.edits]
    rfl
  · -- The first variable is edited, so the strength is not to blame.
    exfalso
    have hu := h.consistent.addsEdit (h.consistent.performs_addEdit hadd) ordinary_ok
    have hedits := (leads_of_run_eq hadd (leads_addEdit x strength s)).1 rfl
    rw [hadd] at heq
    dsimp only at heq
    rcases hsuggest : u.perform (suggest x v) with ⟨e' | _, u'⟩
    · rw [hsuggest] at heq
      cases heq
      exact hr.not_isInternal ((leads_of_run_eq hsuggest (leads_suggest hedits v)).2 _ rfl)
    · have hu' := hu.suggest hsuggest ordinary_ok
      have hedits' := (leads_of_run_eq hsuggest (leads_suggest hedits v)).1
      rw [hsuggest] at heq
      dsimp only at heq
      unfold Layout.editAll at heq
      rcases hadd' : u'.perform (addEdit y strength) with ⟨e' | _, w'⟩
      · rw [hadd'] at heq
        cases heq
        have hrequired := (hu'.addEdit_refused (hedits'.get?_edits h.edits hne) hadd' hr).2
        rw [h.consistent.addEdit_soft hadd] at hrequired
        cases hrequired
      · have hedits'' := (leads_of_run_eq hadd' (leads_addEdit y strength u')).1 rfl
        rw [hadd'] at heq
        dsimp only at heq
        rcases hsuggest' : w'.perform (suggest y w) with ⟨e' | _, w''⟩
        · rw [hsuggest'] at heq
          cases heq
          exact hr.not_isInternal ((leads_of_run_eq hsuggest' (leads_suggest hedits'' w)).2 _ rfl)
        · rw [hsuggest'] at heq
          cases heq

theorem Consistent.leads_removeEdits (ht : t.Consistent) (h : s.EditsAll xs t) :
    Leads (xs.forM Solver.removeEdit).run t fun r u =>
      r = .ok () → u.Consistent ∧ u.edits = s.edits := by
  induction xs generalizing t with
  | nil =>
    cases h with
    | nil hkeeps => exact leads_run_pure.2 fun _ => ⟨ht, hkeeps.edits⟩
  | cons x rest ih =>
    cases h with
    | cons hrest hedits =>
      have hremove : Leads (Solver.removeEdit x).run t fun r u => Ordinary r → u.Consistent :=
        fun hr => ht.removeEdit rfl hr
      refine ((leads_removeEdit hedits).and hremove).run_bind (fun _ u hu => ?_) fun _ _ _ => nofun
      exact ih (hu.2 ordinary_ok) (hrest.congr hu.1.toKeeps)

end Solver

namespace Layout

open Solver

variable {l : Layout ℚ} {old new cs : List (Constraint ℚ)} {x y : Variable} {strength : Strength ℚ}

/-- The solver, if there is one, is consistent, and no variable is edited. -/
def Steady (l : Layout ℚ) : Prop := ∀ s, l.solver = some s → s.Steady

theorem steady_of_none (hnone : l.solver = none) : l.Steady := fun _ hs => nomatch hnone.symm.trans hs

theorem steady_of_some {s : Solver ℚ} (h : s.Steady) (hs : l.solver = some s) : l.Steady :=
  fun _ ht => by cases hs.symm.trans ht; exact h

theorem ordinary_of_intact {β : Type} {e : SolverError}
    (h : Intact (.error (.solver e) : Except LayoutError β)) : Ordinary (.error e) :=
  fun _ he => by cases he; exact h

/-- A layout after a request, unless the solver broke down. -/
abbrev SteadyAfter {β : Type} (p : Except LayoutError β × Layout ℚ) : Prop := Intact p.1 → p.2.Steady

/-- What is made of a result does not matter, nor does the guard. -/
theorem SteadyAfter.map {β γ : Type} {p : Except LayoutError β × Layout ℚ}
    {q : Except LayoutError γ × Layout ℚ} (h : SteadyAfter p) (f : β → γ) (hresult : q.1 = f <$> p.1)
    (hsolver : q.2.solver = p.2.solver) : SteadyAfter q := by
  intro hq s hs
  refine h ?_ s (hsolver ▸ hs)
  rw [hresult] at hq
  rcases p with ⟨e | b, l'⟩
  · cases e <;> exact hq
  · rfl

theorem Steady.setUp (h : l.Steady) (cs : List (Constraint ℚ)) : (l.setUp cs).2.2.Steady := by
  have hload : Leads (Solver.setAutoSolve false >>= fun _ => addAll cs >>= fun _ =>
      Solver.setAutoSolve true : Solving ℚ Unit).run Solver.new fun r t => Ordinary r → t.Steady := by
    refine (steady_new.leads_setAutoSolve false).run_bind (fun _ t ht => ?_) fun _ _ ht => ht
    refine ((ht ordinary_ok).leads_addAll cs).run_bind (fun _ u hu => ?_) fun _ _ hu => hu
    exact (hu ordinary_ok).leads_setAutoSolve true
  unfold Layout.setUp
  split
  · exact h
  · next hnew =>
    dsimp only
    rcases hrun : Solver.new.perform _ with ⟨e | _, t⟩
    · exact h
    · exact steady_of_some (leads_of_run_eq hrun hload ordinary_ok) rfl

theorem Steady.replace (h : l.Steady) (hintact : Intact (l.replace old new).1) :
    (l.replace old new).2.2.Steady := by
  unfold Layout.replace swap at hintact ⊢
  rcases hs : l.solver with _ | s
  · exact steady_of_none hs
  · rw [hs] at hintact
    have hbatch := (h s hs).setAutoSolve_false.removing old new 0
    dsimp only at hintact ⊢
    rcases happly : applyBatch old new (s.perform (Solver.setAutoSolve false)).2
      with ⟨cause | _, removed, added, t⟩
    · have ht : Ordinary (.error cause) → t.Steady := by rwa [← applyBatch, happly] at hbatch
      rw [happly] at hintact
      dsimp only at hintact ⊢
      rcases hrevert : t.perform (revertBatch old new removed added) with ⟨rollback | _, u⟩
      · exact steady_of_none rfl
      · rw [hrevert] at hintact
        have hordinary := ordinary_of_intact hintact
        exact steady_of_some
          (leads_of_run_eq hrevert ((ht hordinary).leads_revertBatch _ _) ordinary_ok) rfl
    · have ht : Ordinary (.ok ()) → t.Steady := by rwa [← applyBatch, happly] at hbatch
      exact steady_of_some (ht ordinary_ok) rfl

/-- A solution under two edits leaves no edit behind, and it meets the required inequalities. -/
theorem Steady.solveWith (h : l.Steady) (operation : String) (hne : x ≠ y) (v w : ℚ)
    (strength : Strength ℚ) :
    SteadyAfter (l.solveWith operation [(x, v), (y, w)] strength) ∧
    ∀ sol, (l.solveWith operation [(x, v), (y, w)] strength).1 = .ok sol →
      ∃ s, l.solver = some s ∧ s.Confines sol.value := by
  unfold Layout.solveWith
  rcases hs : l.solver with _ | s
  · exact ⟨fun _ => steady_of_none hs, nofun⟩
  · have hsteady := h s hs
    have hconsistent := hsteady.consistent.editAll strength [(x, v), (y, w)] []
    have hedits := (editAll_spec strength [(x, v), (y, w)] (EditsAll.nil (Keeps.refl s))).1
    dsimp only
    rcases hedit : editAll strength [(x, v), (y, w)] [] s with ⟨outcome, added, t⟩
    rw [hedit] at hconsistent hedits
    dsimp only at hconsistent hedits ⊢
    rcases hclean : t.perform (added.forM Solver.removeEdit) with ⟨cleanup, u⟩
    rcases outcome with e | _
    · refine ⟨fun hintact => ?_, nofun⟩
      obtain ⟨rfl, rfl⟩ := hsteady.editAll_error hne hedit (ordinary_of_intact hintact)
      cases hclean
      exact steady_of_some hsteady rfl
    · have ht := hconsistent ordinary_ok
      have hadded := hedits rfl
      rcases cleanup with e | _
      · refine ⟨fun hintact => ?_, nofun⟩
        have hinternal := (leads_of_run_eq hclean (leads_removeEdits hadded)).1 e rfl
        exact absurd hinternal (ordinary_of_intact hintact).not_isInternal
      · obtain ⟨hu, huedits⟩ := leads_of_run_eq hclean (ht.leads_removeEdits hadded) rfl
        refine ⟨fun _ => steady_of_some ⟨hu, huedits.trans hsteady.edits⟩ rfl, fun sol hsol => ?_⟩
        cases hsol
        refine ⟨s, rfl, hadded.confines ?_⟩
        have hvalue : t.solution.value = t.value := funext (value_solution t)
        rw [hvalue]
        exact ht.confines

theorem Steady.minSize (h : l.Steady) (hne : x ≠ y) (strength : Strength ℚ) :
    SteadyAfter (l.minSize x y strength) := by
  unfold Layout.minSize
  dsimp only
  refine (h.solveWith "get min size" hne Scalar.zero Scalar.zero strength).1.map
    (fun sol => ⟨sol.value x, sol.value y⟩) ?_ ?_ <;>
    rcases l.solveWith _ _ strength with ⟨_ | _, l'⟩ <;> rfl

theorem Steady.maxSize (h : l.Steady) (hne : x ≠ y) (strength : Strength ℚ) :
    SteadyAfter (l.maxSize x y strength) := by
  unfold Layout.maxSize
  dsimp only
  refine (h.solveWith "get max size" hne probeSentinel probeSentinel strength).1.map
    (fun sol => ⟨boundOf (sol.value x), boundOf (sol.value y)⟩) ?_ ?_ <;>
    rcases l.solveWith _ _ strength with ⟨_ | _, l'⟩ <;> rfl

/-- A resize whose receiver takes something out of the solution. -/
theorem Steady.resize {β : Type} (h : l.Steady) (hne : x ≠ y) (size : Size ℚ)
    (strength : Strength ℚ) (receive : Solution ℚ → β) :
    SteadyAfter (l.resize x y size strength fun sol l => (receive sol, l)) ∧
    ∀ b, (l.resize x y size strength fun sol l => (receive sol, l)).1 = .ok (some b) →
      ∃ sol s, b = receive sol ∧ l.solver = some s ∧ s.Confines sol.value := by
  unfold Layout.resize
  rcases l.guard.enter with ⟨_ | _, guard⟩
  · exact ⟨fun _ => h, nofun⟩
  · have hentered : Steady { l with guard } := h
    have hsolve := hentered.solveWith "layout" hne size.width size.height strength
    dsimp only
    generalize { l with guard }.solveWith "layout" _ strength = p at hsolve ⊢
    obtain ⟨hsteady, hconfines⟩ := hsolve
    refine ⟨hsteady.map (fun sol => some (receive sol)) ?_ ?_, fun b hb => ?_⟩
    · rcases p with ⟨_ | _, l'⟩ <;> rfl
    · rcases p with ⟨_ | _, l'⟩ <;> rfl
    · rcases p with ⟨e | sol, l'⟩
      · cases hb
      · obtain ⟨s, hs, hsol⟩ := hconfines sol rfl
        cases hb
        exact ⟨sol, s, rfl, hs, hsol⟩

end Layout

end ReactiveView
