import Mathlib
import ReactiveView.Proofs.Simplex.Operations

/-!
This module contains runs: lists of requests to a system that starts empty, in any order. After each
of them the tableau represents the constraints that are live.
-/

namespace ReactiveView

/--
What a user asks of a system.
-/
inductive Request where
  /-- Add a constraint. -/
  | add (c : Constraint ℚ)
  /-- Remove a constraint. -/
  | remove (c : Constraint ℚ)
  /-- Make a variable editable. -/
  | addEdit (x : Variable) (strength : Strength ℚ)
  /-- End the editing of a variable. -/
  | removeEdit (x : Variable)
  /-- Suggest a value. -/
  | suggest (x : Variable) (v : ℚ)
  /-- Switch minimisation after every change on or off. -/
  | setAutoSolve (enabled : Bool)
  /-- Minimise if changes are pending. -/
  | solve

namespace Request

/-- The operation that answers a request. -/
def operation : Request → Solving ℚ Unit
  | add c => Solver.add c
  | remove c => Solver.remove c
  | addEdit x strength => Solver.addEdit x strength
  | removeEdit x => Solver.removeEdit x
  | suggest x v => Solver.suggest x v
  | setAutoSolve enabled => Solver.setAutoSolve enabled
  | solve => Solver.solve

/-- What a request makes of the values suggested last. A variable that is not edited has none; one
that has just become editable has zero. -/
def record (suggested : Variable → Option ℚ) : Request → Variable → Option ℚ
  | addEdit x strength =>
    if suggested x = none ∧ strength.clipped.isRequired = false then
      Function.update suggested x (some 0)
    else suggested
  | removeEdit x => Function.update suggested x none
  | suggest x v =>
    if suggested x = none then suggested else Function.update suggested x (some v)
  | _ => suggested

end Request

/-- The values suggested last in a list of requests. -/
def suggested (requests : List Request) : Variable → Option ℚ :=
  requests.foldl Request.record fun _ => none

namespace Solver

/-- A request made of a system, and what becomes of the system, unless it breaks down. -/
def Steps (s : Solver ℚ) (request : Request) (t : Solver ℚ) : Prop :=
  ∃ r, s.perform request.operation = (r, t) ∧ Ordinary r

/-- The systems that a list of requests can lead to, each request made where it is allowed. -/
inductive Runs (allowed : Solver ℚ → Request → Prop) : List Request → Solver ℚ → Prop
  | start : Runs allowed [] Solver.new
  | step {requests : List Request} {s t : Solver ℚ} {request : Request}
      (hruns : Runs allowed requests s) (hallowed : allowed s request)
      (hstep : s.Steps request t) : Runs allowed (requests ++ [request]) t

/-- Any request is allowed anywhere. -/
def Anything (_ : Solver ℚ) (_ : Request) : Prop := True

variable {allowed : Solver ℚ → Request → Prop} {requests : List Request} {request : Request}
variable {s t : Solver ℚ} {x : Variable} {key : Handle} {lv : Live ℚ}

theorem Runs.anything (h : Runs allowed requests s) : Runs Anything requests s := by
  induction h with
  | start => exact .start
  | step _ _ hstep ih => exact .step ih trivial hstep

/-- What a request makes of a system; nothing if the system breaks down. -/
def answered (s : Solver ℚ) (request : Request) : Option (Solver ℚ) :=
  match s.perform request.operation with
  | (.ok (), t) => some t
  | (.error e, t) => if e.isInternal then none else some t

/-- What a list of requests makes of the empty system. -/
def served (requests : List Request) : Option (Solver ℚ) := requests.foldlM answered Solver.new

theorem answered_eq_some_iff : s.answered request = some t ↔ s.Steps request t := by
  unfold answered Steps
  rcases s.perform request.operation with ⟨e | _, u⟩
  · cases he : e.isInternal with
    | true =>
      refine ⟨fun h => by simp [he] at h, ?_⟩
      rintro ⟨r, heq, hr⟩
      cases heq
      exact absurd he hr.not_isInternal
    | false =>
      constructor
      · intro h
        simp only [he, Bool.false_eq_true, if_false, Option.some.injEq] at h
        refine ⟨_, by rw [h], ?_⟩
        intro e' he'
        cases he'
        exact he
      · rintro ⟨r, heq, -⟩
        cases heq
        simp [he]
  · constructor
    · intro h
      cases h
      exact ⟨_, rfl, ordinary_ok⟩
    · rintro ⟨r, heq, -⟩
      cases heq
      rfl

theorem served_append :
    served (requests ++ [request]) = (served requests).bind (answered · request) := by
  unfold served
  simp

/-- Runs can be computed. -/
theorem runs_of_served (hallowed : ∀ u, ∀ request ∈ requests, allowed u request)
    (h : served requests = some s) : Runs allowed requests s := by
  induction requests using List.reverseRecOn generalizing s with
  | nil =>
    cases h
    exact .start
  | append_singleton requests request ih =>
    rw [served_append] at h
    obtain ⟨u, hu, hstep⟩ := Option.bind_eq_some_iff.1 h
    refine .step (ih ?_ hu) (hallowed u request (by simp)) (answered_eq_some_iff.1 hstep)
    intro w request' hmem
    exact hallowed w request' (List.mem_append_left _ hmem)

/-! ### The invariant -/

theorem consistent_new : Consistent (Solver.new : Solver ℚ) where
  valid := by
    refine ⟨⟨⟨?_, rfl, ?_, ?_, ?_, ⟨0, ?_⟩⟩, ?_, ?_, ?_⟩, ?_⟩
    · refine ⟨Table.Ascending.empty, ?_, ?_, ?_, ?_⟩
      · rintro row (⟨b, hb⟩ | rfl | hart)
        · cases hb
        · exact .ofConstant 0
        · cases hart
      · rintro row b - ⟨row', hrow'⟩
        cases hrow'
      · rintro row x (⟨b, hb⟩ | rfl | hart) hx
        · cases hb
        · exact absurd rfl hx
        · cases hart
      · rintro b ⟨row, hrow⟩
        cases hrow
    · refine ⟨?_, ?_, ?_⟩
      · intro x y hy
        cases hy
      · intro x y hy
        cases hy
      · intro x x' y hy
        cases hy
    · refine ⟨Table.Ascending.empty, ?_, ?_, ?_, ?_, ?_⟩
      · intro h lv hlv
        cases hlv
      · intro h lv y hlv
        cases hlv
      · intro h lv hlv
        cases hlv
      · intro h lv h' lv' hlv
        cases hlv
      · intro h lv hlv
        cases hlv
    · intro value
      constructor
      · intro _ h lv hlv
        cases hlv
      · intro _ b row hrow
        cases hrow
    · intro value _
      simp [cost, new, Table.empty, Row.eval_ofConstant]
    · rintro row (⟨b, hb, -⟩ | rfl | hart) x hx
      · cases hb
      · exact absurd rfl hx
      · cases hart
    · intro b row hrow
      cases hrow
    · intro x hx
      cases hx
    · intro _ x _
      exact le_rfl
  edited := by
    refine ⟨Table.Ascending.empty, ?_, ?_, ?_, ?_⟩
    · intro x edit hedit
      cases hedit
    · intro x edit hedit
      cases hedit
    · intro x edit x' edit' hedit
      cases hedit
    · intro n lv hlv
      cases hlv

theorem pinned_new : Pinned (Solver.new : Solver ℚ) := by
  intro b row hrow
  cases hrow

theorem Consistent.steps (hs : s.Consistent) (h : s.Steps request t) : t.Consistent := by
  obtain ⟨r, hperform, hr⟩ := h
  cases request with
  | add c => exact hs.add hperform hr
  | remove c => exact hs.remove hperform hr
  | addEdit x strength => exact hs.addsEdit (hs.performs_addEdit hperform) hr
  | removeEdit x => exact hs.removeEdit hperform hr
  | suggest x v => exact hs.suggest hperform hr
  | setAutoSolve enabled => exact hs.setAutoSolve hperform hr
  | solve => exact hs.solve hperform hr

theorem Runs.consistent (h : Runs allowed requests s) : s.Consistent := by
  induction h with
  | start => exact consistent_new
  | step _ _ hstep ih => exact ih.steps hstep

/-! ### The values suggested last -/

/-- The targets of the edit variables. -/
def targets (s : Solver ℚ) (x : Variable) : Option ℚ := (s.edits.get? x).map Edit.target

theorem targets_congr (hedits : t.edits = s.edits) : t.targets = s.targets := by
  unfold targets
  rw [hedits]

theorem targets_eq_none_iff : s.targets x = none ↔ s.edits.get? x = none := by
  unfold targets
  rw [Option.map_eq_none_iff]

theorem targets_insert {edit : Edit ℚ} (hedits : t.edits = s.edits.insert x edit) :
    t.targets = Function.update s.targets x (some edit.target) := by
  funext y
  unfold targets
  rw [hedits, Table.get?_insert, Function.update_apply]
  split <;> rfl

theorem targets_erase (hedits : t.edits = s.edits.erase x) :
    t.targets = Function.update s.targets x none := by
  funext y
  unfold targets
  rw [hedits, Table.get?_erase, Function.update_apply]
  split <;> rfl

/-- The constraint of an edit variable is never refused. -/
theorem Consistent.adds_edit_ok (hs : s.Consistent) {strength : Strength ℚ} {e : SolverError}
    (hsoft : strength.clipped.isRequired = false)
    (h : Adds s (.edit s.nextId) (s.editConstraint x strength) (.error e) t) :
    e.isInternal = true := by
  cases h with
  | duplicate hlive =>
    obtain ⟨lv, hlv⟩ := Option.ne_none_iff_exists'.1 hlive
    exact absurd (hs.edited.known _ lv hlv) (lt_irrefl _)
  | refused _ _ hrequired => exact absurd hrequired (editConstraint_not_isRequired hsoft)
  | joined _ _ _ hfollows => exact hfollows.isInternal rfl
  | failed _ _ _ hend => exact hend.isInternal

theorem Consistent.targets_steps (hs : s.Consistent) (h : s.Steps request t) :
    t.targets = request.record s.targets := by
  obtain ⟨r, hperform, hr⟩ := h
  cases request with
  | add c => exact targets_congr ((hs.performs_addAs hperform).lists hr).1
  | remove c => exact targets_congr (perform_removeAs hs.valid.sound.models hperform).lists.1
  | addEdit x strength =>
    unfold Request.record
    dsimp only
    cases hs.performs_addEdit hperform with
    | duplicate hedit =>
      rw [if_neg]
      rintro ⟨hnone, -⟩
      exact hedit (targets_eq_none_iff.1 hnone)
    | required _ hrequired =>
      rw [if_neg]
      rintro ⟨-, hsoft⟩
      rw [hrequired] at hsoft
      cases hsoft
    | refused _ hsoft hadds => exact absurd (hs.adds_edit_ok hsoft hadds) hr.not_isInternal
    | @added u tag hnone hsoft hadds hlv =>
      rw [if_pos ⟨targets_eq_none_iff.2 hnone, hsoft⟩, ← targets_congr (hadds.lists hr).1]
      have hinsert : ∀ edit : Edit ℚ, targets { u with edits := u.edits.insert x edit }
          = Function.update u.targets x (some edit.target) := fun _ => targets_insert rfl
      exact hinsert _
  | removeEdit x =>
    unfold Request.record
    dsimp only
    cases hedit : s.edits.get? x with
    | none =>
      have hremove := perform_removeEdit_eq s x
      rw [hedit] at hremove
      have heq : s = t := congrArg Prod.snd (hremove.symm.trans hperform)
      rw [← heq, ← targets_eq_none_iff.2 hedit, Function.update_eq_self]
    | some edit => exact targets_erase (hs.removes_of_removeEdit hedit hperform).lists.1
  | suggest x v =>
    unfold Request.record
    dsimp only
    cases hs.performs_suggest hperform with
    | unsolved hsolves => exact absurd (hsolves.isInternal rfl) hr.not_isInternal
    | unknown hsolves hnone =>
      rw [hsolves.sameNames.edits] at hnone
      rw [if_pos (targets_eq_none_iff.2 hnone), targets_congr hsolves.sameNames.edits]
    | @mends u t edit r hsolves hedit hend =>
      have hret := (hs.solves hsolves).1.retargets hedit v
      have hold := targets_congr hsolves.sameNames.edits
      rw [if_neg]
      · cases hend with
        | limit => cases hr _ rfl
        | stuck => cases hr _ rfl
        | mended hsteps =>
          rw [← hold]
          exact targets_insert (hsteps.sameFrame.edits.trans hret.frame.edits)
      · rw [targets_eq_none_iff, ← hsolves.sameNames.edits, hedit]
        simp
  | setAutoSolve enabled =>
    have hset : s.perform (Solver.setAutoSolve enabled) = (r, t) := hperform
    rw [perform_setAutoSolve_eq] at hset
    split at hset
    · have hsolves := perform_solve hs.congr_autoSolve.valid.sound.models.solved.ascending hset
      exact targets_congr hsolves.sameNames.edits
    · cases hset
      rfl
  | solve =>
    exact targets_congr
      (perform_solve hs.valid.sound.models.solved.ascending hperform).sameNames.edits

theorem Runs.targets_eq (h : Runs allowed requests s) : s.targets = suggested requests := by
  induction h with
  | start => rfl
  | step hruns _ hstep ih =>
    rw [hruns.consistent.targets_steps hstep, ih]
    unfold suggested
    rw [List.foldl_append]
    rfl

/-! ### What the tableau represents -/

/-- The tableau represents exactly the live constraints: it is solved by the assignments that make
every constraint's own equation true, at the value suggested last for its variable if it is that of
an edit variable, and its objective is the weighted sum of their errors up to a constant. -/
structure Represents (s : Solver ℚ) (requests : List Request) : Prop where
  fits : ∀ key lv, s.live.get? key = some lv → lv.Fits
  edits : ∀ x edit, s.edits.get? x = some edit →
    suggested requests x = some (s.targetOf edit.handle)
  others : ∀ key, (∀ x edit, s.edits.get? x = some edit → edit.handle ≠ key) → s.targetOf key = 0
  satisfies_iff : ∀ value, s.Satisfies value ↔ ∀ key lv, s.live.get? key = some lv →
    lv.Balanced (s.reading value) (s.targetOf key) value
  objective : ∃ k, ∀ value, s.Satisfies value → s.objective.eval value = k + s.cost value

theorem Runs.represents (h : Runs Anything requests s) : s.Represents requests where
  fits := h.consistent.valid.sound.models.tagged.fits
  edits := by
    intro x edit hedit
    rw [← h.targets_eq, h.consistent.edited.targetOf hedit]
    unfold targets
    rw [hedit]
    rfl
  others key hnone := targetOf_of_none hnone h.consistent.edited.ascending
  satisfies_iff := h.consistent.valid.sound.models.satisfies_iff
  objective := h.consistent.valid.sound.models.objective

/-- Two constraints, one of which may be violated, an edit and a removal. -/
def sampleRequests : List Request :=
  let x : LinearExpr ℚ := .ofVariable ⟨0⟩
  let floor := Constraint.between 0 x .atLeast (.ofConstant 10)
  let wish := Constraint.make 1 (x.minus (.ofConstant 5)) .equal .weak
  [.add floor, .add wish, .addEdit ⟨0⟩ .medium, .suggest ⟨0⟩ 42, .setAutoSolve false, .remove floor]

theorem Runs.represents_sample :
    ∃ s, Runs Anything sampleRequests s ∧ s.value ⟨0⟩ = 42 ∧ s.Represents sampleRequests := by
  have hserved : (served sampleRequests).map (fun s => s.value ⟨0⟩) = some 42 := by decide +kernel
  obtain ⟨s, hs, hvalue⟩ := Option.map_eq_some_iff.1 hserved
  have hruns : Runs Anything sampleRequests s := runs_of_served (fun _ _ _ => trivial) hs
  exact ⟨s, hruns, hvalue, hruns.represents⟩

end Solver

end ReactiveView
