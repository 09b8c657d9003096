import ReactiveView.Layout.Box
import ReactiveView.Layout.Guard
import ReactiveView.Log
import ReactiveView.Simplex.Solver

/-!
This module contains the layout of one container: a solver over the boxes of the container and of
its children, driven through batches of constraints, resizes and probes of size.

A batch that fails is undone. A resize and a probe edit the width and the height for one solution
only and withdraw the edits again.
-/

namespace ReactiveView

/--
Why a layout refuses an operation.
-/
inductive LayoutError where
  /-- The operation needs an initialized layout. -/
  | notInitialized (operation : String)
  /-- The layout is initialized already. -/
  | alreadyInitialized
  /-- The solver refuses. -/
  | solver (e : SolverError)
  deriving Repr, DecidableEq

/-- The message of a layout error. -/
def LayoutError.message : LayoutError → String
  | notInitialized operation => s!"{operation} on uninitialized solver"
  | alreadyInitialized => "layout is already initialized"
  | solver e => e.message

/-- Whether the solver broke down. -/
def LayoutError.isBreakdown {β : Type} : Except LayoutError β → Bool
  | .error (.solver e) => e.isInternal
  | _ => false

/--
What a batch of constraints comes to.
-/
inductive BatchOutcome where
  /-- All steps were taken. -/
  | applied
  /-- A step failed; those before it were undone. -/
  | reverted (cause : SolverError)
  /-- A step failed and undoing failed too: the layout is uninitialized again. -/
  | reset (cause rollback : SolverError)
  deriving Repr, DecidableEq

/--
The layout of one container.
-/
structure Layout (α : Type) where
  /-- The solver, once the layout is initialized. -/
  solver : Option (Solver α) := none
  /-- Whether a layout pass is running. -/
  guard : Guard := {}

namespace Layout

variable {α : Type} [Scalar α]

/-- The value that a probe of the greatest size suggests. -/
def probeSentinel : α := Scalar.ofInt 16777215

/-- What is reported for a dimension without an upper bound. -/
def noBound : α := Scalar.ofInt (-1)

/-- Whether the layout is initialized. -/
def isInitialized (l : Layout α) : Bool := l.solver.isSome

/-- Add constraints in order. -/
def addAll (cs : List (Constraint α)) : Solving α Unit := cs.forM Solver.add

/-- Remove constraints in order. -/
def removeAll (cs : List (Constraint α)) : Solving α Unit := cs.forM Solver.remove

/-- Build the solver of all constraints; a failure leaves the layout uninitialized. -/
def setUp (l : Layout α) (cs : List (Constraint α)) :
    Except LayoutError Unit × List LogRecord × Layout α :=
  if l.isInitialized then (.error .alreadyInitialized, [], l)
  else
    let operation : Solving α Unit := do
      Solver.setAutoSolve false
      addAll cs
      Solver.setAutoSolve true
    match Solver.new.perform operation with
    | (.ok (), s) =>
      (.ok (), [⟨.debug, "initialized constraints layout", [("constraints", toString cs.length)]⟩],
        { l with solver := some s })
    | (.error e, _) => (.error (.solver e), [], l)

/-- Remove `old` and then add `new`, counting the steps that succeed. -/
def applyBatch (old new : List (Constraint α)) (s : Solver α) :
    Except SolverError Unit × Nat × Nat × Solver α :=
  removing 0 old s
where
  /-- Add the constraints that are left. -/
  adding (removed added : Nat) :
      List (Constraint α) → Solver α → Except SolverError Unit × Nat × Nat × Solver α
    | [], s =>
      let (r, s) := s.perform (Solver.setAutoSolve true)
      (r, removed, added, s)
    | c :: rest, s =>
      match s.perform (Solver.add c) with
      | (.ok (), s) => adding removed (added + 1) rest s
      | (.error e, s) => (.error e, removed, added, s)
  /-- Remove the constraints that are left, then add. -/
  removing (removed : Nat) :
      List (Constraint α) → Solver α → Except SolverError Unit × Nat × Nat × Solver α
    | [], s => adding removed 0 new s
    | c :: rest, s =>
      match s.perform (Solver.remove c) with
      | (.ok (), s) => removing (removed + 1) rest s
      | (.error e, s) => (.error e, removed, 0, s)

/-- Take back the steps of a batch, the latest first. -/
def revertBatch (old new : List (Constraint α)) (removed added : Nat) : Solving α Unit := do
  removeAll (new.take added).reverse
  addAll (old.take removed).reverse
  Solver.setAutoSolve true

/-- Swap `old` for `new` in one batch. -/
def swap (l : Layout α) (old new : List (Constraint α)) :
    Except LayoutError BatchOutcome × Layout α :=
  match l.solver with
  | none => (.error (.notInitialized "update constraints"), l)
  | some s =>
    let s := (s.perform (Solver.setAutoSolve false)).2
    match applyBatch old new s with
    | (.ok (), _, _, s) => (.ok .applied, { l with solver := some s })
    | (.error cause, removed, added, s) =>
      match s.perform (revertBatch old new removed added) with
      | (.ok (), s) => (.ok (.reverted cause), { l with solver := some s })
      | (.error rollback, _) => (.ok (.reset cause rollback), { l with solver := none })

/-- Swap `old` for `new`: all or nothing, unless undoing fails too. -/
def replace (l : Layout α) (old new : List (Constraint α)) :
    Except LayoutError Unit × List LogRecord × Layout α :=
  match l.swap old new with
  | (.error e, l) => (.error e, [], l)
  | (.ok .applied, l) => (.ok (), [], l)
  | (.ok (.reverted cause), l) => (.error (.solver cause), [], l)
  | (.ok (.reset cause rollback), l) =>
    (.error (.solver cause),
      [⟨.error, "constraint rollback failed, resetting layout",
        [("cause", cause.message), ("rollback", rollback.message)]⟩], l)

/-- Edit variables one after the other, keeping those that were made editable. -/
def editAll (strength : Strength α) :
    List (Variable × α) → List Variable → Solver α →
      Except SolverError Unit × List Variable × Solver α
  | [], added, s => (.ok (), added, s)
  | (x, v) :: rest, added, s =>
    match s.perform (Solver.addEdit x strength) with
    | (.error e, s) => (.error e, added, s)
    | (.ok (), s) =>
      match s.perform (Solver.suggest x v) with
      | (.error e, s) => (.error e, x :: added, s)
      | (.ok (), s) => editAll strength rest (x :: added) s

/-- The solution under edits, which are withdrawn again, the latest first. -/
def solveWith (l : Layout α) (operation : String) (edits : List (Variable × α))
    (strength : Strength α) : Except LayoutError (Solution α) × Layout α :=
  match l.solver with
  | none => (.error (.notInitialized operation), l)
  | some s =>
    let (outcome, added, s) := editAll strength edits [] s
    let sol := s.solution
    let (cleanup, s) := s.perform (added.forM Solver.removeEdit)
    let result := match outcome, cleanup with
      | .error e, _ => .error (.solver e)
      | .ok (), .error e => .error (.solver e)
      | .ok (), .ok () => .ok sol
    (result, { l with solver := some s })

/-- Solve for a size and hand the solution on, unless a pass of this layout is running already. The
receiver sees the layout as it is during the pass. -/
def resize {β : Type} (l : Layout α) (width height : Variable) (size : Size α)
    (strength : Strength α) (receive : Solution α → Layout α → β × Layout α) :
    Except LayoutError (Option β) × Layout α :=
  match l.guard.enter with
  | (false, _) => (.ok none, l)
  | (true, guard) =>
    let edits := [(width, size.width), (height, size.height)]
    match { l with guard }.solveWith "layout" edits strength with
    | (.error e, l) => (.error e, { l with guard := l.guard.leave })
    | (.ok sol, l) =>
      let (b, l) := receive sol l
      (.ok (some b), { l with guard := l.guard.leave })

/-- The least size that breaks no stronger constraint. -/
def minSize (l : Layout α) (width height : Variable) (strength : Strength α) :
    Except LayoutError (Size α) × Layout α :=
  let edits := [(width, Scalar.zero), (height, Scalar.zero)]
  match l.solveWith "get min size" edits strength with
  | (.error e, l) => (.error e, l)
  | (.ok sol, l) => (.ok ⟨sol.value width, sol.value height⟩, l)

/-- A dimension that follows the sentinel all the way has no bound. -/
def boundOf (v : α) : α :=
  let gap : α := probeSentinel - Scalar.round v
  if Scalar.atMost gap Scalar.one && Scalar.atMost (Scalar.ofInt (-1)) gap then noBound else v

/-- The greatest size that the constraints allow. -/
def maxSize (l : Layout α) (width height : Variable) (strength : Strength α) :
    Except LayoutError (Size α) × Layout α :=
  let edits := [(width, probeSentinel), (height, probeSentinel)]
  match l.solveWith "get max size" edits strength with
  | (.error e, l) => (.error e, l)
  | (.ok sol, l) => (.ok ⟨boundOf (sol.value width), boundOf (sol.value height)⟩, l)

/-- Whether a constraint is part of the layout. -/
def contains (l : Layout α) (c : Constraint α) : Bool :=
  match l.solver with
  | some s => s.has c
  | none => false

end Layout

end ReactiveView
