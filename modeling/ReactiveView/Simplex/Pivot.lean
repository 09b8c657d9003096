import ReactiveView.Simplex.Tableau

/-!
This module contains the pivots of the simplex method. The primal loop lowers an objective: the
oldest symbol that lowers it enters, the oldest of the rows with the least ratio leaves. The dual
loop mends rows that an edit has made negative.

The loops take a budget of pivots. That of the primal loop exceeds the count of bases.
-/

namespace ReactiveView

/--
An operation on a solver; changes made before an error stay.
-/
abbrev Solving (α : Type) (β : Type) := ExceptT SolverError (StateM (Solver α)) β

/--
What the primal loop minimises.
-/
inductive Goal where
  /-- The weighted violations. -/
  | main
  /-- The artificial row. -/
  | artificial
  deriving DecidableEq

namespace Solver

variable {α : Type} [Scalar α]

/-- The row of a goal. -/
def goalRow (s : Solver α) : Goal → Option (Row α)
  | .main => some s.objective
  | .artificial => s.artificial

/-- Replace a symbol by what it equals, everywhere. Rows of restricted symbols that turn negative
are noted. -/
def substitute (s : Solver α) (symbol : Symbol) (definition : Row α) : Solver α :=
  let rows := s.rows.mapValues fun row => row.substitute symbol definition
  let negative := rows.entries.filterMap fun (basic, row) =>
    if basic.kind != .external && Scalar.isNegative row.constant then some basic else none
  { s with
    rows
    infeasible := negative.reverse ++ s.infeasible
    objective := s.objective.substitute symbol definition
    artificial := s.artificial.map fun row => row.substitute symbol definition }

/-- Let the row of `leaving` define `entering` instead. -/
def pivot (s : Solver α) (leaving entering : Symbol) (row : Row α) : Solver α :=
  let row := row.exchanged leaving entering
  let s := { s with rows := s.rows.erase leaving }.substitute entering row
  { s with rows := s.rows.insert entering row }

/-- A candidate of a ratio rule. -/
abbrev Candidate (α : Type) := Option (α × Symbol)

/-- Keep the candidate with the lesser ratio, the earlier one of equal ones. -/
def Candidate.offer (best : Candidate α) (ratio : α) (symbol : Symbol) : Candidate α :=
  match best with
  | none => if Scalar.bounded ratio then some (ratio, symbol) else none
  | some (least, _) => if Scalar.less ratio least then some (ratio, symbol) else best

/-- The oldest symbol that lowers a goal: not a dummy, and with a negative coefficient. -/
def entering? (row : Row α) : Option Symbol :=
  (row.cells.findEntry? fun s c => s.kind != .dummy && Scalar.isNegative c).map Prod.fst

/-- The restricted basic symbol that bounds the growth of `entering` first. -/
def leaving? (s : Solver α) (entering : Symbol) : Option Symbol :=
  let offer (best : Candidate α) (entry : Symbol × Row α) : Candidate α :=
    let c := entry.2.coefficient entering
    if entry.1.kind != .external && Scalar.isNegative c then
      best.offer (-entry.2.constant / c) entry.1
    else best
  (s.rows.entries.foldl offer none).map Prod.snd

/-- The primal loop. -/
def minimiseFor (goal : Goal) : Nat → Solving α Unit
  | 0 => throw .pivotLimit
  | n + 1 => do
    let s ← get
    match (s.goalRow goal).bind entering? with
    | none => pure ()
    | some entering =>
      match s.leaving? entering with
      | none => throw .unbounded
      | some leaving =>
        match s.rows.get? leaving with
        | none => throw .unbounded
        | some row =>
          set (s.pivot leaving entering row)
          minimiseFor goal n

/-- More than the count of bases over the symbols made so far. -/
def pivotBudget (s : Solver α) : Nat := Nat.pow 2 s.nextId + 1

/-- Minimise a goal. -/
def minimise (goal : Goal) : Solving α Unit := do
  minimiseFor goal (← get).pivotBudget

/-- The symbol that can mend a negative row at the least cost to the objective. -/
def mending? (s : Solver α) (row : Row α) : Option Symbol :=
  let offer (best : Candidate α) (entry : Symbol × α) : Candidate α :=
    if Scalar.isPositive entry.2 && entry.1.kind != .dummy then
      best.offer (s.objective.coefficient entry.1 / entry.2) entry.1
    else best
  (row.cells.entries.foldl offer none).map Prod.snd

/-- The dual loop: mend the noted rows, the latest first. -/
def mendFor : Nat → Solving α Unit
  | 0 => throw .pivotLimit
  | n + 1 => do
    let s ← get
    match s.infeasible with
    | [] => pure ()
    | leaving :: rest =>
      let s := { s with infeasible := rest }
      set s
      match s.rows.get? leaving with
      | none => mendFor n
      | some row =>
        if !Scalar.negligible row.constant && Scalar.isNegative row.constant then
          match s.mending? row with
          | none => throw .infeasibleRow
          | some entering =>
            set (s.pivot leaving entering row)
            mendFor n
        else mendFor n

/-- Mend all noted rows. -/
def mend : Solving α Unit := do
  let s ← get
  mendFor (s.pivotBudget * (s.rows.size + 1) + s.infeasible.length)

end Solver

end ReactiveView
