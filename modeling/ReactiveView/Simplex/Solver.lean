import ReactiveView.Simplex.Pivot

/-!
This module contains the operations on a linear system: adding and removing constraints, edit
variables and suggestions, and minimisation.
-/

namespace ReactiveView

namespace Solver

variable {α : Type} [Scalar α]

/-- Follow a change by minimisation, or note that it is due. -/
def followUp : Solving α Unit := do
  if (← get).autoSolve then minimise .main else modify fun s => { s with dirty := true }

/-- Whether a new row can hold: minimise it as an artificial objective. Answers whether it reaches
zero. -/
def addArtificial (row : Row α) : Solving α Bool := do
  let (art, s) := (← get).newSymbol .slack
  set { s with rows := s.rows.insert art row, artificial := some row }
  minimise .artificial
  let s ← get
  let success := match s.artificial with
    | some artificial => Scalar.negligible artificial.constant
    | none => false
  set { s with artificial := none, rows := s.rows.erase art }
  match s.rows.get? art with
  | none =>
    dropSymbol art
    pure success
  | some row =>
    if row.cells.isEmpty then pure success
    else
      match row.cells.keys.find? Symbol.isPivotable with
      | none => pure false
      | some entering =>
        let row := row.exchanged art entering
        modify fun s =>
          let s := s.substitute entering row
          { s with rows := s.rows.insert entering row }
        dropSymbol art
        pure success
where
  /-- Drop the artificial symbol from all rows and from the objective. -/
  dropSymbol (art : Symbol) : Solving α Unit :=
    modify fun s =>
      { s with
        rows := s.rows.mapValues fun row => row.remove art
        objective := s.objective.remove art }

/-- Add a constraint under a name. -/
def addAs (handle : Handle) (c : Constraint α) : Solving α Unit := do
  if (← get).live.contains handle then throw .duplicateConstraint
  let before ← get
  let (row, tag, s) := before.rowOf c
  set s
  let subject := subject? row tag
  if subject.isNone && row.onlyDummies && !Scalar.negligible row.constant then
    set { s with objective := before.objective }
    throw .unsatisfiable
  let subject := if subject.isNone && row.onlyDummies then some tag.marker else subject
  match subject with
  | some subject =>
    let row := row.solvedFor subject
    let s := s.substitute subject row
    set { s with rows := s.rows.insert subject row }
  | none =>
    if !(← addArtificial row) then
      modify fun s' =>
        { s' with rows := s.rows, objective := before.objective, infeasible := [] }
      throw .unsatisfiable
  modify fun s => { s with live := s.live.insert handle { constraint := c, tag } }
  followUp

/-- Add a constraint. If its requirement cannot be met the system stays as it was. -/
def add (c : Constraint α) : Solving α Unit := addAs (.given c.id) c

/-- Take the violations of a constraint out of the objective. -/
def discharge (s : Solver α) (c : Constraint α) (tag : Tag) : Solver α :=
  tag.symbols.foldl (fun s marker =>
    if marker.kind != .error then s
    else
      let objective := match s.rows.get? marker with
        | some row => s.objective.addRow row (-c.strength.value)
        | none => s.objective.addSymbol marker (-c.strength.value)
      { s with objective }) s

/-- The basic symbol whose row gives way to the marker of a removed constraint: among restricted
ones the one that bounds the marker first from above, else from below, else the latest variable. -/
def givingWay? (s : Solver α) (marker : Symbol) : Option Symbol :=
  let offer (best : Candidate α × Candidate α × Option Symbol) (entry : Symbol × Row α) :=
    let (above, below, free) := best
    let c := entry.2.coefficient marker
    if Scalar.same c Scalar.zero then best
    else if entry.1.kind == .external then (above, below, some entry.1)
    else if Scalar.isNegative c then
      (above.offer (-entry.2.constant / c) entry.1, below, free)
    else (above, below.offer (entry.2.constant / c) entry.1, free)
  let (above, below, free) := s.rows.entries.foldl offer (none, none, none)
  (above.map Prod.snd <|> below.map Prod.snd) <|> free

/-- Remove the constraint of a name. -/
def removeAs (handle : Handle) : Solving α Unit := do
  let s ← get
  match s.live.get? handle with
  | none => throw .unknownConstraint
  | some { constraint, tag } =>
    let s := { s with live := s.live.erase handle }.discharge constraint tag
    set s
    if s.rows.contains tag.marker then
      set { s with rows := s.rows.erase tag.marker }
    else
      match s.givingWay? tag.marker with
      | none => throw .noLeavingRow
      | some leaving =>
        match s.rows.get? leaving with
        | none => throw .noLeavingRow
        | some row =>
          let row := row.exchanged leaving tag.marker
          set ({ s with rows := s.rows.erase leaving }.substitute tag.marker row)
    followUp

/-- Remove a constraint. -/
def remove (c : Constraint α) : Solving α Unit := removeAs (.given c.id)

/-- Whether a constraint is part of the system. -/
def has (s : Solver α) (c : Constraint α) : Bool := s.live.contains (.given c.id)

/-- Minimise if changes are pending. -/
def solve : Solving α Unit := do
  if (← get).dirty then
    minimise .main
    modify fun s => { s with dirty := false }

/-- Switch minimisation after every change on or off; switching it on minimises at once. -/
def setAutoSolve (enabled : Bool) : Solving α Unit := do
  modify fun s => { s with autoSolve := enabled }
  if enabled then solve

/-- Make a variable editable, at a strength below required. -/
def addEdit (x : Variable) (strength : Strength α) : Solving α Unit := do
  if (← get).edits.contains x then throw .duplicateEdit
  let strength := strength.clipped
  if strength.isRequired then throw .requiredEdit
  let serial := (← get).nextId
  addAs (.edit serial) (Constraint.make serial (LinearExpr.ofVariable x) .equal strength)
  match (← get).live.get? (.edit serial) with
  | none => throw .editMissing
  | some { tag, .. } =>
    let edit : Edit α := { handle := .edit serial, tag, target := Scalar.zero }
    modify fun s => { s with edits := s.edits.insert x edit }

/-- End the editing of a variable. -/
def removeEdit (x : Variable) : Solving α Unit := do
  match (← get).edits.get? x with
  | none => throw .unknownEdit
  | some edit =>
    modify fun s => { s with edits := s.edits.erase x }
    removeAs edit.handle

/-- Whether a variable is being edited. -/
def isEdited (s : Solver α) (x : Variable) : Bool := s.edits.contains x

/-- Add to the constant of a basic symbol; it is noted if it turns negative. -/
def shiftRow (s : Solver α) (symbol : Symbol) (row : Row α) (delta : α) : Solver α :=
  let row := row.add delta
  { s with
    rows := s.rows.insert symbol row
    infeasible := if Scalar.isNegative row.constant then symbol :: s.infeasible else s.infeasible }

/-- Add to every row the change of a parametric symbol. -/
def shiftAll (s : Solver α) (marker : Symbol) (delta : α) : Solver α :=
  s.rows.entries.foldl (fun s (symbol, row) =>
    let c := row.coefficient marker
    if Scalar.same c Scalar.zero then s
    else
      let row := row.add (delta * c)
      { s with
        rows := s.rows.insert symbol row
        infeasible :=
          if Scalar.isNegative row.constant && symbol.kind != .external then
            symbol :: s.infeasible
          else s.infeasible }) s

/-- Change the constants for a new target of an edit. -/
def shift (s : Solver α) (tag : Tag) (delta : α) : Solver α :=
  match s.rows.get? tag.marker with
  | some row => s.shiftRow tag.marker row (-delta)
  | none =>
    match tag.other.bind fun other => (s.rows.get? other).map (other, ·) with
    | some (other, row) => s.shiftRow other row delta
    | none => s.shiftAll tag.marker delta

/-- Suggest a value for an edit variable. -/
def suggest (x : Variable) (v : α) : Solving α Unit := do
  solve
  let s ← get
  match s.edits.get? x with
  | none => throw .unknownEdit
  | some edit =>
    let s := { s with edits := s.edits.insert x { edit with target := v } }
    set (s.shift edit.tag (v - edit.target))
    mend

/-- Run an operation. -/
def perform {β : Type} (s : Solver α) (operation : Solving α β) :
    Except SolverError β × Solver α :=
  operation.run.run s

end Solver

end ReactiveView
