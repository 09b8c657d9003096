import ReactiveView.Simplex.Row
import ReactiveView.Linear.Constraint

/-!
This module contains the tableau of a linear system. Basic symbols are defined by rows over
parametric symbols. Each live constraint has brought symbols of its own: a marker, and for a
constraint that may be violated a second one.
-/

namespace ReactiveView

/--
What names a live constraint: its own identity, or a serial number for those that edits bring in.
-/
inductive Handle where
  /-- A constraint of the user. -/
  | given (id : Nat)
  /-- The constraint of an edit variable. -/
  | edit (serial : Nat)
  deriving Repr, DecidableEq

namespace Handle

/-- The place of a sort of handles among the sorts. -/
def rank : Handle → Nat
  | given _ => 0
  | edit _ => 1

/-- The number within the sort. -/
def number : Handle → Nat
  | given id => id
  | edit serial => serial

end Handle

/-- The constraints of the user come first. -/
instance : Ord Handle := ⟨compareLex (compareOn Handle.rank) (compareOn Handle.number)⟩

/--
The symbols that a constraint brought.
-/
structure Tag where
  /-- The symbol that every constraint has. -/
  marker : Symbol
  /-- The symbol of the other direction of violation. -/
  other : Option Symbol
  deriving Repr, DecidableEq

/-- The symbols of a tag. -/
def Tag.symbols (tag : Tag) : List Symbol := tag.marker :: tag.other.toList

/--
A constraint that is part of the system.
-/
structure Live (α : Type) where
  /-- The constraint. -/
  constraint : Constraint α
  /-- Its symbols. -/
  tag : Tag

/--
An edit variable.
-/
structure Edit (α : Type) where
  /-- The name of its constraint. -/
  handle : Handle
  /-- The symbols of its constraint. -/
  tag : Tag
  /-- The value suggested last. -/
  target : α

/--
Why the solver refuses an operation.
-/
inductive SolverError where
  | duplicateConstraint
  | unknownConstraint
  | unsatisfiable
  | duplicateEdit
  | unknownEdit
  | requiredEdit
  /-- No row can give way to the marker of a removed constraint. -/
  | noLeavingRow
  /-- The constraint of a new edit variable is not there. -/
  | editMissing
  /-- No row bounds the objective. -/
  | unbounded
  /-- No symbol can mend an infeasible row. -/
  | infeasibleRow
  /-- The budget of pivots ran out; it is larger than the count of bases. -/
  | pivotLimit
  deriving Repr, DecidableEq

namespace SolverError

/-- Whether the error says that the system of rows is broken, not that a request is wrong. -/
def isInternal : SolverError → Bool
  | noLeavingRow | editMissing | unbounded | infeasibleRow | pivotLimit => true
  | _ => false

/-- The message of an error. -/
def message : SolverError → String
  | duplicateConstraint => "constraint is already in the solver"
  | unknownConstraint => "constraint is not in the solver"
  | unsatisfiable => "required constraint cannot be satisfied"
  | duplicateEdit => "variable is already an edit variable"
  | unknownEdit => "variable is not an edit variable"
  | requiredEdit => "edit variables cannot have required strength"
  | noLeavingRow => "internal solver error: failed to find leaving row"
  | editMissing => "internal solver error: edit constraint missing"
  | unbounded => "internal solver error: objective is unbounded"
  | infeasibleRow => "internal solver error: dual optimize failed"
  | pivotLimit => "internal solver error: pivot limit reached"

end SolverError

/--
A linear system in solved form.
-/
structure Solver (α : Type) where
  /-- The constraints of the system. -/
  live : Table Handle (Live α)
  /-- The rows of the basic symbols. -/
  rows : Table Symbol (Row α)
  /-- The symbols of the variables. -/
  vars : Table Variable Symbol
  /-- The edit variables. -/
  edits : Table Variable (Edit α)
  /-- Basic symbols that have turned negative, the latest first; some may have recovered. -/
  infeasible : List Symbol
  /-- What is minimised: the weighted sum of the violations. -/
  objective : Row α
  /-- What is minimised while a constraint is added that no symbol of its own can solve. -/
  artificial : Option (Row α)
  /-- The identity of the next symbol. -/
  nextId : Nat
  /-- Whether every change is followed by minimisation. -/
  autoSolve : Bool
  /-- Whether changes have not been followed by minimisation yet. -/
  dirty : Bool

namespace Solver

variable {α : Type} [Scalar α]

/-- The empty system. -/
def new : Solver α :=
  { live := Table.empty
    rows := Table.empty
    vars := Table.empty
    edits := Table.empty
    infeasible := []
    objective := Row.ofConstant Scalar.zero
    artificial := none
    nextId := 1
    autoSolve := true
    dirty := false }

/-- Make a symbol. -/
def newSymbol (s : Solver α) (kind : SymbolKind) : Symbol × Solver α :=
  (⟨s.nextId, kind⟩, { s with nextId := s.nextId + 1 })

/-- The symbol of a variable, made on its first use. -/
def symbolOf (s : Solver α) (x : Variable) : Symbol × Solver α :=
  match s.vars.get? x with
  | some symbol => (symbol, s)
  | none =>
    let (symbol, s) := s.newSymbol .external
    (symbol, { s with vars := s.vars.insert x symbol })

/-- Add the terms of an expression to a row, basic symbols being replaced by their rows. -/
def addTerms (s : Solver α) (row : Row α) : List (LinearTerm α) → Row α × Solver α
  | [] => (row, s)
  | t :: rest =>
    if Scalar.negligible t.coefficient then s.addTerms row rest
    else
      let (symbol, s) := s.symbolOf t.unknown
      let row := match s.rows.get? symbol with
        | some basic => row.addRow basic t.coefficient
        | none => row.addSymbol symbol t.coefficient
      s.addTerms row rest

/-- Add a multiple of a symbol to the objective. -/
def charge (s : Solver α) (symbol : Symbol) (weight : α) : Solver α :=
  { s with objective := s.objective.addSymbol symbol weight }

/-- Add to the row of a constraint the symbols that it brings. -/
def bring (s : Solver α) (c : Constraint α) (row : Row α) : Row α × Tag × Solver α :=
  match c.relation with
  | .equal =>
    if c.strength.isRequired then
      let (dummy, s) := s.newSymbol .dummy
      (row.addSymbol dummy Scalar.one, ⟨dummy, none⟩, s)
    else
      let (plus, s) := s.newSymbol .error
      let (minus, s) := s.newSymbol .error
      let row := (row.addSymbol plus (Scalar.ofInt (-1))).addSymbol minus Scalar.one
      (row, ⟨plus, some minus⟩, (s.charge plus c.strength.value).charge minus c.strength.value)
  | relation =>
    let sign : α := if relation = Relation.atMost then Scalar.one else Scalar.ofInt (-1)
    let (slack, s) := s.newSymbol .slack
    let row := row.addSymbol slack sign
    if c.strength.isRequired then (row, ⟨slack, none⟩, s)
    else
      let (error, s) := s.newSymbol .error
      (row.addSymbol error (-sign), ⟨slack, some error⟩, s.charge error c.strength.value)

/-- The row of a constraint, with a constant that is not negative, and the symbols that the
constraint brings. -/
def rowOf (s : Solver α) (c : Constraint α) : Row α × Tag × Solver α :=
  let (row, s) := s.addTerms (Row.ofConstant c.expr.constant) c.expr.terms
  let (row, tag, s) := s.bring c row
  (if Scalar.isNegative row.constant then row.negated else row, tag, s)

/-- The symbol to solve a new row for: a variable, else a symbol of the constraint's own that keeps
the constant from turning negative. -/
def subject? (row : Row α) (tag : Tag) : Option Symbol :=
  match row.cells.keys.find? fun s => s.kind == .external with
  | some s => some s
  | none =>
    tag.symbols.find? fun s => s.isPivotable && Scalar.isNegative (row.coefficient s)

/-- The value of a variable. -/
def value (s : Solver α) (x : Variable) : α :=
  match (s.vars.get? x).bind s.rows.get? with
  | some row => row.constant
  | none => Scalar.zero

end Solver

/--
The values of the variables of a system.
-/
structure Solution (α : Type) where
  /-- The values of the variables that the system has met. -/
  values : Table Variable α

namespace Solution

variable {α : Type} [Scalar α]

/-- The value of a variable; zero if the system never met it. -/
def value (sol : Solution α) (x : Variable) : α := (sol.values.get? x).getD Scalar.zero

/-- The value of an expression. -/
def evaluate (sol : Solution α) (e : LinearExpr α) : α := e.evaluate sol.value

end Solution

/-- The values of all variables that a system has met. -/
def Solver.solution {α : Type} [Scalar α] (s : Solver α) : Solution α :=
  { values := { entries := s.vars.entries.map fun (x, _) => (x, s.value x) } }

end ReactiveView
