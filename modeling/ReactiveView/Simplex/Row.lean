import ReactiveView.Table
import ReactiveView.Linear.Scalar

/-!
This module contains the symbols and rows of a tableau. A row says that a symbol, or zero, equals a
constant plus multiples of other symbols; cells that come close to zero are dropped.
-/

namespace ReactiveView

/--
What a symbol stands for.
-/
inductive SymbolKind where
  /-- A variable of the user; it may have any sign. -/
  | external
  /-- The slack of an inequality. -/
  | slack
  /-- The violation of a constraint that is not required. -/
  | error
  /-- The marker of a required equality; it stays zero. -/
  | dummy
  deriving Repr, DecidableEq

/--
A column of the tableau.
-/
structure Symbol where
  /-- The identity; later symbols have greater ones. -/
  id : Nat
  /-- What it stands for. -/
  kind : SymbolKind
  deriving Repr, DecidableEq

/-- The place of a kind among the kinds. -/
def SymbolKind.rank : SymbolKind → Nat
  | external => 0
  | slack => 1
  | error => 2
  | dummy => 3

/-- Older symbols come first. -/
instance : Ord Symbol := ⟨compareLex (compareOn Symbol.id) (compareOn fun s => s.kind.rank)⟩

/-- Whether a symbol may enter the basis at will: slacks and errors. -/
def Symbol.isPivotable (s : Symbol) : Bool := s.kind == .slack || s.kind == .error

/--
A linear combination of symbols and a constant.
-/
structure Row (α : Type) where
  /-- The coefficients by symbol, oldest symbol first. -/
  cells : Table Symbol α
  /-- The constant. -/
  constant : α

namespace Row

variable {α : Type} [Scalar α]

/-- A constant. -/
def ofConstant (c : α) : Row α := { cells := Table.empty, constant := c }

/-- The coefficient of a symbol. -/
def coefficient (row : Row α) (s : Symbol) : α := (row.cells.get? s).getD Scalar.zero

/-- Add to the constant. -/
def add (row : Row α) (v : α) : Row α := { row with constant := row.constant + v }

/-- Add a multiple of a symbol. -/
def addSymbol (row : Row α) (s : Symbol) (c : α) : Row α :=
  let sum := row.coefficient s + c
  if Scalar.negligible sum then { row with cells := row.cells.erase s }
  else { row with cells := row.cells.insert s sum }

/-- Add a multiple of a row. -/
def addRow (row other : Row α) (c : α) : Row α :=
  other.cells.entries.foldl (fun row (s, d) => row.addSymbol s (d * c))
    { row with constant := row.constant + other.constant * c }

/-- Drop a symbol. -/
def remove (row : Row α) (s : Symbol) : Row α := { row with cells := row.cells.erase s }

/-- Turn every sign. -/
def negated (row : Row α) : Row α :=
  { cells := row.cells.mapValues fun c => -c, constant := -row.constant }

/-- Solve `0 = row` for a symbol of the row. -/
def solvedFor (row : Row α) (s : Symbol) : Row α :=
  match row.cells.get? s with
  | none => row
  | some c =>
    let factor := Scalar.ofInt (-1) / c
    { cells := (row.cells.erase s).mapValues fun d => d * factor
      constant := row.constant * factor }

/-- Solve `left = row` for a symbol of the row. -/
def exchanged (row : Row α) (left right : Symbol) : Row α :=
  (row.addSymbol left (Scalar.ofInt (-1))).solvedFor right

/-- Replace a symbol by what it equals. -/
def substitute (row : Row α) (s : Symbol) (definition : Row α) : Row α :=
  match row.cells.get? s with
  | none => row
  | some c => (row.remove s).addRow definition c

/-- Whether all symbols are dummies. -/
def onlyDummies (row : Row α) : Bool := row.cells.keys.all fun s => s.kind == .dummy

end Row

end ReactiveView
