import ReactiveView.Linear.Scalar

/-!
This module contains linear expressions over variables. Terms are never merged: they stay in the
order in which they were written.
-/

namespace ReactiveView

/--
An unknown of a linear system.
-/
structure Variable where
  /-- The identity. -/
  id : Nat
  deriving Repr, DecidableEq, Inhabited

instance : Ord Variable := ⟨fun x y => compare x.id y.id⟩

/--
A variable times a number.
-/
structure LinearTerm (α : Type) where
  /-- The variable. -/
  unknown : Variable
  /-- The factor. -/
  coefficient : α
  deriving DecidableEq

/--
A sum of terms and a constant.
-/
structure LinearExpr (α : Type) where
  /-- The terms, as written. -/
  terms : List (LinearTerm α)
  /-- The constant. -/
  constant : α
  deriving DecidableEq

namespace LinearExpr

variable {α : Type} [Scalar α]

/-- A variable alone. -/
def ofVariable (x : Variable) : LinearExpr α :=
  { terms := [⟨x, Scalar.one⟩], constant := Scalar.zero }

/-- A number alone. -/
def ofConstant (c : α) : LinearExpr α := { terms := [], constant := c }

/-- The sum of two expressions. -/
def plus (a b : LinearExpr α) : LinearExpr α :=
  { terms := a.terms ++ b.terms, constant := a.constant + b.constant }

/-- An expression times a number. -/
def scaled (a : LinearExpr α) (factor : α) : LinearExpr α :=
  { terms := a.terms.map fun t => { t with coefficient := t.coefficient * factor }
    constant := a.constant * factor }

/-- The negated expression. -/
def negated (a : LinearExpr α) : LinearExpr α := a.scaled (Scalar.ofInt (-1))

/-- The difference of two expressions. -/
def minus (a b : LinearExpr α) : LinearExpr α := a.plus b.negated

/-- An expression divided by a number. -/
def dividedBy (a : LinearExpr α) (divisor : α) : LinearExpr α := a.scaled (Scalar.one / divisor)

/-- The value under an assignment of the variables. -/
def evaluate (a : LinearExpr α) (value : Variable → α) : α :=
  a.terms.foldl (fun acc t => acc + t.coefficient * value t.unknown) a.constant

/-- The variables, in the order of the terms. -/
def unknowns (a : LinearExpr α) : List Variable := a.terms.map LinearTerm.unknown

end LinearExpr

end ReactiveView
