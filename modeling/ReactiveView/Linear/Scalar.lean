/-!
This module contains the numbers that linear systems are solved over. The solver is written for any
`Scalar`, in one fixed order of operations: with floats it gives the answers that users see, with
exact numbers it is ordinary linear programming.
-/

namespace ReactiveView

/--
Numbers with the comparisons that the solver makes.
-/
class Scalar (α : Type) extends Add α, Sub α, Mul α, Div α, Neg α where
  /-- The number of an integer. -/
  ofInt : Int → α
  /-- The number of a float. -/
  ofFloat : Float → α
  /-- The float of a number. -/
  toFloat : α → Float
  /-- Strictly less. -/
  less : α → α → Bool
  /-- Less or equal. -/
  atMost : α → α → Bool
  /-- Equal. -/
  same : α → α → Bool
  /-- So small that it counts as zero. -/
  negligible : α → Bool
  /-- A number that can be the least ratio of a pivot rule. -/
  bounded : α → Bool
  /-- The nearest integer, a half away from zero. -/
  round : α → α

namespace Scalar

variable {α : Type} [Scalar α]

/-- Zero. -/
def zero : α := ofInt 0

/-- One. -/
def one : α := ofInt 1

/-- Negative. -/
def isNegative (a : α) : Bool := less a zero

/-- Positive. -/
def isPositive (a : α) : Bool := less zero a

/-- The nearest number between two bounds. -/
def clamp (low high a : α) : α :=
  if less a low then low else if less high a then high else a

end Scalar

instance : Scalar Float where
  ofInt := Float.ofInt
  ofFloat := id
  toFloat := id
  less a b := a < b
  atMost a b := a ≤ b
  same a b := a == b
  negligible a := a.abs < 1.0e-8
  bounded a := a < 1.7976931348623157e308
  round a := a.round

end ReactiveView
