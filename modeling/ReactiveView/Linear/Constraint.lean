import ReactiveView.Linear.Expression
import ReactiveView.Linear.Strength
import ReactiveView.Decimal.Shortest

/-!
This module contains linear constraints: an expression, its relation to zero, and a strength. Each
constraint has an identity of its own; two constraints of the same content are two constraints.
-/

namespace ReactiveView

/--
How an expression relates to zero.
-/
inductive Relation where
  | atMost | equal | atLeast
  deriving Repr, DecidableEq

/-- How a relation is written. -/
def Relation.text : Relation → String
  | atMost => "<="
  | equal => "=="
  | atLeast => ">="

/--
A linear constraint.
-/
structure Constraint (α : Type) where
  /-- The identity. -/
  id : Nat
  /-- The expression. -/
  expr : LinearExpr α
  /-- Its relation to zero. -/
  relation : Relation
  /-- The strength. -/
  strength : Strength α

namespace Constraint

variable {α : Type} [Scalar α]

/-- A constraint, its strength brought into the valid range. -/
def make (id : Nat) (expr : LinearExpr α) (relation : Relation) (strength : Strength α) :
    Constraint α :=
  { id, expr, relation, strength := strength.clipped }

/-- The required constraint between two expressions. -/
def between (id : Nat) (left : LinearExpr α) (relation : Relation) (right : LinearExpr α) :
    Constraint α :=
  make id (left.minus right) relation .required

/-- A constraint of the same content at another strength. -/
def withStrength (c : Constraint α) (id : Nat) (strength : Strength α) : Constraint α :=
  make id c.expr c.relation strength

/-- The text of a constraint, given names for its variables. -/
def picture (c : Constraint Float) (name : Variable → String) : String :=
  let term (t : LinearTerm Float) := NumberStyle.plain.text t.coefficient ++ "*" ++ name t.unknown
  " + ".intercalate (c.expr.terms.map term) ++ " + " ++ NumberStyle.plain.text c.expr.constant
    ++ " " ++ c.relation.text ++ " 0 | Strength(" ++ NumberStyle.value.text c.strength.value ++ ")"

end Constraint

end ReactiveView
