import ReactiveView.Json.Fields
import ReactiveView.Linear.Constraint

/-!
This module contains constraints as a host writes them: formulas over names, a relation, and a
strength. A name stands for an expression that is only known later, such as a part of a box.

In JSON a formula is a name, a number, or an array of an operator and its operands; a strength is
the name of a standard one, a bare number, three tiers with a weight, or another strength with a
weight.
-/

namespace ReactiveView

/--
An expression over names.
-/
inductive Formula where
  /-- A name, or the text of a number. -/
  | symbol (s : String)
  | number (x : Float)
  | neg (a : Formula)
  | sum (a b : Formula)
  | difference (a b : Formula)
  | product (a b : Formula)
  | quotient (a b : Formula)

/--
What a constraint is made of.
-/
inductive ConstraintBody where
  /-- Two formulas and a relation. -/
  | between (left : Formula) (relation : Relation) (right : Formula)
  /-- A constraint of the host. -/
  | named (name : String)

/--
A constraint as it is written.
-/
structure ConstraintSpec where
  /-- What it is made of. -/
  body : ConstraintBody
  /-- The strength, if it is not to be that of the body. -/
  strength : Option (Strength Float) := none

namespace Strength

/-- Read a list of floats. -/
def tiersOfJson? (j : Json) : Option (Strength Float) := do
  match ← (← j.toList?).mapM Json.toDecimal? with
  | [strong, medium, weak, weight] => pure (ofTiers strong medium weak weight)
  | _ => none

mutual

/-- Read a strength. -/
def ofJson? : Json → Option (Strength Float)
  | .text name =>
    match (ofName name : Named Float) with
    | .strength s => some s
    | _ => none
  | .object members =>
    let given := (Json.object members).member?
    match given "raw", given "tiers", given "weight" with
    | some raw, _, _ => raw.toDecimal?.map Strength.mk
    | _, some tiers, _ => tiersOfJson? tiers
    | _, _, some weight => do (← baseOf? members).weighted (← weight.toDecimal?)
    | _, _, _ => none
  | _ => none

/-- Read the strength that a weight applies to. -/
def baseOf? : List (Option String × Json) → Option (Strength Float)
  | [] => none
  | (name, j) :: rest => if name = some "base" then ofJson? j else baseOf? rest

end

end Strength

namespace Relation

/-- Read a relation. -/
def ofText? (s : String) : Option Relation :=
  [atMost, equal, atLeast].find? fun r => r.text == s

end Relation

namespace Formula

/-- Read a formula. -/
def ofJson? : Json → Option Formula
  | .text s => some (symbol s)
  | .array [.text op, a] => do
    if op = "neg" then pure (neg (← ofJson? a)) else none
  | .array [.text op, a, b] => do
    let a ← ofJson? a
    let b ← ofJson? b
    if op = "+" then pure (sum a b)
    else if op = "-" then pure (difference a b)
    else if op = "*" then pure (product a b)
    else if op = "/" then pure (quotient a b)
    else none
  | j => j.toDecimal?.map number

variable {α : Type} [Scalar α]

/-- The expression of a formula. A product needs a factor, a quotient a divisor without names. -/
def linear? (leaf : String → Option (LinearExpr α)) : Formula → Option (LinearExpr α)
  | symbol s =>
    match leaf s with
    | some e => some e
    | none => (Decimal.readFloat s.toList).map fun x => .ofConstant (Scalar.ofFloat x)
  | number x => some (.ofConstant (Scalar.ofFloat x))
  | neg a => do pure (← linear? leaf a).negated
  | sum a b => do pure ((← linear? leaf a).plus (← linear? leaf b))
  | difference a b => do pure ((← linear? leaf a).minus (← linear? leaf b))
  | product a b => do
    let a ← linear? leaf a
    let b ← linear? leaf b
    if b.terms.isEmpty then pure (a.scaled b.constant)
    else if a.terms.isEmpty then pure (b.scaled a.constant)
    else none
  | quotient a b => do
    let a ← linear? leaf a
    let b ← linear? leaf b
    if b.terms.isEmpty then pure (a.dividedBy b.constant) else none

end Formula

namespace ConstraintSpec

/-- Read a constraint. -/
def ofJson? : Json → Option ConstraintSpec
  | .text name => some { body := .named name }
  | j => do
    let body ← match j.member? "of" with
      | some name => do pure (ConstraintBody.named (← name.toText?))
      | none => do
        let left ← Formula.ofJson? (← j.member? "lhs")
        let relation ← Relation.ofText? (← j.textAt? "op")
        pure (.between left relation (← Formula.ofJson? (← j.member? "rhs")))
    match j.member? "strength" with
    | some s => do pure { body, strength := some (← Strength.ofJson? s) }
    | none => pure { body }

variable {α : Type} [Scalar α]

/-- Make a constraint, giving identities from `next` on. Answers the next identity too. -/
def make? (leaf : String → Option (LinearExpr α)) (named : String → Option (Constraint α))
    (next : Nat) (spec : ConstraintSpec) : Option (Constraint α × Nat) := do
  let (c, next) ← match spec.body with
    | .named name => do pure (← named name, next)
    | .between left relation right => do
      let left ← left.linear? leaf
      let right ← right.linear? leaf
      pure (Constraint.between next left relation right, next + 1)
  match spec.strength with
  | some s => pure (c.withStrength next (.ofFloat s), next + 1)
  | none => pure (c, next)

/-- Make several constraints. -/
def makeAll? (leaf : String → Option (LinearExpr α)) (named : String → Option (Constraint α)) :
    Nat → List ConstraintSpec → Option (List (Constraint α) × Nat)
  | next, [] => some ([], next)
  | next, spec :: rest => do
    let (c, next) ← spec.make? leaf named next
    let (cs, next) ← makeAll? leaf named next rest
    pure (c :: cs, next)

end ConstraintSpec

end ReactiveView
