import ReactiveView.Decimal.Binary
import ReactiveView.Linear.Scalar

/-!
This module contains the strengths of constraints. A strength folds three tiers into one number:
`strong * 10 ^ 6 + medium * 10 ^ 3 + weak`. A weight scales every tier and is kept below the tier
above.
-/

namespace ReactiveView

/--
The priority of a constraint.
-/
structure Strength (α : Type) where
  /-- The three tiers in one number. -/
  value : α
  deriving Repr, DecidableEq

namespace Strength

variable {α : Type} [Scalar α]

/-- The strength that must be met. -/
def required : Strength α := ⟨Scalar.ofInt 1001001000⟩

/-- One in the highest tier. -/
def strong : Strength α := ⟨Scalar.ofInt 1000000⟩

/-- One in the middle tier. -/
def medium : Strength α := ⟨Scalar.ofInt 1000⟩

/-- One in the lowest tier. -/
def weak : Strength α := ⟨Scalar.ofInt 1⟩

/-- The nearest valid strength. -/
def clipped (s : Strength α) : Strength α :=
  ⟨Scalar.clamp Scalar.zero (required : Strength α).value s.value⟩

/-- Whether a constraint of this strength must be met. -/
def isRequired (s : Strength α) : Bool := Scalar.atMost (required : Strength α).value s.value

/-- The same strength in other numbers. -/
def ofFloat (s : Strength Float) : Strength α := ⟨Scalar.ofFloat s.value⟩

/--
What a name says about a strength.
-/
inductive Named (α : Type) where
  /-- No name of a strength. -/
  | unknown
  /-- The constraint is left out. -/
  | ignore
  /-- A strength. -/
  | strength (s : Strength α)

/-- Read a name. -/
def ofName (name : String) : Named α :=
  if name = "ignore" then .ignore
  else if name = "weak" then .strength weak
  else if name = "medium" then .strength medium
  else if name = "strong" then .strength strong
  else if name = "required" then .strength required
  else .unknown

/-- The name of a standard strength. -/
def name? (s : Strength α) : Option String :=
  if Scalar.same s.value (weak : Strength α).value then some "weak"
  else if Scalar.same s.value (medium : Strength α).value then some "medium"
  else if Scalar.same s.value (strong : Strength α).value then some "strong"
  else if Scalar.same s.value (required : Strength α).value then some "required"
  else none

/-- The lesser of two floats, the other one if one is NaN. -/
def lesser (a b : Float) : Float :=
  if a.isNaN then b else if b.isNaN then a else if b < a then b else a

/-- A strength of three tiers, each scaled by a weight and kept between zero and a thousand. -/
def ofTiers (strong medium weak weight : Float) : Strength Float :=
  let tier (v : Float) := Scalar.clamp 0 1000 (v * weight)
  ⟨tier strong * 1000000 + tier medium * 1000 + tier weak⟩

/-- The tiers of a strength, the highest first. -/
def tiers (s : Strength Float) : Float × Float × Float :=
  let strong := lesser (wholeBelow (s.value / 1000000)) 1000
  let rest := s.value - strong * 1000000
  let medium := lesser (wholeBelow (rest / 1000)) 1000
  (strong, medium, rest - medium * 1000)

/-- Scale every tier. The result stays below the tier above the highest one in use; what is required
stays so. -/
def weighted (s : Strength Float) (weight : Float) : Strength Float :=
  if s.isRequired then s
  else
    let (strong, medium, weak) := s.tiers
    let ceiling : Strength Float :=
      if 0 < strong then required
      else if 0 < medium then Strength.strong
      else Strength.medium
    ⟨lesser (ofTiers strong medium weak weight).value (ceiling.value - 1)⟩

end Strength

end ReactiveView
