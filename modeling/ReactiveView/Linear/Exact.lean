import Mathlib
import ReactiveView.Decimal.Binary
import ReactiveView.Linear.Scalar

/-!
This module contains the exact numbers that a linear system can be solved over. Nothing but zero
counts as zero, and every number can be a least ratio.
-/

namespace ReactiveView

/-- The number that a float stands for; zero if it stands for none. -/
def Binary.toRat : Binary → ℚ
  | .finite negative mantissa exponent =>
    if negative then -(mantissa * 2 ^ exponent) else mantissa * 2 ^ exponent
  | _ => 0

instance : Scalar ℚ where
  ofInt i := i
  ofFloat x := (Binary.ofFloat x).toRat
  toFloat q := Float.ofInt q.num / Float.ofNat q.den
  less a b := a < b
  atMost a b := a ≤ b
  same a b := a = b
  negligible a := a = 0
  bounded _ := true
  round q := if q < 0 then -⌊-q + 1 / 2⌋ else ⌊q + 1 / 2⌋

namespace Scalar

@[simp]
theorem ofInt_rat (i : Int) : (ofInt i : ℚ) = i := rfl

@[simp]
theorem zero_rat : (zero : ℚ) = 0 := rfl

@[simp]
theorem one_rat : (one : ℚ) = 1 := rfl

@[simp]
theorem less_rat (a b : ℚ) : less a b = decide (a < b) := rfl

@[simp]
theorem atMost_rat (a b : ℚ) : atMost a b = decide (a ≤ b) := rfl

@[simp]
theorem same_rat (a b : ℚ) : same a b = decide (a = b) := rfl

@[simp]
theorem negligible_rat (a : ℚ) : negligible a = decide (a = 0) := rfl

@[simp]
theorem bounded_rat (a : ℚ) : bounded a = true := rfl

@[simp]
theorem isNegative_rat (a : ℚ) : isNegative a = decide (a < 0) := rfl

@[simp]
theorem isPositive_rat (a : ℚ) : isPositive a = decide (0 < a) := rfl

end Scalar

end ReactiveView
