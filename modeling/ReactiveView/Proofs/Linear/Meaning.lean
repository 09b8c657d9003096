import Mathlib
import ReactiveView.Linear.Constraint
import ReactiveView.Linear.Exact

/-!
This module contains what constraints say about the values of the variables: when they hold, and by
how much they are violated.
-/

namespace ReactiveView

namespace LinearExpr

variable {e : LinearExpr ℚ} {value value' : Variable → ℚ}

theorem foldl_terms (l : List (LinearTerm ℚ)) (c : ℚ) (value : Variable → ℚ) :
    l.foldl (fun acc t => acc + t.coefficient * value t.unknown) c
      = c + (l.map fun t => t.coefficient * value t.unknown).sum := by
  induction l generalizing c with
  | nil => simp
  | cons t rest ih =>
    rw [List.foldl_cons, ih, List.map_cons, List.sum_cons]
    ring

theorem evaluate_eq (e : LinearExpr ℚ) (value : Variable → ℚ) :
    e.evaluate value = e.constant + (e.terms.map fun t => t.coefficient * value t.unknown).sum :=
  foldl_terms e.terms e.constant value

theorem evaluate_congr
    (h : ∀ t ∈ e.terms, t.coefficient ≠ 0 → value t.unknown = value' t.unknown) :
    e.evaluate value = e.evaluate value' := by
  rw [evaluate_eq, evaluate_eq]
  congr 2
  apply List.map_congr_left
  intro t ht
  by_cases hc : t.coefficient = 0
  · rw [hc, zero_mul, zero_mul]
  · rw [h t ht hc]

@[simp]
theorem evaluate_ofVariable (x : Variable) (value : Variable → ℚ) :
    (ofVariable x : LinearExpr ℚ).evaluate value = value x := by
  rw [evaluate_eq]
  simp [ofVariable]

@[simp]
theorem evaluate_ofConstant (c : ℚ) (value : Variable → ℚ) :
    (ofConstant c : LinearExpr ℚ).evaluate value = c := rfl

@[simp]
theorem evaluate_plus (a b : LinearExpr ℚ) (value : Variable → ℚ) :
    (a.plus b).evaluate value = a.evaluate value + b.evaluate value := by
  simp only [evaluate_eq, plus, List.map_append, List.sum_append]
  ring

theorem evaluate_scaled (a : LinearExpr ℚ) (factor : ℚ) (value : Variable → ℚ) :
    (a.scaled factor).evaluate value = a.evaluate value * factor := by
  have hterms : (a.terms.map fun t => t.coefficient * factor * value t.unknown).sum
      = (a.terms.map fun t => t.coefficient * value t.unknown).sum * factor := by
    rw [← List.sum_map_mul_right]
    congr 2
    funext t
    ring
  rw [evaluate_eq, evaluate_eq, add_mul, ← hterms]
  simp only [scaled, List.map_map, Function.comp_def]

@[simp]
theorem evaluate_minus (a b : LinearExpr ℚ) (value : Variable → ℚ) :
    (a.minus b).evaluate value = a.evaluate value - b.evaluate value := by
  rw [minus, evaluate_plus, negated, evaluate_scaled, Scalar.ofInt_rat]
  push_cast
  ring

end LinearExpr

namespace Strength

theorem value_clipped (s : Strength ℚ) :
    s.clipped.value = if s.value < 0 then 0 else if 1001001000 < s.value then 1001001000 else s.value := by
  simp [clipped, Scalar.clamp, required]

theorem clipped_of_mem {s : Strength ℚ} (hlow : 0 ≤ s.value) (hhigh : s.value ≤ 1001001000) :
    s.clipped = s := by
  have hvalue := value_clipped s
  rw [if_neg (not_lt.2 hlow), if_neg (not_lt.2 hhigh)] at hvalue
  obtain ⟨_⟩ := s
  exact congrArg Strength.mk hvalue

theorem clipped_nonneg (s : Strength ℚ) : 0 ≤ s.clipped.value := by
  rw [value_clipped]
  split_ifs <;> linarith

theorem clipped_le (s : Strength ℚ) : s.clipped.value ≤ 1001001000 := by
  rw [value_clipped]
  split_ifs <;> linarith

@[simp]
theorem clipped_clipped (s : Strength ℚ) : s.clipped.clipped = s.clipped :=
  clipped_of_mem s.clipped_nonneg s.clipped_le

end Strength

namespace Constraint

/-- Whether values of the variables meet a constraint. -/
def Holds (c : Constraint ℚ) (value : Variable → ℚ) : Prop :=
  match c.relation with
  | .atMost => c.expr.evaluate value ≤ 0
  | .equal => c.expr.evaluate value = 0
  | .atLeast => 0 ≤ c.expr.evaluate value

/-- By how much values of the variables miss a constraint. -/
def violation (c : Constraint ℚ) (value : Variable → ℚ) : ℚ :=
  match c.relation with
  | .atMost => max (c.expr.evaluate value) 0
  | .equal => |c.expr.evaluate value|
  | .atLeast => max (-c.expr.evaluate value) 0

/-- Whether a constraint must be met. -/
def IsRequired (c : Constraint ℚ) : Prop := c.strength.isRequired = true

instance (c : Constraint ℚ) : Decidable c.IsRequired :=
  inferInstanceAs (Decidable (c.strength.isRequired = true))

/-- The weighted violation of a constraint, if it need not be met. -/
def penalty (c : Constraint ℚ) (value : Variable → ℚ) : ℚ :=
  if c.IsRequired then 0 else c.strength.value * c.violation value

/-- Whether values meet the required constraints of a list. -/
def AllMet (cs : List (Constraint ℚ)) (value : Variable → ℚ) : Prop :=
  ∀ c ∈ cs, c.IsRequired → c.Holds value

/-- The weighted violations of the constraints of a list that need not be met. -/
def totalPenalty (cs : List (Constraint ℚ)) (value : Variable → ℚ) : ℚ :=
  (cs.map fun c => c.penalty value).sum

theorem isRequired_between (id : Nat) (left : LinearExpr ℚ) (relation : Relation)
    (right : LinearExpr ℚ) : (between id left relation right).IsRequired := by
  have hclipped : (Strength.required : Strength ℚ).clipped.isRequired = true := by decide +kernel
  exact hclipped

theorem holds_between_atLeast (id : Nat) (left right : LinearExpr ℚ) (value : Variable → ℚ) :
    (between id left .atLeast right).Holds value ↔ right.evaluate value ≤ left.evaluate value := by
  unfold Holds between make
  rw [LinearExpr.evaluate_minus]
  exact sub_nonneg

theorem holds_between_atMost (id : Nat) (left right : LinearExpr ℚ) (value : Variable → ℚ) :
    (between id left .atMost right).Holds value ↔ left.evaluate value ≤ right.evaluate value := by
  unfold Holds between make
  rw [LinearExpr.evaluate_minus]
  exact sub_nonpos

instance (c : Constraint ℚ) (value : Variable → ℚ) : Decidable (c.Holds value) :=
  match h : c.relation with
  | .atMost => decidable_of_iff (c.expr.evaluate value ≤ 0) (by rw [Holds, h])
  | .equal => decidable_of_iff (c.expr.evaluate value = 0) (by rw [Holds, h])
  | .atLeast => decidable_of_iff (0 ≤ c.expr.evaluate value) (by rw [Holds, h])

end Constraint

end ReactiveView
