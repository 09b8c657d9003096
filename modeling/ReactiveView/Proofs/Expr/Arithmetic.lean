import Mathlib.Data.Int.Basic
import ReactiveView.Expr.Eval

/-!
This module contains the exactness of integer expressions. An expression of integers, truth values,
signs and the operators `+`, `-`, `*`, `//` and `%` means an integer without bounds, and it carries
out its operations in a fixed order, each on the values that its operands mean. Evaluation gives
the meaning if every operation succeeds, and the error of the first one that fails otherwise.

Machine division truncates. That the two corrections after it make it the division that rounds
down, and that neither leaves the 64 bits, is where the bounds of the operands are needed.
-/

namespace ReactiveView

namespace Word

variable {i j : Int}

theorem fits_of_natAbs_lt (hj : fits j = true) (h : i.natAbs < j.natAbs) : fits i = true := by
  rw [fits_iff] at hj ⊢
  omega

/-- Arithmetic without a check is exact where the result fits. -/
theorem wrap_of_fits (h : fits i = true) : wrap i = i := by
  obtain ⟨hleast, hgreatest⟩ := fits_iff.1 h
  exact Int.bmod_eq_of_le hleast hgreatest

end Word

/-! ### Division that rounds down -/

/--
`q` and `r` are quotient and remainder of `a` by `b`: the remainder is zero or has the sign of the
divisor, and is smaller than the divisor.
-/
structure FloorDivision (a b q r : Int) : Prop where
  /-- The quotient and the remainder make up the dividend. -/
  whole : a = b * q + r
  /-- The remainder does not oppose the divisor. -/
  sign : r = 0 ∨ r.sign = b.sign
  /-- The remainder is smaller than the divisor. -/
  small : r.natAbs < b.natAbs

theorem floorDivision_iff {a b q r : Int} (hb : b ≠ 0) :
    FloorDivision a b q r ↔ a.fdiv b = q ∧ a.fmod b = r := by
  rcases Int.lt_or_gt_of_ne hb with hneg | hpos
  · have hsign : r = 0 ∨ r.sign = b.sign ↔ r ≤ 0 := by
      rw [Int.sign_eq_neg_one_of_neg hneg, Int.sign_eq_neg_one_iff_neg]
      omega
    rw [Int.fdiv_fmod_unique' hneg]
    exact ⟨fun ⟨hwhole, hs, hsmall⟩ => ⟨by omega, by omega, hsign.1 hs⟩,
      fun ⟨hwhole, hless, hle⟩ => ⟨by omega, hsign.2 hle, by omega⟩⟩
  · have hsign : r = 0 ∨ r.sign = b.sign ↔ 0 ≤ r := by
      rw [Int.sign_eq_one_of_pos hpos, Int.sign_eq_one_iff_pos]
      omega
    rw [Int.fdiv_fmod_unique hpos]
    exact ⟨fun ⟨hwhole, hs, hsmall⟩ => ⟨by omega, hsign.1 hs, by omega⟩,
      fun ⟨hwhole, hle, hless⟩ => ⟨by omega, hsign.2 hle, by omega⟩⟩

theorem floorDivision_fdiv_fmod (a : Int) {b : Int} (hb : b ≠ 0) :
    FloorDivision a b (a.fdiv b) (a.fmod b) :=
  (floorDivision_iff hb).2 ⟨rfl, rfl⟩

namespace Operators

variable {a b r : Int}

theorem opposes_iff : opposes r b = true ↔ r < 0 ∧ 0 ≤ b ∨ 0 < r ∧ b < 0 := by
  rw [opposes, Bool.and_eq_true, bne_iff_ne, bne_iff_ne, Ne, Ne, decide_eq_decide]
  omega

theorem natAbs_tmod_lt (a : Int) (hb : b ≠ 0) : (a.tmod b).natAbs < b.natAbs := by
  rw [Int.natAbs_tmod]
  exact Nat.mod_lt _ (Int.natAbs_pos.2 hb)

/-- A remainder of truncated division that does not oppose the divisor is the right one. -/
theorem floorDivision_of_not_opposes (hb : b ≠ 0) (h : ¬opposes (a.tmod b) b = true) :
    FloorDivision a b (a.tdiv b) (a.tmod b) where
  whole := (Int.mul_tdiv_add_tmod a b).symm
  small := natAbs_tmod_lt a hb
  sign := by
    rw [opposes_iff] at h
    rcases Int.lt_trichotomy (a.tmod b) 0 with hr | hr | hr
    · rw [Int.sign_eq_neg_one_of_neg hr, Int.sign_eq_neg_one_of_neg (by omega)]
      exact .inr rfl
    · exact .inl hr
    · rw [Int.sign_eq_one_of_pos hr, Int.sign_eq_one_of_pos (by omega)]
      exact .inr rfl

/-- A remainder of truncated division that opposes the divisor is off by one divisor. -/
theorem floorDivision_of_opposes (hb : b ≠ 0) (h : opposes (a.tmod b) b = true) :
    FloorDivision a b (a.tdiv b - 1) (a.tmod b + b) := by
  rw [opposes_iff] at h
  have hsmall := natAbs_tmod_lt a hb
  refine ⟨?_, .inr ?_, by omega⟩
  · rw [Int.mul_sub, Int.mul_one, Int.add_comm (a.tmod b), ← Int.add_assoc, Int.sub_add_cancel]
    exact (Int.mul_tdiv_add_tmod a b).symm
  · rcases h with ⟨hr, hpos⟩ | ⟨hr, hneg⟩
    · rw [Int.sign_eq_one_of_pos (by omega), Int.sign_eq_one_of_pos (by omega)]
    · rw [Int.sign_eq_neg_one_of_neg (by omega), Int.sign_eq_neg_one_of_neg hneg]

/-- A remainder that opposes the divisor leaves room: the divisor is not a unit, so the quotient is
at most half of the greatest one, and the remainder moves towards zero. -/
theorem fits_of_opposes (ha : Word.fits a = true) (hb : Word.fits b = true)
    (h0 : b ≠ 0) (h : opposes (a.tmod b) b = true) :
    Word.fits (a.tdiv b) = true ∧ Word.fits (a.tdiv b - 1) = true ∧
      Word.fits (a.tmod b + b) = true := by
  rw [opposes_iff] at h
  have hsmall := natAbs_tmod_lt a h0
  have hhalf : (a.tdiv b).natAbs ≤ a.natAbs / 2 := by
    rw [Int.natAbs_tdiv]
    exact Nat.div_le_div_left (by omega) (by omega)
  simp only [Word.fits_iff] at *
  omega

/-- Machine division with its corrections is division that rounds down, and fails where the
quotient does not fit. -/
theorem floorDivide_eq (ha : Word.fits a = true) (hb : Word.fits b = true) (h0 : b ≠ 0) :
    floorDivide a b =
      if Word.fits (a.fdiv b) then .ok (a.fdiv b, a.fmod b)
      else .error (.type .integerOverflow) := by
  unfold floorDivide
  by_cases hopp : opposes (a.tmod b) b = true
  · obtain ⟨hq, hless, hmore⟩ := fits_of_opposes ha hb h0 hopp
    obtain ⟨hdiv, hmod⟩ := (floorDivision_iff h0).1 (floorDivision_of_opposes h0 hopp)
    simp only [hopp, if_true, hdiv, hmod, hq, hless, Word.wrap_of_fits hless, Word.wrap_of_fits hmore]
  · obtain ⟨hdiv, hmod⟩ := (floorDivision_iff h0).1 (floorDivision_of_not_opposes h0 hopp)
    simp only [hopp, if_false, hdiv, hmod, Bool.false_eq_true]

end Operators

/-! ### Expressions and what they mean -/

/--
Operators that take two integers to an integer.
-/
inductive IntOp where
  | add | sub | mul | floorDiv | mod

namespace IntOp

/-- The operator of the language. -/
def op : IntOp → BinaryOp
  | add => .add
  | sub => .sub
  | mul => .mul
  | floorDiv => .floorDiv
  | mod => .mod

/-- What an operator means where nothing bounds the integers. Its values at a divisor of zero
play no part. -/
def apply : IntOp → Int → Int → Int
  | add, a, b => a + b
  | sub, a, b => a - b
  | mul, a, b => a * b
  | floorDiv, a, b => a.fdiv b
  | mod, a, b => a.fmod b

end IntOp

/--
Expressions of integers.
-/
inductive IntExpr where
  /-- An integer of 64 bits. -/
  | int (i : Int) (fits : Word.fits i = true)
  /-- A truth value, which counts as zero or one. -/
  | bool (b : Bool)
  /-- The sign `-`. -/
  | neg (e : IntExpr)
  /-- The sign `+`. -/
  | pos (e : IntExpr)
  /-- Arithmetic. -/
  | arith (op : IntOp) (a b : IntExpr)

/--
An operation, with the integers that it is carried out on.
-/
inductive Operation where
  | neg (a : Int)
  | pos (a : Int)
  | arith (op : IntOp) (a b : Int)

namespace Operation

/-- The result where nothing bounds the integers. -/
def exact : Operation → Int
  | neg a => -a
  | pos a => a
  | arith op a b => op.apply a b

/-- Whether the operation divides by zero. -/
def dividesByZero : Operation → Bool
  | arith .floorDiv _ b | arith .mod _ b => b == 0
  | _ => false

/-- The integer that has to fit: the result, or the quotient that belongs to a remainder. -/
def extent : Operation → Int
  | arith .mod a b => a.fdiv b
  | o => o.exact

/-- How an operation fails, if it does. -/
def failure? (o : Operation) : Option EvalError :=
  if o.dividesByZero then some .zeroDivision
  else if Word.fits o.extent then none
  else some (.type .integerOverflow)

/-- What comes of an operation. -/
def result (o : Operation) : Except EvalError Value :=
  match o.failure? with
  | some e => .error e
  | none => .ok (.int o.exact)

end Operation

namespace IntExpr

/-- The expression of the language. -/
def expr : IntExpr → Expr
  | int i _ => .literal (.int i)
  | bool b => .literal (.bool b)
  | neg e => .unary .neg e.expr
  | pos e => .unary .pos e.expr
  | arith op a b => .binary op.op a.expr b.expr

/-- The integer that an expression means where nothing bounds the integers. -/
def value : IntExpr → Int
  | int i _ => i
  | bool b => if b then 1 else 0
  | neg e => -e.value
  | pos e => e.value
  | arith op a b => op.apply a.value b.value

/-- The operations of an expression from the left, each on what its operands mean. -/
def operations : IntExpr → List Operation
  | int .. => []
  | bool _ => []
  | neg e => e.operations ++ [.neg e.value]
  | pos e => e.operations ++ [.pos e.value]
  | arith op a b => a.operations ++ b.operations ++ [.arith op a.value b.value]

/-- The value that shows the meaning: a truth value alone stays one. -/
def shown : IntExpr → Value
  | bool b => .bool b
  | e => .int e.value

/-- What comes of an expression: the error of the first operation that fails, else the meaning. -/
def outcome (e : IntExpr) : Except EvalError Value :=
  match e.operations.findSome? Operation.failure? with
  | some err => .error err
  | none => .ok e.shown

end IntExpr

/-! ### One operation -/

section

variable {a b : Int} {v w : Value}

theorem Operation.failure?_eq_none_iff {o : Operation} :
    o.failure? = none ↔ o.dividesByZero = false ∧ Word.fits o.extent = true := by
  unfold failure?
  cases o.dividesByZero <;> cases Word.fits o.extent <;> simp

theorem Operators.checkedInt_eq_result {o : Operation} (hzero : o.dividesByZero = false)
    (hextent : o.extent = o.exact) : checkedInt o.exact = o.result := by
  unfold checkedInt Operation.result Operation.failure?
  rw [hzero, hextent]
  cases Word.fits o.exact <;> rfl

theorem Operators.intBinary_eq_result (op : IntOp) (ha : Word.fits a = true)
    (hb : Word.fits b = true) : intBinary op.op a b = (Operation.arith op a b).result := by
  have hdivide (part : Int × Int → Value) (o : Operation) (hzero : o.dividesByZero = (b == 0))
      (hextent : o.extent = a.fdiv b) (hpart : part (a.fdiv b, a.fmod b) = .int o.exact) :
      (if b = 0 then .error .zeroDivision else (floorDivide a b).map part) = o.result := by
    unfold Operation.result Operation.failure?
    rw [hzero, hextent]
    by_cases h0 : b = 0
    · rw [if_pos h0, beq_iff_eq.2 h0]
      rfl
    · rw [if_neg h0, floorDivide_eq ha hb h0, beq_eq_false_iff_ne.2 h0]
      cases Word.fits (a.fdiv b)
      · rfl
      · exact congrArg Except.ok hpart
  cases op with
  | add => exact checkedInt_eq_result (o := .arith .add a b) rfl rfl
  | sub => exact checkedInt_eq_result (o := .arith .sub a b) rfl rfl
  | mul => exact checkedInt_eq_result (o := .arith .mul a b) rfl rfl
  | floorDiv => exact hdivide _ (.arith .floorDiv a b) rfl rfl rfl
  | mod => exact hdivide _ (.arith .mod a b) rfl rfl rfl

theorem Operators.unary_neg_eq_result (hv : v.asInt? = some a) :
    unary .neg v = (Operation.neg a).result := by
  rw [← checkedInt_eq_result (o := .neg a) rfl rfl]
  cases v <;> cases hv <;> rfl

theorem Operators.unary_pos_eq_result (hv : v.asInt? = some a) (ha : Word.fits a = true) :
    unary .pos v = (Operation.pos a).result := by
  have hresult : (Operation.pos a).result = .ok (.int a) := by
    unfold Operation.result
    rw [Operation.failure?_eq_none_iff (o := .pos a) |>.2 ⟨rfl, ha⟩]
    rfl
  rw [hresult]
  cases v <;> cases hv <;> rfl

theorem Operators.binary_eq_result (op : IntOp) (hv : v.asInt? = some a) (hw : w.asInt? = some b)
    (ha : Word.fits a = true) (hb : Word.fits b = true) :
    binary op.op v w = (Operation.arith op a b).result := by
  unfold binary
  rw [hv, hw]
  exact intBinary_eq_result op ha hb

end

/-! ### Whole expressions -/

namespace IntExpr

theorem asInt?_shown (e : IntExpr) : e.shown.asInt? = some e.value := by
  cases e <;> rfl

theorem fits_apply {op : IntOp} {a b : Int} (hb : Word.fits b = true)
    (h : (Operation.arith op a b).failure? = none) : Word.fits (op.apply a b) = true := by
  obtain ⟨hzero, hextent⟩ := Operation.failure?_eq_none_iff.1 h
  cases op with
  | add | sub | mul | floorDiv => exact hextent
  | mod =>
    have h0 : b ≠ 0 := beq_eq_false_iff_ne.1 hzero
    exact Word.fits_of_natAbs_lt hb (floorDivision_fdiv_fmod a h0).small

/-- The first failure of some operations and one more. -/
theorem findSome?_concat (l : List Operation) (o : Operation) :
    (l ++ [o]).findSome? Operation.failure? =
      (l.findSome? Operation.failure?).or o.failure? := by
  rw [List.findSome?_append, List.findSome?_cons]
  cases o.failure? <;> rfl

/-- A meaning fits if every operation on the way to it succeeds. -/
theorem fits_value {e : IntExpr} (h : e.operations.findSome? Operation.failure? = none) :
    Word.fits e.value = true := by
  induction e with
  | int i hi => exact hi
  | bool b => cases b <;> rfl
  | neg e _ =>
    rw [operations, findSome?_concat, Option.or_eq_none_iff] at h
    exact (Operation.failure?_eq_none_iff.1 h.2).2
  | pos e ih =>
    rw [operations, findSome?_concat, Option.or_eq_none_iff] at h
    exact ih h.1
  | arith op a b _ ihb =>
    rw [operations, findSome?_concat, Option.or_eq_none_iff, List.findSome?_append,
      Option.or_eq_none_iff] at h
    exact fits_apply (ihb h.1.2) h.2

section

variable {e : IntExpr} {l l' : List Operation} {o : Operation} {err : EvalError}

theorem outcome_of_eq_none (h : e.operations.findSome? Operation.failure? = none) :
    e.outcome = .ok e.shown := by
  unfold outcome
  rw [h]

theorem outcome_of_eq_some (h : e.operations.findSome? Operation.failure? = some err) :
    e.outcome = .error err := by
  unfold outcome
  rw [h]

theorem outcome_eq_result (hoperations : e.operations = l ++ [o])
    (hshown : e.shown = .int o.exact) (h : l.findSome? Operation.failure? = none) :
    e.outcome = o.result := by
  unfold outcome Operation.result
  rw [hoperations, findSome?_concat, h, hshown]
  rfl

theorem outcome_eq_error (hoperations : e.operations = l ++ l')
    (h : l.findSome? Operation.failure? = some err) : e.outcome = .error err :=
  outcome_of_eq_some (by rw [hoperations, List.findSome?_append, h]; rfl)

end

/-- Evaluation gives the outcome. Operands come before their operation and the left one before the
right one, so that the first failure is the one that is met first. -/
theorem eval_expr (e : IntExpr) (store : Store) (scope : Scope) :
    e.expr.eval store scope = ExceptT.mk (pure e.outcome) := by
  induction e with
  | int i hi => rfl
  | bool b => rfl
  | neg e ih =>
    rw [expr, Expr.eval, ih]
    cases h : e.operations.findSome? Operation.failure? with
    | some err =>
      rw [outcome_of_eq_some h, outcome_eq_error (e := .neg e) rfl h]
      rfl
    | none =>
      rw [outcome_of_eq_none h, outcome_eq_result (e := .neg e) rfl rfl h,
        ← Operators.unary_neg_eq_result e.asInt?_shown]
      rfl
  | pos e ih =>
    rw [expr, Expr.eval, ih]
    cases h : e.operations.findSome? Operation.failure? with
    | some err =>
      rw [outcome_of_eq_some h, outcome_eq_error (e := .pos e) rfl h]
      rfl
    | none =>
      rw [outcome_of_eq_none h, outcome_eq_result (e := .pos e) rfl rfl h,
        ← Operators.unary_pos_eq_result e.asInt?_shown (fits_value h)]
      rfl
  | arith op a b iha ihb =>
    rw [expr, Expr.eval, iha, ihb]
    cases ha : a.operations.findSome? Operation.failure? with
    | some err =>
      rw [outcome_of_eq_some ha,
        outcome_eq_error (e := .arith op a b) (List.append_assoc _ _ _) ha]
      rfl
    | none =>
      have happend : (a.operations ++ b.operations).findSome? Operation.failure? =
          b.operations.findSome? Operation.failure? := by
        rw [List.findSome?_append, ha, Option.none_or]
      rw [outcome_of_eq_none ha]
      cases hb : b.operations.findSome? Operation.failure? with
      | some err =>
        rw [outcome_of_eq_some hb, outcome_eq_error (e := .arith op a b) rfl (happend.trans hb)]
        rfl
      | none =>
        rw [outcome_of_eq_none hb, outcome_eq_result (e := .arith op a b) rfl rfl (happend.trans hb),
          ← Operators.binary_eq_result op a.asInt?_shown b.asInt?_shown (fits_value ha)
            (fits_value hb)]
        rfl

/--
Integer expressions are exact. An expression evaluates to its meaning over the unbounded integers if
none of its operations fails, and otherwise to the error of the first one, from the left, that does.
Of quotient and remainder it says that they are those of the division that rounds down, and that
the machine computes them without leaving the 64 bits on the way.
-/
theorem run_exact (e : IntExpr) (store : Store) (scope : Scope) (fresh : Nat) :
    e.expr.run store scope fresh =
        (match e.operations.findSome? Operation.failure? with
          | some err => .error err
          | none => .ok e.shown, { fresh }) ∧
      e.shown.asInt? = some e.value ∧
      (∀ a b : Int, b ≠ 0 →
        FloorDivision a b (IntOp.floorDiv.apply a b) (IntOp.mod.apply a b)) ∧
      (∀ a b : Int, Word.fits a = true → Word.fits b = true → b ≠ 0 →
        Operators.opposes (a.tmod b) b = true →
        Word.fits (a.tdiv b - 1) = true ∧ Word.fits (a.tmod b + b) = true) := by
  refine ⟨?_, e.asInt?_shown, fun a b hb => floorDivision_fdiv_fmod a hb,
    fun a b ha hb h0 hopp => (Operators.fits_of_opposes ha hb h0 hopp).2⟩
  rw [Expr.run, e.eval_expr store scope]
  rfl

end IntExpr

end ReactiveView
