import ReactiveView.Expr.Basic
import ReactiveView.Expr.Template
import ReactiveView.Text.Search

/-!
This module contains the operators of the expression language that look at values only: signs,
arithmetic, ordering and membership in strings and lists. Integers are exact: a result beyond 64
bits is an error.
-/

namespace ReactiveView

namespace Operators

/-- A result within the range of integers. -/
def checkedInt (i : Int) : Except EvalError Value :=
  if Word.fits i then .ok (.int i) else .error (.type .integerOverflow)

/-- `not`, `-` and `+`. -/
def unary (op : UnaryOp) (v : Value) : Except EvalError Value :=
  match op, v with
  | .not, v => .ok (.bool (!v.truthy))
  | .neg, .float x => .ok (.float (-x))
  | .pos, .float x => .ok (.float x)
  | .neg, v =>
    match v.asInt? with
    | some i => checkedInt (-i)
    | none => .error (.type (.badUnaryOperand v.typeName))
  | .pos, v =>
    match v.asInt? with
    | some i => .ok (.int i)
    | none => .error (.type (.badUnaryOperand v.typeName))

/-- Whether a remainder of truncated division by `b` has the other sign than `b`. -/
def opposes (r b : Int) : Bool := r != 0 && decide (r < 0) != decide (b < 0)

/--
Quotient and remainder by a divisor other than zero, the quotient rounded down. Machine division
truncates, so a remainder that opposes the divisor is corrected, and the quotient with it; only the
truncated quotient is checked to fit, the corrections are not.
-/
def floorDivide (a b : Int) : Except EvalError (Int × Int) :=
  if Word.fits (a.tdiv b) then
    let q := a.tdiv b
    let r := a.tmod b
    .ok (if opposes r b then (Word.wrap (q - 1), Word.wrap (r + b)) else (q, r))
  else .error (.type .integerOverflow)

/-- Arithmetic on integers. Division gives a float; the quotient of `//` is rounded down, so that
the remainder has the sign of the divisor. -/
def intBinary (op : BinaryOp) (a b : Int) : Except EvalError Value :=
  match op with
  | .add => checkedInt (a + b)
  | .sub => checkedInt (a - b)
  | .mul => checkedInt (a * b)
  | .div =>
    if b = 0 then .error .zeroDivision else .ok (.float (Float.ofInt a / Float.ofInt b))
  | .floorDiv =>
    if b = 0 then .error .zeroDivision else (floorDivide a b).map fun (q, _) => .int q
  | .mod =>
    if b = 0 then .error .zeroDivision else (floorDivide a b).map fun (_, r) => .int r

/-- Arithmetic on floats. -/
def floatBinary (op : BinaryOp) (a b : Float) : Except EvalError Value :=
  match op with
  | .add => .ok (.float (a + b))
  | .sub => .ok (.float (a - b))
  | .mul => .ok (.float (a * b))
  | .div => if b == 0 then .error .zeroDivision else .ok (.float (a / b))
  | .floorDiv => if b == 0 then .error .zeroDivision else .ok (.float (a / b).floor)
  | .mod => if b == 0 then .error .zeroDivision else .ok (.float (a - b * (a / b).floor))

/-- The greatest length, in items or bytes, that repetition may build. -/
def repeatLimit : Nat := Nat.pow 2 24

/-- The count of repetitions, if the result stays within the limit; a negative one is none. -/
def repetitions (length : Nat) (times : Int) : Except EvalError Nat :=
  if length * times.toNat ≤ repeatLimit then .ok times.toNat
  else .error (.type .sequenceTooLong)

/-- A text several times over. -/
def repeatText (s : String) (times : Int) : Except EvalError Value := do
  let n ← repetitions s.utf8ByteSize times
  .ok (.str (if s.isEmpty then "" else Nat.repeat (· ++ s) n ""))

/-- A list several times over. -/
def repeatList (items : List Value) (times : Int) : Except EvalError Value := do
  let n ← repetitions items.length times
  .ok (.list (if items.isEmpty then [] else (List.replicate n items).flatten))

/-- Arithmetic on two values that are not both integers. -/
def mixedBinary (op : BinaryOp) (a b : Value) : Except EvalError Value :=
  match op, a, b with
  | .add, .str s, .str t => .ok (.str (s ++ t))
  | .add, .list s, .list t => .ok (.list (s ++ t))
  | .mod, .str template, arguments =>
    match Template.render template arguments with
    | .ok s => .ok (.str s)
    | .error fault => .error (.format fault)
  | op, a, b =>
    match op, a, b, a.asInt?, b.asInt? with
    | .mul, .str s, _, _, some n => repeatText s n
    | .mul, _, .str s, some n, _ => repeatText s n
    | .mul, .list items, _, _, some n => repeatList items n
    | .mul, _, .list items, some n, _ => repeatList items n
    | op, a, b, _, _ =>
      match a.asFloat?, b.asFloat? with
      | some x, some y => floatBinary op x y
      | _, _ => .error (.type (.unsupportedOperands op.text a.typeName b.typeName))

/-- Arithmetic. -/
def binary (op : BinaryOp) (a b : Value) : Except EvalError Value :=
  match a.asInt?, b.asInt? with
  | some i, some j => intBinary op i j
  | _, _ => mixedBinary op a b

/-- The order of two floats; none with NaN. -/
def floatOrder (a b : Float) : Option Ordering :=
  if a < b then some .lt else if b < a then some .gt else if a == b then some .eq else none

/-- The order of two values: texts by code point, numbers as floats. -/
def order (a b : Value) : Except EvalError Ordering :=
  let found := match a, b with
    | .str s, .str t => some (compare s t)
    | a, b =>
      match a.asFloat?, b.asFloat? with
      | some x, some y => floatOrder x y
      | _, _ => none
  match found with
  | some o => .ok o
  | none => .error (.type (.notOrdered a.typeName b.typeName))

/-- The position that an index points at, negative ones counting from the end. -/
def position (index : Value) (length : Nat) : Except EvalError Nat :=
  match index.asInt? with
  | none => .error (.type (.indexNotInteger index.typeName))
  | some i =>
    let resolved := if i < 0 then i + length else i
    if 0 ≤ resolved ∧ resolved < length then .ok resolved.toNat
    else .error (.indexOutOfRange i length)

end Operators

end ReactiveView
