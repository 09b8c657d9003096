/-!
This module contains the exact reading of a `Float`: its sign and the integers `m` and `q` with
magnitude `m * 2 ^ q`. Every exact decimal text and every conversion to an integer starts here.
-/

namespace ReactiveView

/--
What a `Float` stands for.
-/
inductive Binary where
  /-- No number. -/
  | nan
  /-- An infinity. -/
  | infinite (negative : Bool)
  /-- The number `± mantissa * 2 ^ exponent`. -/
  | finite (negative : Bool) (mantissa : Nat) (exponent : Int)
  deriving Repr, DecidableEq

namespace Binary

/-- Take the 64 bits apart: one of sign, eleven of exponent, fifty-two of fraction. -/
def ofFloat (x : Float) : Binary :=
  let bits := x.toBits.toNat
  let negative := bits / Nat.pow 2 63 == 1
  let exponent : Nat := bits / Nat.pow 2 52 % Nat.pow 2 11
  let fraction : Nat := bits % Nat.pow 2 52
  if exponent = Nat.pow 2 11 - 1 then
    if fraction = 0 then infinite negative else nan
  else if exponent = 0 then finite negative fraction (-1074)
  else finite negative (Nat.pow 2 52 + fraction) ((exponent : Int) - 1075)

/-- Whether the float is neither infinite nor NaN. -/
def isFinite : Binary → Bool
  | finite .. => true
  | _ => false

/-- The magnitude as a fraction: numerator and denominator, the latter a power of two. -/
def fraction (mantissa : Nat) (exponent : Int) : Nat × Nat :=
  match exponent with
  | .ofNat e => (mantissa * Nat.pow 2 e, 1)
  | .negSucc e => (mantissa, Nat.pow 2 (e + 1))

/-- The number without its fractional part; zero if there is none. -/
def truncate : Binary → Int
  | finite negative mantissa exponent =>
    let (num, den) := fraction mantissa exponent
    if negative then -((num / den : Nat) : Int) else ((num / den : Nat) : Int)
  | _ => 0

end Binary

namespace Word

/-- The least signed 64-bit integer. -/
def least : Int := -Int.pow 2 63

/-- The greatest signed 64-bit integer. -/
def greatest : Int := Int.pow 2 63 - 1

/-- Whether `i` is a signed 64-bit integer. -/
def fits (i : Int) : Bool := decide (least ≤ i ∧ i ≤ greatest)

/-- The nearest signed 64-bit integer. -/
def saturate (i : Int) : Int := max least (min greatest i)

/-- The signed 64-bit integer that arithmetic without a check leaves in place of `i`. -/
def wrap (i : Int) : Int := i.bmod (Nat.pow 2 64)

/-- `i` if it is a signed 64-bit integer. -/
def checked (i : Int) : Option Int := if fits i then some i else none

/-- The integer part of a float, saturating at both ends; NaN counts as zero. -/
def ofFloat (x : Float) : Int :=
  match Binary.ofFloat x with
  | .infinite true => least
  | .infinite false => greatest
  | b => saturate b.truncate

theorem fits_iff {i : Int} :
    fits i = true ↔ -9223372036854775808 ≤ i ∧ i < 9223372036854775808 := by
  have hleast : least = -9223372036854775808 := rfl
  have hgreatest : greatest = 9223372036854775808 - 1 := rfl
  rw [fits, decide_eq_true_iff]
  omega

theorem checked_eq_some_iff {i j : Int} : checked i = some j ↔ fits i = true ∧ i = j := by
  by_cases h : fits i = true <;> simp [checked, h]

end Word

/-- The greatest whole float that is not greater. -/
def wholeBelow (x : Float) : Float :=
  match Binary.ofFloat x with
  | .finite negative mantissa exponent =>
    let (num, den) := Binary.fraction mantissa exponent
    if negative then -Float.ofNat ((num + den - 1) / den) else Float.ofNat (num / den)
  | _ => x

/-- The float without its fractional part. -/
def towardZero (x : Float) : Float := if x < 0 then x.ceil else x.floor

end ReactiveView
