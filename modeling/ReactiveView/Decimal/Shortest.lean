import ReactiveView.Decimal.Binary

/-!
This module contains the shortest decimal text of a `Float`: the fewest digits that read back as the
same float and, among those, the digits nearest to it. The digits are found on exact integers; how
they are laid out is the matter of a `NumberStyle`.
-/

namespace ReactiveView

/--
The digits of a positive decimal number: `digits * 10 ^ exponent`.
-/
structure Digits where
  /-- The significant digits read as one number. -/
  digits : Nat
  /-- The power of ten they are scaled by. -/
  exponent : Int
  deriving Repr, DecidableEq

namespace Digits

/-- Compare `a / b * 10 ^ e` with `c / d`: numerators brought to one denominator. -/
def scaled (value : Nat) (exponent : Int) (den : Nat) : Nat × Nat :=
  match exponent with
  | .ofNat e => (value * Nat.pow 10 e * den, den)
  | .negSucc e => (value * den, den * Nat.pow 10 (e + 1))

/-- The exponent `e` with `10 ^ e ≤ num / den < 10 ^ (e + 1)`, for a positive fraction. -/
def leadingExponent (num den : Nat) : Int :=
  if den ≤ num then ((Nat.toDigits 10 (num / den)).length : Int) - 1
  else
    let len := (Nat.toDigits 10 (den / num)).length
    if den ≤ num * Nat.pow 10 (len - 1) then 1 - (len : Int) else -(len : Int)

/-- Whether `value * 10 ^ exponent` lies between `low / den` and `high / den`. -/
def within (closed : Bool) (low high den : Nat) (value : Nat) (exponent : Int) : Bool :=
  let (num, scale) := scaled value exponent den
  -- value * 10 ^ exponent = num / scale, with scale a multiple of den
  let low := low * (scale / den)
  let high := high * (scale / den)
  if closed then decide (low ≤ num ∧ num ≤ high) else decide (low < num ∧ num < high)

/-- Search the grids of `count`, `count + 1`, … digits for a point of the interval. -/
def search (closed : Bool) (low mid high den : Nat) (lead : Int) : Nat → Nat → Digits
  | 0, count => nearest count
  | fuel + 1, count =>
    let exponent := lead - count + 1
    let below := floorAt exponent
    let hitBelow := below != 0 && within closed low high den below exponent
    let hitAbove := within closed low high den (below + 1) exponent
    match hitBelow, hitAbove with
    | false, false => search closed low mid high den lead fuel (count + 1)
    | true, false => ⟨below, exponent⟩
    | false, true => ⟨below + 1, exponent⟩
    | true, true => nearest count
where
  /-- The greatest grid point that is not above the number. -/
  floorAt (exponent : Int) : Nat :=
    match exponent with
    | .ofNat e => mid / (den * Nat.pow 10 e)
    | .negSucc e => mid * Nat.pow 10 (e + 1) / den
  /-- The nearer of the two neighbours; the upper one on a tie. -/
  nearest (count : Nat) : Digits :=
    let exponent := lead - count + 1
    let below := floorAt exponent
    let twice :=
      match exponent with
      | .ofNat e => (2 * mid, (2 * below + 1) * den * Nat.pow 10 e)
      | .negSucc e => (2 * mid * Nat.pow 10 (e + 1), (2 * below + 1) * den)
    if twice.1 < twice.2 then ⟨below, exponent⟩ else ⟨below + 1, exponent⟩

/-- Drop trailing zeros of the digits. -/
def stripZeros : Nat → Digits → Digits
  | 0, d => d
  | fuel + 1, d =>
    if d.digits % 10 = 0 && d.digits != 0 then stripZeros fuel ⟨d.digits / 10, d.exponent + 1⟩
    else d

/--
The shortest digits of `mantissa * 2 ^ exponent`, a positive float. The numbers that read back as it
reach half a unit up and half a unit down, a quarter below a power of two; the ends belong to them
when the mantissa is even.
-/
def shortest (mantissa : Nat) (exponent : Int) : Digits :=
  let (unit, den) := Binary.fraction 1 (exponent - 2)
  let narrow := mantissa = Nat.pow 2 52 && exponent != -1074
  let low := (4 * mantissa - (if narrow then 1 else 2)) * unit
  let mid := 4 * mantissa * unit
  let high := (4 * mantissa + 2) * unit
  stripZeros 20 (search (mantissa % 2 = 0) low mid high den (leadingExponent mid den) 16 1)

end Digits

/--
How the digits of a number are laid out.
-/
structure NumberStyle where
  /-- The decimal exponents written without an exponent part; `none` for all. -/
  positional : Option (Int × Int)
  /-- Whether an integral number gets a `.0`. -/
  pointZero : Bool

namespace NumberStyle

/-- Digits with a point in front of the last `places` ones. -/
def placePoint (digits : List Char) (places : Nat) : List Char :=
  let padded := List.replicate (places + 1 - digits.length) '0' ++ digits
  padded.take (padded.length - places) ++ '.' :: padded.drop (padded.length - places)

/-- The text of a positive number. -/
def magnitude (style : NumberStyle) (d : Digits) : List Char :=
  let digits := Nat.toDigits 10 d.digits
  let lead := d.exponent + digits.length - 1
  let fits := match style.positional with
    | none => true
    | some (least, greatest) => decide (least ≤ lead ∧ lead ≤ greatest)
  if fits then
    match d.exponent with
    | .ofNat e => digits ++ List.replicate e '0' ++ (if style.pointZero then ['.', '0'] else [])
    | .negSucc e => placePoint digits (e + 1)
  else
    let mantissa := match digits with
      | [c] => [c]
      | c :: rest => c :: '.' :: rest
      | [] => []
    mantissa ++ 'e' :: (toString lead).toList

/-- The text of any float. -/
def text (style : NumberStyle) (x : Float) : String :=
  match Binary.ofFloat x with
  | .nan => "NaN"
  | .infinite negative => if negative then "-inf" else "inf"
  | .finite negative mantissa exponent =>
    let sign := if negative then ['-'] else []
    let body :=
      if mantissa = 0 then (if style.pointZero then ['0', '.', '0'] else ['0'])
      else style.magnitude (Digits.shortest mantissa exponent)
    String.ofList (sign ++ body)

/-- Values and answers: a point always, an exponent below `10 ^ -4` and from `10 ^ 16` on. -/
def value : NumberStyle := { positional := some (-4, 15), pointZero := true }

/-- Coefficients of a constraint: never an exponent, and no point that is not needed. -/
def plain : NumberStyle := { positional := none, pointZero := false }

end NumberStyle

end ReactiveView
