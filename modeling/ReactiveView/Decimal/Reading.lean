import ReactiveView.Decimal.Binary

/-!
This module contains the readers of decimal numbers. An integer is an optional sign and digits; a
float is an optional sign and either `inf`, `infinity`, `nan` in any case or digits with an optional
point and an optional exponent. The float read is the one nearest to the written number.
-/

namespace ReactiveView

namespace Decimal

/-- The digit characters at the front, and what follows. -/
def spanDigits (cs : List Char) : List Char × List Char :=
  (cs.takeWhile Char.isDigit, cs.dropWhile Char.isDigit)

/-- An optional sign: whether it is a minus, and what follows. -/
def spanSign : List Char → Bool × List Char
  | '-' :: rest => (true, rest)
  | '+' :: rest => (false, rest)
  | cs => (false, cs)

/-- Read a signed 64-bit integer. -/
def readInt (cs : List Char) : Option Int :=
  let (negative, digits) := spanSign cs
  if digits.isEmpty || !digits.all Char.isDigit then none
  else
    let n : Int := Nat.ofDigitChars 10 digits 0
    Word.checked (if negative then -n else n)

/--
The float nearest to `mantissa * 10 ^ exponent`. Numbers far outside the range of floats are settled
by their size, so that no power of ten is ever larger than the text that asked for it.
-/
def nearestFloat (mantissa : Nat) (exponent : Int) : Float :=
  let size := (Nat.toDigits 10 mantissa).length + exponent
  if mantissa = 0 then 0
  else if size > 400 then 1.0 / 0.0
  else if size < -400 then 0
  else Float.ofScientific mantissa (exponent < 0) exponent.natAbs

/-- Read the part of a float behind its sign. -/
def readMagnitude (cs : List Char) : Option Float :=
  let lower := String.ofList (cs.map Char.toLower)
  if lower = "inf" || lower = "infinity" then some (1.0 / 0.0)
  else if lower = "nan" then some (0.0 / 0.0)
  else
    let (whole, rest) := spanDigits cs
    let (places, rest) := match rest with
      | '.' :: rest => spanDigits rest
      | _ => ([], rest)
    let mantissa := Nat.ofDigitChars 10 (whole ++ places) 0
    let scale : Int := -(places.length : Int)
    if whole.isEmpty && places.isEmpty then none
    else match rest with
      | [] => some (nearestFloat mantissa scale)
      | c :: rest =>
        if c = 'e' || c = 'E' then
          let (negative, digits) := spanSign rest
          if digits.isEmpty || !digits.all Char.isDigit then none
          else
            let e : Int := Nat.ofDigitChars 10 digits 0
            some (nearestFloat mantissa (scale + (if negative then -e else e)))
        else none

/-- Read a float. -/
def readFloat (cs : List Char) : Option Float :=
  let (negative, rest) := spanSign cs
  (readMagnitude rest).map fun x => if negative then -x else x

end Decimal

end ReactiveView
