import ReactiveView.Decimal.Shortest

/-!
This module contains the text of a number with a fixed count of decimal places: the exact value,
rounded to the last place, a half going to the even neighbour.
-/

namespace ReactiveView

/-- The integer nearest to `num / den`; of two equally near ones the even one. -/
def roundHalfEven (num den : Nat) : Nat :=
  let q := num / den
  let r := num % den
  if 2 * r < den then q
  else if den < 2 * r then q + 1
  else if q % 2 = 0 then q else q + 1

/-- Rounding stays within half a unit. -/
theorem roundHalfEven_near (num den : Nat) (h : 0 < den) :
    2 * num ≤ 2 * roundHalfEven num den * den + den ∧
      2 * roundHalfEven num den * den ≤ 2 * num + den := by
  have hd := Nat.div_add_mod num den
  have hm := Nat.mod_lt num h
  have e1 : 2 * (num / den) * den = 2 * (den * (num / den)) := by
    rw [Nat.mul_assoc, Nat.mul_comm (num / den) den]
  have e2 : 2 * (num / den + 1) * den = 2 * (den * (num / den)) + 2 * den := by
    rw [Nat.mul_assoc, Nat.mul_comm (num / den + 1) den, Nat.mul_add]; omega
  unfold roundHalfEven
  dsimp only
  split
  · rw [e1]; omega
  · split
    · rw [e2]; omega
    · split
      · rw [e1]; omega
      · rw [e2]; omega

/-- The text of a float with exactly `places` decimal places. -/
def fixedText (x : Float) (places : Nat) : String :=
  match Binary.ofFloat x with
  | .nan => "NaN"
  | .infinite negative => if negative then "-inf" else "inf"
  | .finite negative mantissa exponent =>
    let (num, den) := Binary.fraction mantissa exponent
    let digits := Nat.toDigits 10 (roundHalfEven (num * Nat.pow 10 places) den)
    let body := if places = 0 then digits else NumberStyle.placePoint digits places
    String.ofList ((if negative then ['-'] else []) ++ body)

end ReactiveView
