import ReactiveView.Value.Basic

/-!
This module contains that the equality of values does not depend on their order.
-/

namespace ReactiveView

open Float.Model (UnpackedFloat)

/-- The comparison of floats, with the floats exchanged. -/
theorem compare_unpackedFloat_swap (a b : UnpackedFloat) :
    b.compare a = (a.compare b).map Ordering.swap := by
  have key (e f : Int) (m n : Nat) :
      (compare f e).then (compare n m) = ((compare e f).then (compare m n)).swap := by
    rw [Ordering.swap_then, Int.compare_swap, Nat.compare_swap]
  cases a with
  | notANumber => cases b <;> rfl
  | infinity s => rcases s <;> rcases b with t | _ | t | ⟨t, _, _, _⟩ <;> (try cases t) <;> rfl
  | zero s => rcases b with t | _ | t | ⟨t, _, _, _⟩ <;> (try cases t) <;> rfl
  | finite s m e hm =>
    rcases b with t | _ | t | ⟨t, n, f, hn⟩
    · cases s <;> cases t <;> rfl
    · cases s <;> rfl
    · cases s <;> rfl
    · cases s <;> cases t
      · exact congrArg some (congrArg Ordering.swap (key e f m n))
      · rfl
      · rfl
      · exact congrArg some (key e f m n)

theorem float_beq_comm (x y : Float) : (x == y) = (y == x) := by
  change (x.toModel.unpack.compare y.toModel.unpack == some .eq)
    = (y.toModel.unpack.compare x.toModel.unpack == some .eq)
  rw [compare_unpackedFloat_swap x.toModel.unpack]
  rcases x.toModel.unpack.compare y.toModel.unpack with _ | _ | _ | _ <;> rfl

theorem Function.same_comm (f g : Function) : f.same g = g.same f := by
  cases f <;> cases g <;> simp only [same] <;> exact BEq.comm

namespace Value

mutual

theorem equal_comm (v w : Value) : v.equal w = w.equal v := by
  cases v with
  | float x =>
    cases w with
    | float y =>
      simp only [equal]
      exact float_beq_comm x y
    | _ => simp only [equal]
  | list vs =>
    cases w with
    | list ws =>
      simp only [equal]
      exact equalItems_comm vs ws
    | _ => simp only [equal]
  | function f =>
    cases w with
    | function g =>
      simp only [equal]
      exact f.same_comm g
    | _ => simp only [equal]
  | _ => cases w <;> simp only [equal] <;> exact BEq.comm

theorem equalItems_comm (vs ws : List Value) : equalItems vs ws = equalItems ws vs := by
  cases vs with
  | nil => cases ws <;> simp only [equalItems]
  | cons v vs =>
    cases ws with
    | nil => simp only [equalItems]
    | cons w ws =>
      simp only [equalItems]
      rw [equal_comm v w, equalItems_comm vs ws]

end

end Value

end ReactiveView
