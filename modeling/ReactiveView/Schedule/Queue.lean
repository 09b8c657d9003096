/-!
This module contains first-in first-out queues.
-/

namespace ReactiveView

/--
A queue.
-/
structure Queue (τ : Type) where
  /-- What waits, the oldest first. -/
  pending : List τ := []

namespace Queue

variable {τ : Type}

instance : Inhabited (Queue τ) := ⟨{}⟩

/-- Append to a queue. -/
def push (q : Queue τ) (t : τ) : Queue τ := { pending := q.pending ++ [t] }

/-- Take the oldest entry. -/
def pop? (q : Queue τ) : Option (τ × Queue τ) :=
  match q.pending with
  | [] => none
  | t :: rest => some (t, { pending := rest })

/-- The count of entries. -/
def size (q : Queue τ) : Nat := q.pending.length

/-- Whether nothing waits. -/
def isEmpty (q : Queue τ) : Bool := q.pending.isEmpty

@[simp]
theorem pending_push (q : Queue τ) (t : τ) : (q.push t).pending = q.pending ++ [t] := rfl

theorem pop?_eq_none_iff (q : Queue τ) : q.pop? = none ↔ q.pending = [] := by
  cases q with
  | mk pending => cases pending <;> simp [pop?]

theorem pop?_eq_some_iff (q q' : Queue τ) (t : τ) :
    q.pop? = some (t, q') ↔ q.pending = t :: q'.pending := by
  cases q with
  | mk pending =>
    cases q' with
    | mk pending' => cases pending <;> simp [pop?]

end Queue

end ReactiveView
