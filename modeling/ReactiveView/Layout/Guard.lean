/-!
This module contains the guard against entering a section that has been entered already.
-/

namespace ReactiveView

/--
A guard: whether the section is entered.
-/
structure Guard where
  /-- Whether the section is entered. -/
  active : Bool := false
  deriving Repr, DecidableEq

namespace Guard

/-- Enter the section; refused while it is entered. -/
def enter (g : Guard) : Bool × Guard := (!g.active, { active := true })

/-- Leave the section. -/
def leave (_ : Guard) : Guard := { active := false }

theorem enter_granted_iff (g : Guard) : g.enter.1 = true ↔ g.active = false := by
  simp [enter]

end Guard

/--
A guard and how many grants of it are held.
-/
structure GuardHolder where
  /-- The guard. -/
  guard : Guard := {}
  /-- The count of grants held. -/
  grants : Nat := 0

namespace GuardHolder

/-- Try to enter; a grant is kept. -/
def enter (h : GuardHolder) : Bool × GuardHolder :=
  let (granted, guard) := h.guard.enter
  (granted, { guard, grants := if granted then h.grants + 1 else h.grants })

/-- Give up the latest grant, if there is one. -/
def leave (h : GuardHolder) : Bool × GuardHolder :=
  if h.grants = 0 then (false, h)
  else (true, { guard := h.guard.leave, grants := h.grants - 1 })

end GuardHolder

end ReactiveView
