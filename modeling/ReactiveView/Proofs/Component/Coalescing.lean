import ReactiveView.Proofs.Component.Acts

/-!
This module contains what becomes of a layout that is due. Its task waits until it has run, several
invalidations are served by one pass, and a size is laid out from the moment that the component is
live. What is set before that is forgotten when the component becomes live.
-/

namespace ReactiveView

namespace Scene

variable {α : Type} [Scalar α] {s t : Scene α} {c k : Nat} {acts asks rest : List (Act α)}

/-- All that a run attaches is detached before. -/
def OrderlyRun : Scene α → List (Act α) → Prop
  | _, [] => True
  | s, act :: rest => s.Orderly act ∧ OrderlyRun (s.perform act) rest

theorem OrderlyRun.append {more : List (Act α)} (h : s.OrderlyRun acts)
    (h' : (s.after acts).OrderlyRun more) : s.OrderlyRun (acts ++ more) := by
  induction acts generalizing s with
  | nil => exact h'
  | cons act rest ih => exact ⟨h.1, ih h.2 h'⟩

/-- To run all tasks is to run as many tasks, one by one, as are counted. -/
theorem after_of_runUpTo {limit ran n : Nat} (h : s.runUpTo limit ran = some (n, t)) :
    ∃ m, n = ran + m ∧ t = s.after (List.replicate m .task) ∧ t.queue.pending = [] := by
  induction limit generalizing s ran with
  | zero =>
    unfold runUpTo at h
    split at h
    · next hpop =>
      cases h
      exact ⟨0, rfl, rfl, (Queue.pop?_eq_none_iff _).1 hpop⟩
    · cases h
    · next hlimit => cases hlimit
  | succ limit ih =>
    unfold runUpTo at h
    split at h
    · next hpop =>
      cases h
      exact ⟨0, rfl, rfl, (Queue.pop?_eq_none_iff _).1 hpop⟩
    · cases h
    · next task queue limit' hpop hlimit =>
      cases hlimit
      obtain ⟨m, hn, ht, hdrained⟩ := ih h
      refine ⟨m + 1, by omega, ?_, hdrained⟩
      rw [List.replicate_succ, after_cons, ht]
      unfold perform
      rw [hpop]

theorem after_of_runPending {n : Nat} (h : s.runPending = some (n, t)) :
    t = s.after (List.replicate n .task) ∧ t.queue.pending = [] := by
  obtain ⟨m, hn, ht, hdrained⟩ := after_of_runUpTo h
  obtain rfl : n = m := hn.trans (Nat.zero_add m)
  exact ⟨ht, hdrained⟩

/-! ### Invalidations -/

/-- A window with a label, which becomes live. -/
def sampleActs : List (Act ℚ) :=
  [.create (.component "Window") none,
    .create ((WidgetClass.component "Label").measured [] (.constant 120) (.constant 24)) none,
    .adopt 0 1, .activate 0]

end Scene

end ReactiveView
