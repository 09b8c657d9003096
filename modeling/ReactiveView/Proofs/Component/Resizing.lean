import ReactiveView.Proofs.Component.Coalescing

/-!
This module contains what becomes of a new size. A live container lays its children out for it before
the queue is empty. A component that is not live yet forgets it: only what makes its layout due after
it has become live leads to a pass.
-/

namespace ReactiveView

namespace Scene

variable {α : Type} [Scalar α] {s t : Scene α} {c k : Nat} {act : Act α} {rest : List (Act α)}

/-- An act gives a component a size: it is told so, or is placed at another size than it had. -/
def Resizes (s : Scene α) (c : Nat) (act : Act α) : Prop :=
  (∃ size, act = .resize c size) ∨
    (s.component? c).isSome ∧ (s.perform act).sizeAt c ≠ s.sizeAt c

/-- The layout of a component with children is due for its new size, if it is live. -/
theorem dueAt_of_resizes (h : s.Resizes c act) (hlive : (s.perform act).liveAt c = true)
    (hparent : (s.perform act).parentAt c = true) : (s.perform act).dueAt c = true := by
  rcases h with ⟨size, rfl⟩ | ⟨-, hsize⟩
  · exact dueAt_invalidateLayout_self ((liveAt_invalidateLayout ..).symm.trans hlive)
  · have hsized := (s.tends_perform act c).sized
    rw [sizeAt_opened] at hsized
    refine (hsized.resolve_left hsize).resolve_right fun hleaf => ?_
    cases hparent.symm.trans hleaf

/-- What is due for a live component leads to a pass before the queue is empty, also if its first
child comes later. -/
theorem passes_pos (h : t.Heeds) (hlive : t.liveAt c = true)
    (hdue : t.parentAt c = true → t.dueAt c = true) (hdrained : (t.after rest).queue.pending = [])
    (hparent : (t.after rest).parentAt c = true) : 0 < passes c t rest := by
  induction rest generalizing t with
  | nil => cases (hdue hparent).symm.trans (h.dueAt_of_nil hlive hparent hdrained)
  | cons act rest ih =>
    rw [passes]
    cases hstarts : t.starts c act with
    | true => exact Nat.add_pos_left Nat.one_pos _
    | false =>
      refine Nat.add_pos_right _ (ih (h.perform act) (liveAt_perform act hlive) ?_ hdrained hparent)
      intro hparent
      -- Only its own task clears the flag, and a component without children gets it with the first.
      have htends := t.tends_perform act c
      have hlive := (t.liveAt_opened act c).trans hlive
      cases hold : t.parentAt c with
      | true =>
        refine htends.stays hlive ?_
        rw [dueAt_opened, hdue hold, hstarts]
        rfl
      | false => exact htends.grown hlive ((parentAt_opened ..).trans hold) hparent

/-- No pass is started before a component is live, and nothing is due when it becomes so. -/
theorem exists_woken (h : t.Heeds) (hdormant : t.liveAt c = false)
    (hlive : (t.after rest).liveAt c = true) : ∃ before later, rest = before ++ later ∧
      (t.after before).liveAt c = true ∧ (t.after before).dueAt c = false ∧
      passes c t before = 0 := by
  induction rest generalizing t with
  | nil => cases hdormant.symm.trans hlive
  | cons act rest ih =>
    have hstarts : t.starts c act = false := by
      refine Bool.eq_false_of_not_eq_true fun hstarts => ?_
      obtain ⟨-, ⟨tasks, hqueue⟩, -⟩ := starts_eq_true_iff.1 hstarts
      cases hdormant.symm.trans (h.live c (hqueue ▸ List.mem_cons_self))
    cases hwoken : (t.perform act).liveAt c with
    | true =>
      have hclear := (t.tends_perform act c).woken ((liveAt_opened ..).trans hdormant) hwoken
      refine ⟨[act], rest, rfl, hwoken, hclear, ?_⟩
      rw [passes, passes, hstarts]
      rfl
    | false =>
      obtain ⟨before, later, rfl, hwoken, hclear, hnone⟩ := ih (h.perform act) hwoken hlive
      refine ⟨act :: before, later, rfl, hwoken, hclear, ?_⟩
      rw [passes, hstarts, hnone]
      rfl

/-- A new size of a container leads to a pass before the queue is empty if the component is live by
then, and otherwise exactly if its layout becomes due again once it is live. -/
theorem passes_of_resizes (hcomponents : s.components = #[])
    (hqueue : s.queue.pending = []) (acts : List (Act α)) (h : (s.after acts).Resizes c act)
    (hdrained : (((s.after acts).perform act).after rest).queue.pending = [])
    (hlive : (((s.after acts).perform act).after rest).liveAt c = true)
    (hparent : (((s.after acts).perform act).after rest).parentAt c = true) :
    0 < passes c ((s.after acts).perform act) rest ↔
      ((s.after acts).perform act).liveAt c = true ∨
      ∃ before later, rest = before ++ later ∧
        (((s.after acts).perform act).after before).liveAt c = true ∧
        0 < raisings c (((s.after acts).perform act).after before) later := by
  have hheeds := ((heeds_start hcomponents hqueue).after acts).perform act
  have hdue := dueAt_of_resizes h
  generalize (s.after acts).perform act = t at *
  have hdone := (hheeds.after rest).dueAt_of_nil hlive hparent hdrained
  constructor
  · intro hpasses
    cases hnow : t.liveAt c with
    | true => exact .inl rfl
    | false =>
      obtain ⟨before, later, rfl, hwoken, hclear, hnone⟩ := exists_woken hheeds hnow hlive
      refine .inr ⟨before, later, rfl, hwoken, ?_⟩
      have hcount := passes_add_dueAt_eq hwoken later
      rw [passes_append, hnone, Nat.zero_add] at hpasses
      rw [hclear, ← after_append, hdone] at hcount
      exact hpasses.trans_eq (Nat.add_right_cancel hcount)
  · rintro (hnow | ⟨before, later, rfl, hwoken, hraised⟩)
    · exact passes_pos hheeds hnow (hdue hnow) hdrained hparent
    · have hcount := passes_add_dueAt_eq hwoken later
      rw [← after_append, hdone] at hcount
      rw [passes_append]
      refine Nat.add_pos_right _ (lt_of_lt_of_le hraised ?_)
      rw [Bool.toNat_false, Nat.add_zero] at hcount
      exact hcount ▸ Nat.le_add_right _ _

/-- The window of a run becomes live with its size, and the label is placed in it. -/
theorem passes_of_resizes_sampleActs :
    0 < passes 0 ((({} : Scene ℚ).after sampleActs).perform (.resize 0 ⟨200, 100⟩))
      (List.replicate 1 .task) := by
  refine (passes_of_resizes (s := ({} : Scene ℚ)) rfl rfl sampleActs
    (.inl ⟨⟨200, 100⟩, rfl⟩) ?_ ?_ ?_).2 (.inl ?_)
  all_goals decide +kernel

/-- A window that is given a size before it becomes live does not place its label. -/
theorem not_passes_of_resizes : ¬ ∀ (s : Scene ℚ) (acts : List (Act ℚ)) (act : Act ℚ)
    (rest : List (Act ℚ)) (c : Nat), s.components = #[] → s.queue.pending = [] →
      (s.after acts).Resizes c act →
      (((s.after acts).perform act).after rest).queue.pending = [] →
      (((s.after acts).perform act).after rest).liveAt c = true →
      (((s.after acts).perform act).after rest).parentAt c = true →
      (((s.after acts).perform act).after rest).hasLayout c = true →
      0 < passes c ((s.after acts).perform act) rest := by
  intro h
  have hpasses := h {} (sampleActs.take 3) (.resize 0 ⟨200, 100⟩) [.activate 0] 0 rfl rfl
    (.inl ⟨⟨200, 100⟩, rfl⟩) (by decide +kernel) (by decide +kernel) (by decide +kernel)
    (by decide +kernel)
  revert hpasses
  decide +kernel

end Scene

end ReactiveView
