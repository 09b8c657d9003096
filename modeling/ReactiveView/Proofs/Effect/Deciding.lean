import ReactiveView.Proofs.Effect.Leads

/-!
This module contains when operations that may fail do not: the condition that decides it, and what
they lead to then.
-/

namespace ReactiveView

variable {σ ε β γ : Type}

/-- From a state, an operation has a value just under the condition `C`, and then the value and the
state are as required. -/
def SucceedsIff (x : ExceptT ε (StateM σ) β) (s : σ) (C : Prop) (Q : β → σ → Prop) : Prop :=
  Leads x.run s fun r t =>
    match r with
    | .ok b => C ∧ Q b t
    | .error _ => ¬ C

variable {x : ExceptT ε (StateM σ) β} {f : β → ExceptT ε (StateM σ) γ} {s : σ} {b : β} {e : ε}
  {C C' : Prop} {Q Q' : β → σ → Prop} {P : γ → σ → Prop}

theorem SucceedsIff.mono (h : SucceedsIff x s C Q) (hC : C ↔ C')
    (hQ : C → ∀ b t, Q b t → Q' b t) : SucceedsIff x s C' Q' := by
  refine Leads.mono h ?_
  rintro (e | b) t ht
  · exact fun hC' => ht (hC.2 hC')
  · exact ⟨hC.1 ht.1, hQ ht.1 b t ht.2⟩

theorem succeedsIff_pure (hC : C) (hQ : Q b s) : SucceedsIff (ε := ε) (pure b) s C Q := ⟨hC, hQ⟩

theorem succeedsIff_throw (hC : ¬ C) :
    SucceedsIff (throw e : ExceptT ε (StateM σ) β) s C Q := hC

theorem succeedsIff_throw_bind {g : β → ExceptT ε (StateM σ) γ} (hC : ¬ C) :
    SucceedsIff (throw e >>= g) s C P := hC

theorem succeedsIff_modify {g : σ → σ} {Q : PUnit → σ → Prop} (hC : C) (hQ : Q ⟨⟩ (g s)) :
    SucceedsIff (ε := ε) (modify g) s C Q := ⟨hC, hQ⟩

theorem succeedsIff_modify_bind {g : σ → σ} {k : PUnit → ExceptT ε (StateM σ) β} :
    SucceedsIff (modify g >>= k) s C Q ↔ SucceedsIff (k ⟨⟩) (g s) C Q := leads_run_modify_bind

theorem succeedsIff_get_bind {k : σ → ExceptT ε (StateM σ) β} :
    SucceedsIff (get >>= k) s C Q ↔ SucceedsIff (k s) s C Q := leads_run_get_bind

/-- The whole succeeds just if what follows does, when that needs the first part to succeed. -/
theorem SucceedsIff.bind (h : SucceedsIff x s C Q) (hC : C' → C)
    (hf : C → ∀ b t, Q b t → SucceedsIff (f b) t C' P) : SucceedsIff (x >>= f) s C' P :=
  Leads.run_bind h (fun b t ht => hf ht.1 b t ht.2) fun _ _ he hC' => he (hC hC')

theorem SucceedsIff.exists_ok_iff (h : SucceedsIff x s C Q) :
    (∃ b, (x.run.run s).1 = .ok b) ↔ C := by
  unfold SucceedsIff Leads at h
  dsimp only at h
  split at h
  · next b hb => exact ⟨fun _ => h.1, fun _ => ⟨b, hb⟩⟩
  · next e he => exact ⟨fun ⟨b, hb⟩ => (nomatch he.symm.trans hb), fun hC => absurd hC h⟩

theorem SucceedsIff.of_ok (h : SucceedsIff x s C Q) (hok : (x.run.run s).1 = .ok b) :
    C ∧ Q b (x.run.run s).2 := by
  unfold SucceedsIff Leads at h
  dsimp only at h
  split at h
  · next b' hb =>
    obtain rfl := Except.ok.inj (hb.symm.trans hok)
    exact h
  · next e he => exact nomatch he.symm.trans hok

end ReactiveView
