import ReactiveView.Proofs.Effect.Leads
import Mathlib

/-!
This module contains the comparison of two operations, each on a state of its own: what is required of
both results and of both states that they leave.
-/

namespace ReactiveView

variable {σ τ β β' γ γ' ε ε' : Type}

/-- From two states, two operations come to results and states as required. -/
def Twins (x : StateM σ β) (y : StateM τ β') (s : σ) (t : τ) (Q : β → β' → σ → τ → Prop) : Prop :=
  Leads x s fun b u => Leads y t fun c v => Q b c u v

/-- Both results are values, or both are errors. -/
inductive Ends (E : ε → ε' → σ → τ → Prop) (Q : β → β' → σ → τ → Prop) :
    Except ε β → Except ε' β' → σ → τ → Prop
  | error {e : ε} {e' : ε'} {s : σ} {t : τ} (h : E e e' s t) : Ends E Q (.error e) (.error e') s t
  | ok {b : β} {c : β'} {s : σ} {t : τ} (h : Q b c s t) : Ends E Q (.ok b) (.ok c) s t

variable {s : σ} {t : τ} {Q Q' : β → β' → σ → τ → Prop} {P : γ → γ' → σ → τ → Prop}
  {E E' : ε → ε' → σ → τ → Prop}

theorem Twins.mono {x : StateM σ β} {y : StateM τ β'} (h : Twins x y s t Q)
    (hQ : ∀ b c u v, Q b c u v → Q' b c u v) : Twins x y s t Q' :=
  hQ _ _ _ _ h

theorem Twins.congr {x x' : StateM σ β} {y y' : StateM τ β'} {s' : σ} {t' : τ}
    (h : Twins x' y' s' t' Q) (hx : x.run s = x'.run s') (hy : y.run t = y'.run t') :
    Twins x y s t Q := by
  unfold Twins Leads at *
  rwa [hx, hy]

theorem Twins.bind {x : StateM σ β} {y : StateM τ β'} {f : β → StateM σ γ} {g : β' → StateM τ γ'}
    (h : Twins x y s t Q) (hf : ∀ b c u v, Q b c u v → Twins (f b) (g c) u v P) :
    Twins (x >>= f) (y >>= g) s t P :=
  hf _ _ _ _ h

/-- What follows is run only if there are values. -/
theorem Twins.run_bind {x : ExceptT ε (StateM σ) β} {y : ExceptT ε' (StateM τ) β'}
    {f : β → ExceptT ε (StateM σ) γ} {g : β' → ExceptT ε' (StateM τ) γ'}
    (h : Twins x.run y.run s t (Ends E Q))
    (hok : ∀ b c u v, Q b c u v → Twins (f b).run (g c).run u v (Ends E' P))
    (herror : ∀ e e' u v, E e e' u v → E' e e' u v) :
    Twins (x >>= f).run (y >>= g).run s t (Ends E' P) := by
  refine leads_run_bind.2 ?_
  unfold Twins Leads at h
  simp only [leads_run_bind]
  unfold Leads
  generalize x.run.run s = p at h ⊢
  generalize y.run.run t = q at h ⊢
  obtain ⟨r, u⟩ := p
  obtain ⟨r', v⟩ := q
  cases h with
  | error h => exact .error (herror _ _ _ _ h)
  | ok h => exact hok _ _ _ _ h

theorem twins_run_pure {b : β} {c : β'} (h : Q b c s t) :
    Twins (pure b : ExceptT ε (StateM σ) β).run (pure c : ExceptT ε' (StateM τ) β').run s t
      (Ends E Q) := .ok h

end ReactiveView
