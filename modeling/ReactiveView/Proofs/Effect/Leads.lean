import Mathlib.Order.Defs.Unbundled

/-!
This module contains what operations on a state lead to: a condition on their result and on the state
that they leave, and a relation between the states before and after. An operation that may fail is
looked at through its run, whose result is an error or a value.
-/

namespace ReactiveView

variable {σ ε β γ : Type}

/-- From a state, an operation comes to a result and a state as required. -/
def Leads (x : StateM σ β) (s : σ) (Q : β → σ → Prop) : Prop := Q (x.run s).1 (x.run s).2

/-- Wherever an operation starts, the state after it is related to the state before. -/
def Through (R : σ → σ → Prop) (x : StateM σ β) : Prop := ∀ s, Leads x s fun _ t => R s t

variable {s : σ} {Q Q' : β → σ → Prop} {P P' : Except ε β → σ → Prop} {R : σ → σ → Prop}

theorem Leads.mono {x : StateM σ β} (h : Leads x s Q) (hQ : ∀ b t, Q b t → Q' b t) :
    Leads x s Q' :=
  hQ _ _ h

theorem Leads.and {x : StateM σ β} (h : Leads x s Q) (h' : Leads x s Q') :
    Leads x s fun b t => Q b t ∧ Q' b t :=
  ⟨h, h'⟩

theorem leads_of_run_eq {x : StateM σ β} {b : β} {t : σ} (h : x.run s = (b, t)) (hQ : Leads x s Q) :
    Q b t := by
  unfold Leads at hQ
  rwa [h] at hQ

/-! ### Operations that do not fail -/

theorem leads_pure {b : β} : Leads (pure b) s Q ↔ Q b s := Iff.rfl

theorem leads_bind {x : StateM σ β} {f : β → StateM σ γ} {Q : γ → σ → Prop} :
    Leads (x >>= f) s Q ↔ Leads x s fun b t => Leads (f b) t Q := Iff.rfl

theorem leads_get {Q : σ → σ → Prop} : Leads (get : StateM σ σ) s Q ↔ Q s s := Iff.rfl

theorem leads_set {t : σ} {Q : PUnit → σ → Prop} :
    Leads (set t : StateM σ PUnit) s Q ↔ Q ⟨⟩ t := Iff.rfl

theorem leads_modify {f : σ → σ} {Q : PUnit → σ → Prop} :
    Leads (modify f : StateM σ PUnit) s Q ↔ Q ⟨⟩ (f s) := Iff.rfl

theorem leads_modifyGet {f : σ → β × σ} :
    Leads (StateT.modifyGet f : StateM σ β) s Q ↔ Q (f s).1 (f s).2 := Iff.rfl

/-! ### Operations that may fail -/

theorem leads_run_pure {b : β} : Leads (pure b : ExceptT ε (StateM σ) β).run s P ↔ P (.ok b) s :=
  Iff.rfl

theorem leads_run_throw {e : ε} :
    Leads (throw e : ExceptT ε (StateM σ) β).run s P ↔ P (.error e) s := Iff.rfl

theorem leads_run_modify {f : σ → σ} {P : Except ε PUnit → σ → Prop} :
    Leads (modify f : ExceptT ε (StateM σ) PUnit).run s P ↔ P (.ok ⟨⟩) (f s) := Iff.rfl

theorem leads_run_lift {x : StateM σ β} :
    Leads (ExceptT.lift x : ExceptT ε (StateM σ) β).run s P ↔ Leads x s fun b t => P (.ok b) t :=
  Iff.rfl

/-- What follows is run only if there is a value. -/
theorem leads_run_bind {x : ExceptT ε (StateM σ) β} {f : β → ExceptT ε (StateM σ) γ}
    {P : Except ε γ → σ → Prop} :
    Leads (x >>= f).run s P ↔ Leads x.run s fun r t =>
      match r with
      | .ok b => Leads (f b).run t P
      | .error e => P (.error e) t := by
  unfold Leads
  simp only [ExceptT.run, bind, ExceptT.bind, ExceptT.mk, StateT.run, StateT.bind,
    ExceptT.bindCont]
  rcases x s with ⟨_ | _, t⟩ <;> rfl

theorem leads_run_get_bind {f : σ → ExceptT ε (StateM σ) β} :
    Leads (get >>= f).run s P ↔ Leads (f s).run s P := leads_run_bind

theorem leads_run_set_bind {t : σ} {f : PUnit → ExceptT ε (StateM σ) β} :
    Leads (set t >>= f).run s P ↔ Leads (f ⟨⟩).run t P := leads_run_bind

theorem leads_run_modify_bind {g : σ → σ} {f : PUnit → ExceptT ε (StateM σ) β} :
    Leads (modify g >>= f).run s P ↔ Leads (f ⟨⟩).run (g s) P := leads_run_bind

theorem leads_run_modifyGet_bind {g : σ → γ × σ} {f : γ → ExceptT ε (StateM σ) β} :
    Leads (modifyGet g >>= f).run s P ↔ Leads (f (g s).1).run (g s).2 P := leads_run_bind

theorem leads_run_throw_bind {e : ε} {f : γ → ExceptT ε (StateM σ) β} :
    Leads (throw e >>= f).run s P ↔ P (.error e) s := leads_run_bind

theorem leads_run_lift_bind {x : StateM σ γ} {f : γ → ExceptT ε (StateM σ) β} :
    Leads (ExceptT.lift x >>= f).run s P ↔ Leads x s fun b t => Leads (f b).run t P :=
  leads_run_bind

theorem leads_run_adapt {ε' : Type} {x : ExceptT ε (StateM σ) β} {f : ε → ε'}
    {P : Except ε' β → σ → Prop} :
    Leads (x.adapt f).run s P ↔ Leads x.run s fun r t => P (r.mapError f) t := Iff.rfl

theorem Leads.run_bind {x : ExceptT ε (StateM σ) β} {f : β → ExceptT ε (StateM σ) γ}
    {P : Except ε β → σ → Prop} {P' : Except ε γ → σ → Prop} (h : Leads x.run s P)
    (hok : ∀ b t, P (.ok b) t → Leads (f b).run t P')
    (herror : ∀ e t, P (.error e) t → P' (.error e) t) : Leads (x >>= f).run s P' :=
  leads_run_bind.2 (h.mono fun r t hr =>
    match r with
    | .ok b => hok b t hr
    | .error e => herror e t hr)

/-! ### Relations between the states before and after -/

theorem through_modify {f : σ → σ} (h : ∀ s, R s (f s)) : Through R (modify f : StateM σ PUnit) := h

section

variable [IsTrans σ R]

theorem Through.bind {x : StateM σ β} {f : β → StateM σ γ} (hx : Through R x)
    (hf : ∀ b, Through R (f b)) : Through R (x >>= f) :=
  fun s => IsTrans.trans _ _ _ (hx s) (hf _ _)

theorem Through.run_bind {x : ExceptT ε (StateM σ) β} {f : β → ExceptT ε (StateM σ) γ}
    (hx : Through R x.run) (hf : ∀ b, Through R (f b).run) : Through R (x >>= f).run :=
  fun s => (hx s).run_bind (fun b t h => (hf b t).mono fun _ _ => IsTrans.trans _ _ _ h)
    fun _ _ h => h

theorem Through.run_lift_bind {x : StateM σ β} {f : β → ExceptT ε (StateM σ) γ}
    (hx : Through R x) (hf : ∀ b, Through R (f b).run) : Through R (ExceptT.lift x >>= f).run :=
  fun s => leads_run_lift_bind.2 (hx.bind hf s)

theorem Through.run_modify_bind {g : σ → σ} {f : PUnit → ExceptT ε (StateM σ) β}
    (hg : ∀ s, R s (g s)) (hf : Through R (f ⟨⟩).run) : Through R (modify g >>= f).run :=
  fun s => leads_run_modify_bind.2 ((hf (g s)).mono fun _ _ => IsTrans.trans _ _ _ (hg s))

end

variable [Std.Refl R]

theorem through_pure (b : β) : Through R (pure b) := fun s => Std.Refl.refl s

/-- An operation for each member of a list, up to the first error. -/
theorem through_forM [IsTrans σ R] {f : β → ExceptT ε (StateM σ) PUnit}
    (hf : ∀ b, Through R (f b).run) (bs : List β) : Through R (bs.forM f).run := by
  induction bs with
  | nil => exact through_pure _
  | cons b rest ih => exact (hf b).run_bind fun _ => ih

end ReactiveView
