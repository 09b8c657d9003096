import ReactiveView.Proofs.Component.Placing
import ReactiveView.Proofs.Component.Realms
import Mathlib

/-!
This module contains that what is done to the components of a realm comes to the same in two scenes
that are the same in the realm: probes, size hints, becoming live, and the tasks that wait.
-/

namespace ReactiveView

namespace Realm

open Scene

section

variable (R : Realm) {α β : Type}

/-- Two operations come to the same result, and to scenes that are the same in the realm again. -/
def Accord (base base' : Scene α) (x y : Staging α β) (s t : Scene α) : Prop :=
  Twins x y s t fun b c u v => c = b ∧ R.Scenes base base' u v

end

variable {R : Realm} {α β γ : Type} {base base' s t : Scene α} {c k p : Nat}

/-! ### Sequences -/

theorem accord_pure (h : R.Scenes base base' s t) (b : β) :
    R.Accord base base' (pure b) (pure b) s t := ⟨rfl, h⟩

theorem accord_modify {f g : Scene α → Scene α} (h : R.Scenes base base' (f s) (g t)) :
    R.Accord base base' (modify f) (modify g) s t := ⟨rfl, h⟩

theorem Accord.bind {x y : Staging α β} {f g : β → Staging α γ} (h : R.Accord base base' x y s t)
    (hf : ∀ b u v, R.Scenes base base' u v → R.Accord base base' (f b) (g b) u v) :
    R.Accord base base' (x >>= f) (y >>= g) s t :=
  Twins.bind h fun b _ u v hb => hb.1 ▸ hf b u v hb.2

theorem accord_get_bind {f g : Scene α → Staging α β} (h : R.Accord base base' (f s) (g t) s t) :
    R.Accord base base' (get >>= f) (get >>= g) s t := h

section

variable {ε : Type}

theorem accord_run_pure (h : R.Scenes base base' s t) (b : β) : R.Accord base base'
    (pure b : ExceptT ε (StateM (Scene α)) β).run (pure b : ExceptT ε (StateM (Scene α)) β).run s t :=
  ⟨rfl, h⟩

theorem accord_run_throw (h : R.Scenes base base' s t) (e : ε) : R.Accord base base'
    (throw e : ExceptT ε (StateM (Scene α)) β).run (throw e : ExceptT ε (StateM (Scene α)) β).run s t :=
  ⟨rfl, h⟩

theorem accord_run_modify {f g : Scene α → Scene α} (h : R.Scenes base base' (f s) (g t)) :
    R.Accord base base' (modify f : ExceptT ε (StateM (Scene α)) PUnit).run
      (modify g : ExceptT ε (StateM (Scene α)) PUnit).run s t := ⟨rfl, h⟩

theorem Accord.run_bind {x y : ExceptT ε (StateM (Scene α)) β}
    {f g : β → ExceptT ε (StateM (Scene α)) γ} (h : R.Accord base base' x.run y.run s t)
    (hf : ∀ b u v, R.Scenes base base' u v → R.Accord base base' (f b).run (g b).run u v) :
    R.Accord base base' (x >>= f).run (y >>= g).run s t := by
  rw [ExceptT.run_bind, ExceptT.run_bind]
  refine Accord.bind h fun r u v hscenes => ?_
  cases r with
  | error e => exact ⟨rfl, hscenes⟩
  | ok b => exact hf b u v hscenes

/-- What is known about the value on one side goes for both. -/
theorem Accord.run_bind_leads {x y : ExceptT ε (StateM (Scene α)) β}
    {f g : β → ExceptT ε (StateM (Scene α)) γ} {P : β → Prop}
    (h : R.Accord base base' x.run y.run s t)
    (hP : Leads x.run s fun r _ => ∀ b, r = .ok b → P b)
    (hf : ∀ b u v, P b → R.Scenes base base' u v → R.Accord base base' (f b).run (g b).run u v) :
    R.Accord base base' (x >>= f).run (y >>= g).run s t := by
  unfold Leads at hP
  obtain ⟨hr, hscenes⟩ := h
  rw [ExceptT.run_bind, ExceptT.run_bind]
  refine Twins.bind (Q := fun r r' u v => (∀ b, r = .ok b → P b) ∧ r' = r ∧ R.Scenes base base' u v)
    ⟨hP, hr, hscenes⟩ fun r r' u v hr => ?_
  obtain ⟨hP, rfl, hscenes⟩ := hr
  cases r' with
  | error e => exact ⟨rfl, hscenes⟩
  | ok b => exact hf b u v (hP b rfl) hscenes

theorem accord_run_get_bind {f g : Scene α → ExceptT ε (StateM (Scene α)) β}
    (h : R.Accord base base' (f s).run (g t).run s t) :
    R.Accord base base' (get >>= f).run (get >>= g).run s t := h

theorem Accord.run_lift {x y : Staging α β} (h : R.Accord base base' x y s t) : R.Accord base base'
    (ExceptT.lift x : ExceptT ε (StateM (Scene α)) β).run
    (ExceptT.lift y : ExceptT ε (StateM (Scene α)) β).run s t :=
  ⟨congrArg Except.ok h.1, h.2⟩

theorem Accord.run_lift_bind {x y : Staging α β} {f g : β → ExceptT ε (StateM (Scene α)) γ}
    (h : R.Accord base base' x y s t)
    (hf : ∀ b u v, R.Scenes base base' u v → R.Accord base base' (f b).run (g b).run u v) :
    R.Accord base base' (ExceptT.lift x >>= f).run (ExceptT.lift y >>= g).run s t :=
  Accord.bind h hf

theorem accord_run_modify_bind {f g : Scene α → Scene α}
    {x y : PUnit → ExceptT ε (StateM (Scene α)) β}
    (h : R.Accord base base' (x ⟨⟩).run (y ⟨⟩).run (f s) (g t)) :
    R.Accord base base' (modify f >>= x).run (modify g >>= y).run s t := h


/-- An operation for each member of a list, up to the first error. -/
theorem accord_forM {ι : Type} {f : ι → ExceptT ε (StateM (Scene α)) PUnit} {is : List ι}
    (h : R.Scenes base base' s t)
    (hf : ∀ i ∈ is, ∀ u v, R.Scenes base base' u v → R.Accord base base' (f i).run (f i).run u v) :
    R.Accord base base' (is.forM f).run (is.forM f).run s t := by
  induction is generalizing s t with
  | nil => exact accord_run_pure h _
  | cons i rest ih =>
    rw [List.forall_mem_cons] at hf
    exact (hf.1 s t h).run_bind fun _ u v h => ih h hf.2

end

/-! ### Asking a layout -/

namespace Scenes

theorem answered (h : R.Scenes base base' s t) (hc : R.components c) (outcome : Except LayoutError β)
    (layout : Layout α) :
    R.Scenes base base' (s.update c fun comp => comp.answered outcome layout)
      (t.update c fun comp => comp.answered outcome layout) :=
  h.update_same hc fun _ => ⟨rfl, rfl, rfl, rfl⟩

/-- What a layout is asked comes to the same. -/
theorem tryLayout (h : R.Scenes base base' s t) (hc : R.components c)
    (f : Layout α → Except LayoutError β × Layout α) :
    R.Accord base base' (Scene.tryLayout c f).run (Scene.tryLayout c f).run s t := by
  have hright := h.components c hc
  unfold Accord Twins
  refine leads_tryLayout.2 ?_
  cases hcomp : s.component? c with
  | none =>
    refine leads_tryLayout.2 ?_
    rw [hright, hcomp]
    exact ⟨rfl, h⟩
  | some comp =>
    refine leads_tryLayout.2 ?_
    rw [hright, hcomp]
    exact ⟨rfl, h.answered hc ..⟩

theorem tryLogged (h : R.Scenes base base' s t) (hc : R.components c)
    (f : Layout α → Except LayoutError Unit × List LogRecord × Layout α) :
    R.Accord base base' (Scene.tryLogged c f).run (Scene.tryLogged c f).run s t := by
  have hright := h.components c hc
  unfold Accord Twins
  refine leads_tryLogged.2 ?_
  cases hcomp : s.component? c with
  | none =>
    refine leads_tryLogged.2 ?_
    rw [hright, hcomp]
    exact ⟨rfl, h⟩
  | some comp =>
    refine leads_tryLogged.2 ?_
    rw [hright, hcomp]
    exact ⟨rfl, (h.answered hc ..).logAll ..⟩

theorem fresh (h : R.Scenes base base' s t) (make : Nat → List (Constraint α)) :
    R.Accord base base' (StateT.modifyGet fun s => s.fresh make)
      (StateT.modifyGet fun s => s.fresh make) s t := by
  refine ⟨congrArg make h.nextConstraint, ?_⟩
  have hnext : t.nextConstraint + (make t.nextConstraint).length
      = s.nextConstraint + (make s.nextConstraint).length := by rw [h.nextConstraint]
  exact { h with
    left := { h.left with }
    right := { h.right with }
    nextConstraint := hnext }

variable [Scalar α]

/-! ### Probes and size hints -/

theorem minSize (h : R.Scenes base base' s t) (hc : R.components c) :
    R.Accord base base' (Scene.minSize c).run (Scene.minSize c).run s t := by
  refine accord_run_get_bind ?_
  unfold probeStrength
  rw [h.box? hc, h.config]
  split
  · exact accord_run_throw h _
  · exact h.tryLayout hc _

theorem maxSize (h : R.Scenes base base' s t) (hc : R.components c) :
    R.Accord base base' (Scene.maxSize c).run (Scene.maxSize c).run s t := by
  refine accord_run_get_bind ?_
  unfold probeStrength
  rw [h.box? hc, h.config]
  split
  · exact accord_run_throw h _
  · exact h.tryLayout hc _

theorem tellBounds (h : R.Scenes base base' s t) (hc : R.components c) :
    R.Accord base base' (Scene.tellBounds c) (Scene.tellBounds c) s t := by
  unfold Scene.tellBounds
  refine Accord.bind ?_ fun r u v h => ?_
  · refine (h.minSize hc).run_bind fun _ _ _ h => (h.maxSize hc).run_bind fun _ _ _ h => ?_
    exact accord_run_pure h _
  · split
    · exact accord_modify (h.update_same hc fun _ => ⟨rfl, rfl, rfl, rfl⟩)
    · exact accord_modify (h.logAll ..)

/-- The size hint of a component is the same. -/
theorem sizeHint (h : R.Scenes base base' s t) (hc : R.components c) :
    R.Accord base base' (Scene.sizeHint c) (Scene.sizeHint c) s t := by
  refine accord_get_bind ?_
  rw [h.hasLayout hc, h.nativeHint hc]
  split
  · refine (h.minSize hc).bind fun r u v h => ?_
    split
    · exact accord_pure h _
    · refine accord_get_bind ?_
      rw [h.nativeHint hc]
      exact accord_pure h _
  · exact accord_pure h _

theorem namedStrength (h : R.Scenes base base' s t) (hc : R.components c) (attr : String) :
    R.Accord base base' (Scene.namedStrength c attr) (Scene.namedStrength c attr) s t := by
  refine accord_get_bind ?_
  rw [h.attrs hc]
  split
  · split
    · exact accord_pure h _
    · exact accord_pure h _
    · exact ⟨rfl, h.logAll ..⟩
  · exact accord_pure h _

theorem policyOf (h : R.Scenes base base' s t) (hc : R.components c) :
    R.Accord base base' (Scene.policyOf c) (Scene.policyOf c) s t := by
  refine (h.namedStrength hc _).bind fun _ _ _ h => (h.namedStrength hc _).bind fun _ _ _ h => ?_
  refine (h.namedStrength hc _).bind fun _ _ _ h => (h.namedStrength hc _).bind fun _ _ _ h => ?_
  exact accord_pure h _

theorem hintConstraints (h : R.Scenes base base' s t) (hc : R.components c) :
    R.Accord base base' (Scene.hintConstraints c) (Scene.hintConstraints c) s t := by
  refine (h.sizeHint hc).bind fun hint _ _ h => (h.policyOf hc).bind fun policy u v h => ?_
  refine accord_get_bind ?_
  rw [h.box? hc]
  split
  · exact accord_pure h _
  · exact h.fresh _

theorem contributed (h : R.Scenes base base' s t) (hc : R.components c) (parent : Box) :
    R.Accord base base' (Scene.contributed c parent) (Scene.contributed c parent) s t := by
  refine accord_get_bind ?_
  rw [h.box? hc]
  split
  · exact accord_pure h _
  · refine (h.fresh _).bind fun containment _ _ h => (h.hintConstraints hc).bind fun hints _ _ h => ?_
    refine Accord.bind (accord_modify ?_) fun _ _ _ h => accord_pure h _
    exact h.update_same hc fun _ => ⟨rfl, rfl, rfl, rfl⟩

theorem contributedAll (h : R.Scenes base base' s t) (parent : Box) {cs : List Nat}
    (hcs : ∀ c ∈ cs, R.components c) :
    R.Accord base base' (Scene.contributedAll parent cs) (Scene.contributedAll parent cs) s t := by
  induction cs generalizing s t with
  | nil => exact accord_pure h _
  | cons c rest ih =>
    rw [List.forall_mem_cons] at hcs
    refine (h.contributed hcs.1 parent).bind fun _ _ _ h => (ih h hcs.2).bind fun _ _ _ h => ?_
    exact accord_pure h _

/-! ### Becoming live -/

theorem setUpLayout (h : R.Scenes base base' s t) (hc : R.components c) :
    R.Accord base base' (Scene.setUpLayout c).run (Scene.setUpLayout c).run s t := by
  refine accord_run_get_bind ?_
  rw [h.components c hc]
  cases hcomp : s.component? c with
  | none => exact accord_run_pure h _
  | some comp =>
    have hchildren := (h.left.owns c comp hc hcomp).children
    refine (h.fresh _).run_lift_bind fun own _ _ h => ?_
    refine (h.contributedAll comp.box hchildren).run_lift_bind fun children _ _ h => ?_
    refine (h.tryLogged hc _).run_bind fun _ _ _ h => accord_run_modify_bind ?_
    have happlied := h.update_same hc (f := fun a =>
      { a with appliedConstraints := comp.userConstraints }) fun _ => ⟨rfl, rfl, rfl, rfl⟩
    exact ((happlied.logAll ..).tellBounds hc).run_lift

theorem activateOne (h : R.Scenes base base' s t) (hc : R.components c) :
    R.Accord base base' (Scene.activateOne c).run (Scene.activateOne c).run s t := by
  have hlive {u v : Scene α} (h : R.Scenes base base' u v) : R.Scenes base base'
      (u.update c fun comp =>
        { comp with needsConstraints := false, needsLayout := false, live := true })
      (v.update c fun comp =>
        { comp with needsConstraints := false, needsLayout := false, live := true }) :=
    h.update_same hc fun _ => ⟨rfl, rfl, rfl, rfl⟩
  refine accord_run_get_bind ?_
  rw [h.components c hc]
  split
  · exact accord_run_pure h _
  · split
    · exact accord_run_pure h _
    · dsimp only
      split
      · exact (h.setUpLayout hc).run_bind fun _ _ _ h => accord_run_modify (hlive h)
      · exact accord_run_modify (hlive h)

omit [Scalar α] in
theorem dormant (h : R.Scenes base base' s t) (n : Nat) (hc : R.components c) :
    t.dormant n c = s.dormant n c ∧ ∀ k ∈ s.dormant n c, R.components k := by
  induction n generalizing c with
  | zero => exact ⟨rfl, List.forall_mem_nil _⟩
  | succ n ih =>
    unfold Scene.dormant
    rw [h.components c hc]
    cases hcomp : s.component? c with
    | none => exact ⟨rfl, List.forall_mem_nil _⟩
    | some comp =>
      have hchildren := (h.left.owns c comp hc hcomp).children
      dsimp only
      split
      · exact ⟨rfl, List.forall_mem_nil _⟩
      · refine ⟨congrArg (· ++ [c]) (List.flatMap_congr fun k hk => (ih (hchildren k hk)).1), ?_⟩
        refine List.forall_mem_append.2 ⟨fun k hk => ?_, List.forall_mem_singleton.2 hc⟩
        obtain ⟨d, hd, hk⟩ := List.mem_flatMap.1 hk
        exact (ih (hchildren d hd)).2 k hk

/-- A component becomes live, and all below it. -/
theorem activate (h : R.Scenes base base' s t) (hc : R.components c) :
    R.Accord base base' (Scene.activate c).run (Scene.activate c).run s t := by
  obtain ⟨hdormant, hmine⟩ := h.dormant s.components.size hc
  refine accord_run_get_bind ?_
  rw [h.componentCount, hdormant]
  exact accord_forM h fun k hk _ _ h => h.activateOne (hmine k hk)

/-! ### Tasks -/

omit [Scalar α] in
theorem accord_attempt (message : String) (fields : Scene α → List (String × String))
    {pass : Laying α Unit} (h : R.Accord base base' pass.run pass.run s t) :
    R.Accord base base' (attempt message fields pass) (attempt message fields pass) s t := by
  refine h.bind fun r _ _ h => ?_
  split
  · exact accord_pure h _
  · exact accord_modify (h.logAll ..)

theorem handConstraintsOne (h : R.Scenes base base' s t) (hc : R.components c) :
    R.Accord base base' (Scene.handConstraintsOne c).run (Scene.handConstraintsOne c).run s t := by
  have hbegun := h.update_same hc (f := fun comp =>
    { comp with
      needsConstraints := false
      constraintPasses := comp.constraintPasses + 1
      refused := comp.layout.isInitialized }) fun _ => ⟨rfl, rfl, rfl, rfl⟩
  refine accord_run_modify_bind (accord_run_get_bind ?_)
  rw [hbegun.components c hc]
  split
  · exact accord_run_pure hbegun _
  · split
    · refine (hbegun.tryLogged hc _).run_bind fun _ _ _ h => accord_run_modify_bind ?_
      refine Accord.run_lift_bind (tellBounds ?_ hc) fun _ _ _ h =>
        accord_run_modify (h.announceHint hc)
      exact h.update_same hc fun _ => ⟨rfl, rfl, rfl, rfl⟩
    · exact accord_run_pure hbegun _

theorem handConstraints (h : R.Scenes base base' s t) (hc : R.components c) :
    R.Accord base base' (Scene.handConstraints c).run (Scene.handConstraints c).run s t := by
  refine accord_run_get_bind ?_
  rw [h.subtree hc]
  have hmine := h.left.descendants s.components.size hc
  exact accord_forM h fun k hk _ _ h => h.handConstraintsOne (hmine k hk)

omit [Scalar α] in
theorem childBoxes (h : R.Scenes base base' s t) (hc : R.components c) :
    t.childBoxes c = s.childBoxes c ∧ ∀ e ∈ s.childBoxes c, R.components e.1 := by
  have hchildren := fun k => h.left.children hc (k := k)
  unfold Scene.childBoxes
  rw [h.children hc]
  refine ⟨List.filterMap_congr fun k hk => by rw [h.box? (hchildren k hk)], fun e he => ?_⟩
  obtain ⟨k, hk, he⟩ := List.mem_filterMap.1 he
  obtain ⟨box, -, rfl⟩ := Option.map_eq_some_iff.1 he
  exact hchildren k hk

theorem places (h : R.Scenes base base' s t) {placed : List (Nat × Geometry α)}
    (hplaced : ∀ e ∈ placed, R.components e.1) :
    R.Scenes base base' (placed.foldl (fun s e => s.place e.1 e.2) s)
      (placed.foldl (fun s e => s.place e.1 e.2) t) := by
  induction placed generalizing s t with
  | nil => exact h
  | cons e rest ih =>
    rw [List.forall_mem_cons] at hplaced
    exact ih (h.place hplaced.1 e.2) hplaced.2

theorem placeChildren (h : R.Scenes base base' s t) (hc : R.components c) :
    R.Accord base base' (Scene.placeChildren c).run (Scene.placeChildren c).run s t := by
  have hbegun := h.update_same hc (f := fun comp => { comp with needsLayout := false })
    fun _ => ⟨rfl, rfl, rfl, rfl⟩
  refine accord_run_modify_bind (accord_run_get_bind ?_)
  generalize s.update c _ = s at hbegun ⊢
  generalize t.update c _ = t at hbegun ⊢
  obtain ⟨hboxes, hmine⟩ := hbegun.childBoxes hc
  have hstrength : t.resizeStrength = s.resizeStrength := by
    unfold resizeStrength
    rw [hbegun.config]
  rw [hbegun.components c hc, hboxes, hstrength]
  cases hcomp : s.component? c with
  | none => exact accord_run_pure hbegun _
  | some comp =>
    dsimp only
    split
    · refine Accord.run_bind_leads (P := fun r => ∀ placed, r = some placed →
        ∀ e ∈ placed, R.components e.1) (hbegun.tryLayout hc _) ?_ fun resolved u v hplaced h => ?_
      · refine (leads_askPass hcomp _).mono fun r _ hr b hb placed hplaced e he => ?_
        -- What is placed are the children, whatever the solution.
        subst hb hplaced
        obtain ⟨sol, -, rfl⟩ := Option.map_eq_some_iff.1 hr.2.2.symm
        obtain ⟨box, hbox, rfl⟩ := List.mem_map.1 he
        exact hmine box hbox
      · split
        · exact accord_run_pure h _
        · next placed =>
          have hpassed := h.update_same hc (f := fun comp =>
            { comp with layoutPasses := comp.layoutPasses + 1 }) fun _ => ⟨rfl, rfl, rfl, rfl⟩
          exact accord_run_modify ((hpassed.logAll ..).places (hplaced placed rfl))
    · exact accord_run_pure hbegun _

theorem renewHint (h : R.Scenes base base' s t) (hp : R.components p) (hc : R.components c) :
    R.Accord base base' (Scene.renewHint p c).run (Scene.renewHint p c).run s t := by
  have hset (hints : List (Constraint α)) {u v : Scene α} (h : R.Scenes base base' u v) :
      R.Scenes base base' (u.update c fun comp => { comp with hints })
        (v.update c fun comp => { comp with hints }) :=
    h.update_same hc fun _ => ⟨rfl, rfl, rfl, rfl⟩
  refine accord_run_get_bind ?_
  rw [h.components c hc, h.hasLayout hp]
  split
  · exact accord_run_pure h _
  · next child _ =>
    split
    · refine accord_run_modify_bind ?_
      refine ((hset [] h).hintConstraints hc).run_lift_bind fun hints _ _ h => ?_
      refine (h.tryLogged hp _).run_lift_bind fun r _ _ h => ?_
      split
      · exact accord_run_modify_bind (accord_run_throw (hset child.hints h) _)
      · refine accord_run_modify_bind (((hset hints h).tellBounds hp).run_lift_bind fun _ _ _ h => ?_)
        exact accord_run_modify ((h.invalidateLayout hp).announceHint hp)
    · exact accord_run_pure h _

/-- A task of the realm does the same. -/
theorem runTask (h : R.Scenes base base' s t) {task : Task} (htask : R.Bears task) :
    R.Accord base base' (Scene.runTask task) (Scene.runTask task) s t := by
  refine accord_get_bind ?_
  cases task with
  | constraints c =>
    dsimp only
    rw [h.components c htask]
    split
    · exact accord_pure h _
    · split
      · exact accord_attempt _ _ (h.handConstraints htask)
      · exact accord_pure h _
  | layout c =>
    dsimp only
    rw [h.components c htask]
    split
    · exact accord_pure h _
    · split
      · exact accord_attempt _ _ (h.placeChildren htask)
      · exact accord_pure h _
  | sizeHint p c =>
    dsimp only
    rw [h.components p htask.1, h.components c htask.2]
    split
    · exact accord_attempt _ _ (h.renewHint htask.1 htask.2)
    · exact accord_pure h _

/-! ### New children -/

theorem takeIn (h : R.Scenes base base' s t) (hp : R.components p) (hc : R.components c) :
    R.Accord base base' (Scene.takeIn p c).run (Scene.takeIn p c).run s t := by
  refine (h.activate hc).run_bind fun _ _ _ h => accord_run_get_bind ?_
  rw [h.components p hp]
  split
  · exact accord_run_pure h _
  · split
    · exact (h.contributed hc _).run_lift_bind fun added _ _ h => h.tryLogged hp _
    · exact h.setUpLayout hp

/-- A child is attached. -/
theorem adopt (h : R.Scenes base base' s t) (hp : R.components p) (hc : R.components c) :
    R.Accord base base' (Scene.adopt p c).run (Scene.adopt p c).run s t := by
  refine accord_run_get_bind ?_
  rw [h.components p hp]
  refine accord_run_modify_bind ?_
  have hattached := h.attach hp hc
  split
  · split
    · refine (hattached.takeIn hp hc).run_lift_bind fun r _ _ h => ?_
      split
      · exact accord_run_modify_bind (accord_run_throw (h.detach hp hc) _)
      · refine (h.tellBounds hp).run_lift_bind fun _ _ _ h => ?_
        exact accord_run_modify ((h.invalidateLayout hp).announceHint hp)
    · exact accord_run_pure hattached _
  · exact accord_run_pure hattached _

end Scenes

end Realm

end ReactiveView
