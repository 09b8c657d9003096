import ReactiveView.Proofs.Component.Adoption
import ReactiveView.Proofs.Component.Handing

/-!
This module contains runs: components are made and attached, get sizes and constraints, their objects
change, and the tasks that wait are run one by one. After each step of a run, also where a layout has
refused something, the solver of every container has exactly the constraints that belong there.
-/

namespace ReactiveView

namespace Scene

variable {α : Type} {s t : Scene α} {owed : List Nat} {c k : Nat} {comp : Component α}

/-! ### Tasks -/

variable [Scalar α]

/-- The component whose constraints a task is to hand over. -/
def owedBy : Task → List Nat
  | .constraints c => [c]
  | _ => []

/-- A task that is taken from the queue is owed. -/
theorem Sound.pop (h : s.Sound [] []) {task : Task} {queue : Queue Task}
    (hpop : s.queue.pop? = some (task, queue)) : Sound [] (owedBy task) { s with queue } := by
  have hpending := (Queue.pop?_eq_some_iff ..).1 hpop
  refine ⟨h.family, h.nodup, fun p c htask => h.hints p c ?_, fun k comp hcomp hinit => ?_⟩
  · rw [hpending]
    exact List.mem_cons_of_mem _ htask
  · have hfits := h.fits k comp hcomp hinit
    refine hfits.relist (.refl comp) (fun hdue => ?_) hfits.children hfits.lists hfits.inside
    have hmem := hdue.resolve_left List.not_mem_nil
    rw [hpending] at hmem
    rcases List.mem_cons.1 hmem with rfl | hrest
    · exact .inl (List.mem_singleton_self k)
    · exact .inr hrest

/-- What is owed by a component that has nothing to hand over is done. -/
theorem Sound.settle (h : s.Sound [] owed)
    (hdone : ∀ k ∈ owed, ∀ comp, s.component? k = some comp → comp.needsConstraints = false) :
    s.Sound [] [] := by
  refine ⟨h.family, h.nodup, h.hints, fun k comp hcomp hinit => ?_⟩
  have hfits := h.fits k comp hcomp hinit
  refine ⟨hfits.live, hfits.children, hfits.lists, hfits.inside,
    hfits.applied.imp_right (Or.imp_right fun hdue => ⟨hdue.1, .inr ?_⟩)⟩
  refine hdue.2.resolve_left fun hk => ?_
  cases hdue.1.symm.trans (hdone k hk comp hcomp)

theorem Sound.note (h : s.Sound [] owed) (level : Level) (message : String)
    (fields : List (String × String)) : (s.note level message fields).Sound [] owed :=
  h.stirs (spares_note ..).stirs

theorem leads_attempt {message : String} {fields : Scene α → List (String × String)}
    {pass : Laying α Unit} (h : Leads pass.run s fun _ t => t.Sound [] owed) :
    Leads (attempt message fields pass) s fun _ t => t.Sound [] owed := by
  refine leads_bind.2 (h.mono fun r t ht => ?_)
  split
  · exact leads_pure.2 ht
  · exact leads_modify.2 (ht.note ..)

theorem leads_runTask (h : s.Sound [] []) {task : Task} {queue : Queue Task}
    (hpop : s.queue.pop? = some (task, queue)) :
    Leads (runTask task) { s with queue } fun _ t => t.Sound [] [] := by
  have hpopped := h.pop hpop
  refine leads_bind.2 (leads_get.2 ?_)
  cases task with
  | constraints c =>
    have howed : ∀ k ∈ owedBy (.constraints c), k = c := fun k hk => List.mem_singleton.1 hk
    dsimp only
    split
    · next hnone =>
      refine leads_pure.2 (hpopped.settle fun k hk comp hcomp => ?_)
      cases howed k hk
      cases hnone.symm.trans hcomp
    · next comp hc =>
      split
      · exact leads_attempt (leads_handConstraints hpopped howed hc)
      · next hclean =>
        refine leads_pure.2 (hpopped.settle fun k hk comp' hcomp => ?_)
        cases howed k hk
        cases hc.symm.trans hcomp
        exact Bool.eq_false_of_not_eq_true hclean
  | layout c =>
    dsimp only
    split
    · exact leads_pure.2 hpopped
    · split
      · exact leads_attempt ((through_placeChildren c _).mono fun _ t
          (ht : Stirs ∅ ∅ _ t) => hpopped.stirs ht)
      · exact leads_pure.2 hpopped
  | sizeHint p c =>
    dsimp only
    have hchild : c ∈ s.children p := h.hints p c (by
      rw [(Queue.pop?_eq_some_iff ..).1 hpop]
      exact List.mem_cons_self)
    split
    · exact leads_attempt (leads_renewHint hpopped hchild)
    · exact leads_pure.2 hpopped

/-! ### New components -/

/-- A new component has nothing yet. -/
theorem exists_component?_newComponent (s : Scene α) (widgetClass : WidgetClass)
    (identifier : Option String) : ∃ object watchers, ∀ k,
      (s.newComponent widgetClass identifier).2.component? k
        = if k = s.components.size then
            some
              { widgetClass := widgetClass
                identifier := identifier
                object := object
                box := .starting s.nextVariable
                watchers := watchers
                size := .zero }
          else s.component? k := by
  have hpush (comp : Component α) (k : Nat) : ((s.components.push (some comp))[k]?).join
      = if k = s.components.size then some comp else s.component? k := by
    rw [Array.getElem?_push]
    split <;> rfl
  exact ⟨_, _, hpush _⟩

omit [Scalar α] in
theorem component?_eq_none (h : s.components.size ≤ k) : s.component? k = none := by
  unfold component?
  rw [Array.getElem?_eq_none h]
  rfl

omit [Scalar α] in
theorem component?_of_empty (h : s.components = #[]) (k : Nat) : s.component? k = none :=
  component?_eq_none (by rw [h]; exact k.zero_le)

theorem Sound.newComponent (h : s.Sound [] []) (widgetClass : WidgetClass)
    (identifier : Option String) :
    (s.newComponent widgetClass identifier).2.Sound [] [] := by
  obtain ⟨object, watchers, hnew⟩ := s.exists_component?_newComponent widgetClass identifier
  have hqueue : (s.newComponent widgetClass identifier).2.queue = s.queue := rfl
  generalize (s.newComponent widgetClass identifier).2 = t at hnew hqueue
  have hnone := component?_eq_none (s := s) le_rfl
  have hchildren (p : Nat) : t.children p = s.children p := by
    unfold children
    rw [hnew]
    by_cases hp : p = s.components.size
    · rw [if_pos hp, hp, hnone]
    · rw [if_neg hp]
  have hold (k : Nat) (hk : ∃ comp, s.component? k = some comp) : t.component? k = s.component? k := by
    rw [hnew, if_neg]
    rintro rfl
    obtain ⟨comp, hcomp⟩ := hk
    cases hnone.symm.trans hcomp
  refine ⟨fun p k => ?_, fun p => ?_, fun p c htask => ?_, fun k comp hcomp hinit => ?_⟩
  · rw [hchildren, h.family]
    constructor
    · rintro ⟨child, hchild, hparent⟩
      exact ⟨child, (hold k ⟨child, hchild⟩).trans hchild, hparent⟩
    · rintro ⟨child, hchild, hparent⟩
      rw [hnew] at hchild
      split at hchild
      · cases hchild
        cases hparent
      · exact ⟨child, hchild, hparent⟩
  · rw [hchildren]
    exact h.nodup p
  · rw [hchildren]
    exact h.hints p c (hqueue ▸ htask)
  · rw [hnew] at hcomp
    split at hcomp
    · cases hcomp
      cases hinit
    · have hfits := h.fits k comp hcomp hinit
      have hkids (j : Nat) (hj : j ∈ comp.children) : t.component? j = s.component? j :=
        hold j (h.exists_child (children_eq hcomp ▸ hj))
      refine hfits.relist (.refl comp) (hqueue ▸ id) hfits.children ?_ fun j hj hlate => ?_
      · obtain ⟨first, hfirst⟩ := hfits.lists
        refine ⟨first, ?_⟩
        rw [expected_congr ⟨rfl, rfl, rfl, rfl, rfl⟩ rfl (fun _ _ => .rfl) (fun j hj _ => ?_) first]
        · exact hfirst
        · unfold contributions
          rw [hkids j hj]
      · unfold Contained
        rw [hkids j hj]
        exact hfits.inside j hj hlate

/-! ### Runs -/

/-- What a host asks of a scene, however it is answered, and the tasks that the scene runs. -/
inductive Step (s : Scene α) : Scene α → Prop
  /-- Make a component. -/
  | create (widgetClass : WidgetClass) (identifier : Option String) :
      Step s (s.newComponent widgetClass identifier).2
  /-- Attach a component that has no parent. -/
  | adopt {p c : Nat} {parent child : Component α} (hp : s.component? p = some parent)
      (hc : s.component? c = some child) (hdetached : child.parent = none) :
      Step s ((adopt p c).run.run s).2
  /-- Make a component and all below it live. -/
  | activate (c : Nat) : Step s ((activate c).run.run s).2
  /-- Give a component other constraints. -/
  | constrain (c : Nat) (cs : List (Constraint α)) : Step s (s.constrain c cs)
  /-- Give a component a size. -/
  | resize (c : Nat) (size : Size α) : Step s (s.resize c size)
  /-- Change attributes, or anything else of the network, and turn its signals into tasks. -/
  | change (network : Network) : Step s { s with network }.heedSignals
  /-- Run the task that has waited longest. -/
  | task {task : Task} {queue : Queue Task} (hpop : s.queue.pop? = some (task, queue)) :
      Step s ((runTask task).run { s with queue }).2

/-- The scenes that runs come to, from one without components and tasks. -/
inductive Reached : Scene α → Prop
  | start {s : Scene α} (hcomponents : s.components = #[]) (hqueue : s.queue.pending = []) :
      Reached s
  | step {s t : Scene α} (hreached : Reached s) (hstep : s.Step t) : Reached t

/-- The network has nothing to do with what solvers list. -/
theorem Sound.renet (h : s.Sound [] []) (network : Network) : Sound [] [] { s with network } where
  family := h.family
  nodup := h.nodup
  hints := h.hints
  fits k comp hcomp hinit :=
    have hfits := h.fits k comp hcomp hinit
    ⟨hfits.live, hfits.children, hfits.lists, hfits.inside, hfits.applied⟩

theorem Sound.step_of_step (h : s.Sound [] []) (hstep : s.Step t) : t.Sound [] [] := by
  cases hstep with
  | create widgetClass identifier => exact h.newComponent widgetClass identifier
  | adopt hp hc hdetached => exact leads_adopt h hc hdetached hp
  | activate c =>
    exact (leads_activate h (fun _ hj => absurd hj List.not_mem_nil) c).sound
  | constrain c cs => exact h.constrain c cs
  | resize c size => exact h.stirs (stirs_resize s c size)
  | change network => exact (h.renet network).stirs (stirs_heedSignals _)
  | task hpop => exact leads_runTask h hpop

theorem sound_start (hcomponents : s.components = #[]) (hqueue : s.queue.pending = []) :
    s.Sound [] [] := by
  have hnone := component?_of_empty hcomponents
  have hchildren (p : Nat) : s.children p = [] := by
    unfold children
    rw [hnone]
  refine ⟨fun p k => ?_, fun p => ?_, fun p c htask => ?_, fun k comp hcomp => ?_⟩
  · rw [hchildren, hnone]
    simp
  · rw [hchildren]
    exact List.nodup_nil
  · rw [hqueue] at htask
    cases htask
  · cases (hnone k).symm.trans hcomp

theorem Reached.sound (h : Reached s) : s.Sound [] [] := by
  induction h with
  | start hcomponents hqueue => exact sound_start hcomponents hqueue
  | step _ hstep ih => exact ih.step_of_step hstep

/-- Running all tasks is a run. -/
theorem Reached.runUpTo (h : Reached s) {limit ran n : Nat} (hrun : s.runUpTo limit ran = some (n, t)) :
    Reached t ∧ t.queue.pending = [] := by
  induction limit generalizing s ran with
  | zero =>
    unfold Scene.runUpTo at hrun
    split at hrun
    · next hpop =>
      cases hrun
      exact ⟨h, (Queue.pop?_eq_none_iff _).1 hpop⟩
    · cases hrun
    · next hlimit => cases hlimit
  | succ limit ih =>
    unfold Scene.runUpTo at hrun
    split at hrun
    · next hpop =>
      cases hrun
      exact ⟨h, (Queue.pop?_eq_none_iff _).1 hpop⟩
    · next hlimit => cases hlimit
    · next task queue limit' hpop hlimit =>
      cases hlimit
      exact ih (h.step (.task hpop)) hrun

theorem Reached.runPending (h : Reached s) {n : Nat} (hrun : s.runPending = some (n, t)) :
    Reached t ∧ t.queue.pending = [] :=
  h.runUpTo hrun

/-! ### What solvers have -/

/-- A window and a label. -/
def sampleParts : Scene ℚ :=
  let window := WidgetClass.component "Window"
  let label := (WidgetClass.component "Label").measured [] (.constant 120) (.constant 24)
  ((({} : Scene ℚ).newComponent window none).2.newComponent label none).2

/-- The window has a size, and the label is in it and kept three units from its left edge. The tasks
that follow from this have not run yet. -/
def sampleScene : Scene ℚ :=
  let attached := ((adopt 0 1).run.run sampleParts).2
  let active := ((activate 0).run.run attached).2
  (active.constrain 0 [.between 50 (.ofVariable ⟨4⟩) .equal (.ofConstant 3)]).resize 0 ⟨200, 100⟩

theorem reached_sampleParts : Reached sampleParts :=
  .step (.step (.start rfl rfl) (.create _ _)) (.create _ _)

theorem reached_sampleScene : Reached sampleScene := by
  have hattached : Reached ((adopt 0 1).run.run sampleParts).2 :=
    reached_sampleParts.step (.adopt rfl rfl rfl)
  exact .step (.step (.step hattached (.activate 0)) (.constrain 0 _)) (.resize 0 _)

end Scene

end ReactiveView
