import ReactiveView.Proofs.Component.Frame
import ReactiveView.Proofs.Effect.Twins
import ReactiveView.Proofs.Network.Locality
import ReactiveView.Proofs.Network.Resting
import Mathlib

/-!
This module contains scenes of which only a realm differs from what it was at first, two at a time: in
the realm they are the same. Whatever a party does to its components keeps that.
-/

namespace ReactiveView

/-- The component that a task is about. -/
def Task.subject : Task → Nat
  | .constraints c => c
  | .layout c => c
  | .sizeHint p _ => p

/-- No work is in progress, and what is alive is held. -/
structure Network.Still (net : Network) : Prop where
  busy : net.busy = []
  signals : net.signals = []
  rests : net.Rests

namespace Realm

section

variable (R : Realm) {α : Type}

/-- What the component refers to is in the realm. -/
structure Owns (comp : Component α) : Prop where
  object : R.objects comp.object.id
  notes : ∀ o ∈ comp.notes, R.objects o.id
  parent : ∀ p, comp.parent = some p → R.components p
  children : ∀ c ∈ comp.children, R.components c

open Classical in
/-- Whether a task is about a component of the realm. -/
noncomputable def minds (task : Task) : Bool := decide (R.components task.subject)

/-- The task does nothing outside of the realm. -/
def Bears : Task → Prop
  | .constraints c => R.components c
  | .layout c => R.components c
  | .sizeHint p c => R.components p ∧ R.components c

/--
A scene of which only the realm differs from what it was at first.
-/
structure Encloses (base s : Scene α) : Prop where
  network : R.Confines base.network s.network
  still : s.network.Still
  /-- What is outside is as it was. -/
  components : ∀ c, ¬R.components c → s.component? c = base.component? c
  tasks : s.queue.pending.filter (fun task => !R.minds task)
    = base.queue.pending.filter fun task => !R.minds task
  /-- What is in the realm refers to nothing outside. -/
  owns : ∀ c comp, R.components c → s.component? c = some comp → R.Owns comp
  bears : ∀ task ∈ s.queue.pending, R.minds task = true → R.Bears task

/--
Two scenes that differ from what they were at first only in the realm, and there they are the same.
-/
structure Scenes (base base' s t : Scene α) : Prop where
  left : R.Encloses base s
  right : R.Encloses base' t
  same : R.Same s.network t.network
  /-- The same is held from outside. -/
  held : ∀ i, R.objects i → (R.HeldOutside base'.network i ↔ R.HeldOutside base.network i)
  components : ∀ c, R.components c → t.component? c = s.component? c
  componentCount : t.components.size = s.components.size
  tasks : t.queue.pending.filter R.minds = s.queue.pending.filter R.minds
  nextVariable : t.nextVariable = s.nextVariable
  nextConstraint : t.nextConstraint = s.nextConstraint
  config : t.config = s.config

end

open Scene

variable {R : Realm} {α β γ : Type} {base base' s t : Scene α} {c k p : Nat} {task : Task}
  {comp : Component α}

@[simp]
theorem minds_eq_true_iff : R.minds task = true ↔ R.components task.subject := by
  unfold minds
  exact @decide_eq_true_iff _ (Classical.propDecidable _)

theorem minds_eq_false_iff : R.minds task = false ↔ ¬R.components task.subject := by
  rw [Bool.eq_false_iff, ne_eq, minds_eq_true_iff]

theorem Bears.minds (h : R.Bears task) : R.minds task = true := by
  rw [minds_eq_true_iff]
  cases task with
  | constraints | layout => exact h
  | sizeHint => exact h.1

namespace Encloses

theorem children (h : R.Encloses base s) (hc : R.components c) (hk : k ∈ s.children c) :
    R.components k := by
  unfold Scene.children at hk
  cases hcomp : s.component? c with
  | none =>
    rw [hcomp] at hk
    cases hk
  | some comp =>
    rw [hcomp] at hk
    exact (h.owns c comp hc hcomp).children k hk

theorem parent (h : R.Encloses base s) (hc : R.components c) (hp : s.parent? c = some p) :
    R.components p := by
  unfold parent? at hp
  obtain ⟨comp, hcomp, hp⟩ := Option.bind_eq_some_iff.1 hp
  obtain ⟨q, hq, hp⟩ := Option.bind_eq_some_iff.1 hp
  obtain ⟨-, -, hp⟩ := Option.bind_eq_some_iff.1 hp
  exact (h.owns c comp hc hcomp).parent p (Option.some.inj hp ▸ hq)

theorem descendants (h : R.Encloses base s) (n : Nat) (hc : R.components c) :
    ∀ k ∈ s.descendants n c, R.components k := by
  induction n generalizing c with
  | zero => exact List.forall_mem_nil _
  | succ n ih =>
    refine List.forall_mem_cons.2 ⟨hc, fun k hk => ?_⟩
    obtain ⟨d, hd, hk⟩ := List.mem_flatMap.1 hk
    exact ih (h.children hc hd) k hk

/-! ### Steps -/

theorem update (h : R.Encloses base s) (hc : R.components c) {f : Component α → Component α}
    (hf : ∀ a, R.Owns a → R.Owns (f a)) : R.Encloses base (s.update c f) where
  network := h.network
  still := h.still
  components k hk := by
    rw [component?_update, if_neg fun heq : k = c => hk (heq ▸ hc), h.components k hk]
  tasks := h.tasks
  owns k comp hk hcomp := by
    rw [component?_update] at hcomp
    split at hcomp
    · obtain ⟨a, ha, rfl⟩ := Option.map_eq_some_iff.1 hcomp
      exact hf a (h.owns k a hk ha)
    · exact h.owns k comp hk hcomp
  bears := h.bears

theorem renet (h : R.Encloses base s) {network : Network}
    (hnetwork : R.Confines base.network network) (hstill : network.Still) :
    R.Encloses base { s with network } :=
  ⟨hnetwork, hstill, h.components, h.tasks, h.owns, h.bears⟩

theorem logAll (h : R.Encloses base s) (log : List LogRecord) : R.Encloses base (s.logAll log) :=
  h.renet (h.network.same rfl rfl rfl rfl rfl rfl h.network.busy h.network.signals)
    ⟨h.still.busy, h.still.signals, h.still.rests⟩

theorem push (h : R.Encloses base s) (htask : R.Bears task) :
    R.Encloses base { s with queue := s.queue.push task } where
  network := h.network
  still := h.still
  components := h.components
  tasks := by
    dsimp only
    rw [Queue.pending_push, List.filter_append, List.filter_cons_of_neg (by simp [htask.minds]),
      List.filter_nil, List.append_nil, h.tasks]
  owns := h.owns
  bears task' htask' hminds := by
    rcases List.mem_append.1 htask' with hold | hlast
    · exact h.bears task' hold hminds
    · exact List.mem_singleton.1 hlast ▸ htask

end Encloses

namespace Scenes

theorem nets (h : R.Scenes base base' s t) :
    R.Nets base.network base'.network s.network t.network :=
  ⟨h.left.network, h.right.network, h.same, h.held⟩

/-! ### What is the same -/

theorem parent? (h : R.Scenes base base' s t) (hc : R.components c) : t.parent? c = s.parent? c := by
  unfold Scene.parent?
  rw [h.components c hc]
  cases hcomp : s.component? c with
  | none => rfl
  | some comp =>
    cases hp : comp.parent with
    | none => simp [hp]
    | some p => simp [hp, h.components p ((h.left.owns c comp hc hcomp).parent p hp)]

theorem children (h : R.Scenes base base' s t) (hc : R.components c) :
    t.children c = s.children c := by
  unfold Scene.children
  rw [h.components c hc]

theorem descendants (h : R.Scenes base base' s t) (n : Nat) (hc : R.components c) :
    t.descendants n c = s.descendants n c := by
  induction n generalizing c with
  | zero => rfl
  | succ n ih =>
    unfold Scene.descendants
    rw [h.children hc]
    exact congrArg _ (List.flatMap_congr fun k hk => ih (h.left.children hc hk))

theorem subtree (h : R.Scenes base base' s t) (hc : R.components c) : t.subtree c = s.subtree c := by
  unfold Scene.subtree
  rw [h.componentCount, h.descendants _ hc]

theorem attrs (h : R.Scenes base base' s t) (hc : R.components c) : t.attrs c = s.attrs c := by
  unfold Scene.attrs
  rw [h.components c hc]
  cases hcomp : s.component? c with
  | none => rfl
  | some comp => exact h.nets.attrs (.inl (h.left.owns c comp hc hcomp).object)

theorem box? (h : R.Scenes base base' s t) (hc : R.components c) : t.box? c = s.box? c := by
  unfold Scene.box?
  rw [h.components c hc]

theorem hasLayout (h : R.Scenes base base' s t) (hc : R.components c) :
    t.hasLayout c = s.hasLayout c := by
  unfold Scene.hasLayout
  rw [h.components c hc]

/-! ### Steps -/

theorem update (h : R.Scenes base base' s t) (hc : R.components c) {f : Component α → Component α}
    (hf : ∀ a, R.Owns a → R.Owns (f a)) : R.Scenes base base' (s.update c f) (t.update c f) :=
  { h with
    left := h.left.update hc hf
    right := h.right.update hc hf
    components k hk := by rw [component?_update, component?_update, h.components k hk]
    componentCount := Array.size_modify.trans (h.componentCount.trans Array.size_modify.symm) }

/-- What the component refers to stays the same. -/
theorem update_same (h : R.Scenes base base' s t) (hc : R.components c)
    {f : Component α → Component α} (hf : ∀ a, (f a).object = a.object ∧ (f a).notes = a.notes ∧
      (f a).parent = a.parent ∧ (f a).children = a.children) :
    R.Scenes base base' (s.update c f) (t.update c f) :=
  h.update hc fun a ha => by
    obtain ⟨hobject, hnotes, hparent, hchildren⟩ := hf a
    exact ⟨hobject ▸ ha.object, hnotes ▸ ha.notes, hparent ▸ ha.parent, hchildren ▸ ha.children⟩

theorem renet (h : R.Scenes base base' s t) {a b : Network}
    (hnets : R.Nets base.network base'.network a b) (ha : a.Still) (hb : b.Still) :
    R.Scenes base base' { s with network := a } { t with network := b } :=
  { h with
    left := h.left.renet hnets.left ha
    right := h.right.renet hnets.right hb
    same := hnets.same }

theorem logAll (h : R.Scenes base base' s t) (log log' : List LogRecord) :
    R.Scenes base base' (s.logAll log) (t.logAll log') :=
  { h with
    left := h.left.logAll log
    right := h.right.logAll log'
    same := { h.same with } }

theorem push (h : R.Scenes base base' s t) (htask : R.Bears task) :
    R.Scenes base base' { s with queue := s.queue.push task }
      { t with queue := t.queue.push task } :=
  { h with
    left := h.left.push htask
    right := h.right.push htask
    tasks := by
      dsimp only
      rw [Queue.pending_push, Queue.pending_push, List.filter_append, List.filter_append, h.tasks] }

theorem schedule (h : R.Scenes base base' s t) (hc : R.components c) (htask : R.Bears task) :
    R.Scenes base base' (s.schedule c task) (t.schedule c task) := by
  unfold Scene.schedule
  rw [h.components c hc]
  split
  · split
    · exact h.push htask
    · exact h
  · exact h

theorem invalidateConstraints (h : R.Scenes base base' s t) (hc : R.components c) :
    R.Scenes base base' (s.invalidateConstraints c) (t.invalidateConstraints c) := by
  have hdue : R.Scenes base base' (s.update c fun comp => { comp with needsConstraints := true })
      (t.update c fun comp => { comp with needsConstraints := true }) :=
    h.update_same hc fun _ => ⟨rfl, rfl, rfl, rfl⟩
  exact hdue.schedule hc hc

theorem invalidateLayout (h : R.Scenes base base' s t) (hc : R.components c) :
    R.Scenes base base' (s.invalidateLayout c) (t.invalidateLayout c) := by
  have hdue : R.Scenes base base' (s.update c fun comp => { comp with needsLayout := true })
      (t.update c fun comp => { comp with needsLayout := true }) :=
    h.update_same hc fun _ => ⟨rfl, rfl, rfl, rfl⟩
  exact hdue.schedule hc hc

theorem announceHint (h : R.Scenes base base' s t) (hc : R.components c) :
    R.Scenes base base' (s.announceHint c) (t.announceHint c) := by
  unfold Scene.announceHint
  rw [h.parent? hc]
  cases hp : s.parent? c with
  | none => exact h
  | some p =>
    have hp := h.left.parent hc hp
    dsimp only
    rw [h.components p hp]
    split
    · split
      · exact h.push ⟨hp, hc⟩
      · exact h
    · exact h

/-- The network goes on, and its signals become tasks. -/
theorem heedSignals (h : R.Scenes base base' s t) {a b : Network}
    (hnets : R.Nets base.network base'.network a b) (hbusy : a.busy = []) (ha : a.Rests)
    (hb : b.Rests) :
    R.Scenes base base' { s with network := a }.heedSignals { t with network := b }.heedSignals := by
  have hannounced (cs : List Nat) (hcs : ∀ c ∈ cs, R.components c) :
      R.Scenes base base' (cs.foldl Scene.announceHint s) (cs.foldl Scene.announceHint t) := by
    induction cs generalizing s t with
    | nil => exact h
    | cons c rest ih =>
      rw [List.forall_mem_cons] at hcs
      exact ih (h.announceHint hcs.1) hcs.2
  have hquiet {net base : Network} (hnet : R.Confines base net) :
      R.Confines base { net with signals := [] } :=
    hnet.same rfl rfl rfl rfl rfl rfl hnet.busy (List.forall_mem_nil _)
  rw [heedSignals_network, heedSignals_network, hnets.same.signals]
  exact (hannounced a.signals hnets.left.signals).renet
    ⟨hquiet hnets.left, hquiet hnets.right, { hnets.same with signals := rfl }, hnets.held⟩
    ⟨hbusy, rfl, ha⟩ ⟨hnets.same.busy.trans hbusy, rfl, hb⟩

theorem constrain (h : R.Scenes base base' s t) (hc : R.components c) (cs : List (Constraint α)) :
    R.Scenes base base' (s.constrain c cs) (t.constrain c cs) := by
  have hgiven : R.Scenes base base' (s.update c fun comp => { comp with userConstraints := cs })
      (t.update c fun comp => { comp with userConstraints := cs }) :=
    h.update_same hc fun _ => ⟨rfl, rfl, rfl, rfl⟩
  unfold Scene.constrain
  dsimp only
  rw [hgiven.components c hc]
  split
  · split
    · exact (hgiven.invalidateConstraints hc).invalidateLayout hc
    · exact hgiven
  · exact hgiven

theorem attach (h : R.Scenes base base' s t) (hp : R.components p) (hc : R.components c) :
    R.Scenes base base' (s.attach p c) (t.attach p c) := by
  have hchild : R.Scenes base base' (s.update c fun comp => { comp with parent := some p })
      (t.update c fun comp => { comp with parent := some p }) :=
    h.update hc fun a ha => { ha with parent := fun q hq => Option.some.inj hq ▸ hp }
  refine hchild.update hp fun a ha => { ha with children := ?_ }
  exact List.forall_mem_append.2 ⟨ha.children, List.forall_mem_singleton.2 hc⟩

theorem detach (h : R.Scenes base base' s t) (hp : R.components p) (hc : R.components c) :
    R.Scenes base base' (s.detach p c) (t.detach p c) := by
  have hparent : R.Scenes base base' (s.update p fun comp =>
      { comp with children := comp.children.filter fun k => k != c }) (t.update p fun comp =>
      { comp with children := comp.children.filter fun k => k != c }) :=
    h.update hp fun a ha => { ha with children := fun k hk => ha.children k (List.mem_filter.1 hk).1 }
  exact hparent.update hc fun a ha => { ha with parent := fun q hq => by cases hq }

variable [Scalar α]

theorem nativeHint (h : R.Scenes base base' s t) (hc : R.components c) :
    t.nativeHint c = s.nativeHint c := by
  unfold Scene.nativeHint
  rw [h.components c hc, h.attrs hc]

theorem resize (h : R.Scenes base base' s t) (hc : R.components c) (size : Size α) :
    R.Scenes base base' (s.resize c size) (t.resize c size) := by
  refine Scenes.invalidateLayout ?_ hc
  exact h.update_same hc fun _ => ⟨rfl, rfl, rfl, rfl⟩

theorem place (h : R.Scenes base base' s t) (hc : R.components c) (geometry : Geometry α) :
    R.Scenes base base' (s.place c geometry) (t.place c geometry) := by
  unfold Scene.place
  rw [h.components c hc]
  split
  · exact h
  · dsimp only
    split
    all_goals
      split
      · refine Scenes.invalidateLayout ?_ hc
        exact h.update_same hc fun _ => ⟨rfl, rfl, rfl, rfl⟩
      · exact h.update_same hc fun _ => ⟨rfl, rfl, rfl, rfl⟩

end Scenes

/-- Two scenes that are the same to begin with. -/
theorem Encloses.scenes (h : R.Encloses base s) : R.Scenes base base s s :=
  ⟨h, h, .refl _, fun _ _ => Iff.rfl, fun _ _ => rfl, rfl, rfl, rfl, rfl, rfl⟩

end Realm

end ReactiveView
