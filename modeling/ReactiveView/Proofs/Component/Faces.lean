import ReactiveView.Proofs.Component.Adoption

/-!
This module contains what the operations of a scene show to the outside. Solvers, what native widgets
and the parents' solvers were told, and the count of layout passes stay behind the face of a component;
the flags, the count of constraint passes, the size and the place in the tree do not. Probes and size
hints change no face and queue nothing, whatever the solvers answer.
-/

namespace ReactiveView

variable {α : Type}

/-- A component without what is between it, the solvers and its native widget. -/
def Component.face (a : Component α) : Component α :=
  { a with
    layout := {}, native := {}, appliedConstraints := [], containment := [], hints := []
    layoutPasses := 0, refused := false, breakdowns := 0 }

/-- A component that has just become live: nothing is due. -/
def Component.woken (a : Component α) : Component α :=
  { a with needsConstraints := false, needsLayout := false, live := true }

namespace Scene

variable {s t u : Scene α} {c k p : Nat} {a b comp : Component α} {f : Component α → Component α}

/-- The face of a component, unless it is gone. -/
def face? (s : Scene α) (k : Nat) : Option (Component α) := (s.component? k).map Component.face

theorem exists_of_face?_eq (h : s.face? k = some b) :
    ∃ a, s.component? k = some a ∧ a.face = b :=
  Option.map_eq_some_iff.1 h

/-- What happens to a component shows on its face. -/
theorem face?_update (s : Scene α) (c : Nat) (h : ∀ a : Component α, (f a).face = (f a.face).face)
    (k : Nat) : (s.update c f).face? k
      = if k = c then (s.face? k).map fun a => (f a).face else s.face? k := by
  unfold face?
  rw [component?_update]
  split
  · rcases s.component? k with _ | a
    · rfl
    · exact congrArg some (h a)
  · rfl

/-- Whether there is a live component. -/
def liveAt (s : Scene α) (k : Nat) : Bool := (s.component? k).any Component.live

/-- Whether there is a component with children. -/
def parentAt (s : Scene α) (k : Nat) : Bool := (s.component? k).any Component.hasChildren

/-- Whether there is a component whose children have to be placed. -/
def dueAt (s : Scene α) (k : Nat) : Bool := (s.component? k).any Component.needsLayout

/-- The size of a component, unless it is gone. -/
def sizeAt (s : Scene α) (k : Nat) : Option (Size α) := (s.component? k).map Component.size

theorem liveAt_face (s : Scene α) (k : Nat) : s.liveAt k = (s.face? k).any Component.live := by
  unfold liveAt face?
  cases s.component? k <;> rfl

theorem parentAt_face (s : Scene α) (k : Nat) :
    s.parentAt k = (s.face? k).any Component.hasChildren := by
  unfold parentAt face?
  cases s.component? k <;> rfl

theorem dueAt_face (s : Scene α) (k : Nat) : s.dueAt k = (s.face? k).any Component.needsLayout := by
  unfold dueAt face?
  cases s.component? k <;> rfl

theorem sizeAt_face (s : Scene α) (k : Nat) : s.sizeAt k = (s.face? k).map Component.size := by
  unfold sizeAt face?
  cases s.component? k <;> rfl

theorem liveAt_eq_true_iff : s.liveAt k = true ↔ ∃ a, s.component? k = some a ∧ a.live = true :=
  Option.any_eq_true ..

/-- A step behind the faces: nothing is queued, and the network only logs. -/
structure Inner (s t : Scene α) : Prop where
  faces : t.face? = s.face?
  queue : t.queue = s.queue
  network : t.network = { s.network with log := t.network.log }
  count : t.components.size = s.components.size

instance : Std.Refl (@Inner α) := ⟨fun _ => ⟨rfl, rfl, rfl, rfl⟩⟩

instance : IsTrans (Scene α) Inner where
  trans _ _ _ h h' := ⟨h'.faces.trans h.faces, h'.queue.trans h.queue, by rw [h'.network, h.network],
    h'.count.trans h.count⟩

theorem inner_logAll (log : List LogRecord) : s.Inner (s.logAll log) := ⟨rfl, rfl, rfl, rfl⟩

theorem inner_note (level : Level) (message : String) (fields : List (String × String)) :
    s.Inner (s.note level message fields) := inner_logAll _

theorem size_update (s : Scene α) (c : Nat) (f : Component α → Component α) :
    (s.update c f).components.size = s.components.size := Array.size_modify

theorem inner_update (h : ∀ a : Component α, (f a).face = a.face) : s.Inner (s.update c f) where
  faces := by
    funext k
    unfold face?
    rw [component?_update]
    split
    · rcases s.component? k with _ | a
      · rfl
      · exact congrArg some (h a)
    · rfl
  queue := rfl
  network := rfl
  count := size_update ..

theorem inner_fresh (make : Nat → List (Constraint α)) :
    Through (@Inner α) (StateT.modifyGet fun s => s.fresh make) :=
  fun _ => ⟨rfl, rfl, rfl, rfl⟩

variable {β : Type}

theorem inner_tryLayout (c : Nat) (f : Layout α → Except LayoutError β × Layout α) :
    Through (@Inner α) (tryLayout c f).run := by
  intro s
  rw [leads_tryLayout]
  cases s.component? c with
  | none => exact Std.Refl.refl s
  | some comp => exact inner_update fun _ => rfl

theorem inner_tryLogged (c : Nat) (f : Layout α → Except LayoutError Unit × List LogRecord × Layout α) :
    Through (@Inner α) (tryLogged c f).run := by
  intro s
  rw [leads_tryLogged]
  cases s.component? c with
  | none => exact Std.Refl.refl s
  | some comp =>
    refine IsTrans.trans _ _ _ ?_ (inner_logAll _)
    exact inner_update fun _ => rfl

variable [Scalar α]

/-! ### Probes and size hints -/

theorem inner_minSize (c : Nat) : Through (@Inner α) (minSize c).run := by
  intro s
  refine leads_run_get_bind.2 ?_
  split
  · exact leads_run_throw.2 (Std.Refl.refl s)
  · exact inner_tryLayout c _ s

theorem inner_maxSize (c : Nat) : Through (@Inner α) (maxSize c).run := by
  intro s
  refine leads_run_get_bind.2 ?_
  split
  · exact leads_run_throw.2 (Std.Refl.refl s)
  · exact inner_tryLayout c _ s

theorem inner_tellBounds (c : Nat) : Through (@Inner α) (tellBounds c) := by
  refine Through.bind ?_ fun r => ?_
  · exact (inner_minSize c).run_bind fun _ => (inner_maxSize c).run_bind fun _ => through_pure _
  · split
    · exact through_modify fun s => inner_update fun _ => rfl
    · exact through_modify fun s => inner_note ..

theorem inner_sizeHint (c : Nat) : Through (@Inner α) (sizeHint c) := by
  intro s
  refine leads_bind.2 (leads_get.2 ?_)
  split
  · refine Through.bind (inner_minSize c) (fun r => ?_) s
    split
    · exact through_pure _
    · exact Through.bind (fun s => Std.Refl.refl s) fun _ => through_pure _
  · exact through_pure _ s

theorem inner_namedStrength (c : Nat) (attr : String) :
    Through (@Inner α) (namedStrength c attr) := by
  intro s
  refine leads_bind.2 (leads_get.2 ?_)
  split
  · split
    · exact through_pure _ s
    · exact through_pure _ s
    · exact leads_bind.2 (leads_set.2 (inner_note ..))
  · exact through_pure _ s

theorem inner_policyOf (c : Nat) : Through (@Inner α) (policyOf c) :=
  (inner_namedStrength c _).bind fun _ => (inner_namedStrength c _).bind fun _ =>
    (inner_namedStrength c _).bind fun _ => (inner_namedStrength c _).bind fun _ => through_pure _

theorem inner_hintConstraints (c : Nat) : Through (@Inner α) (hintConstraints c) := by
  refine (inner_sizeHint c).bind fun hint => (inner_policyOf c).bind fun policy s => ?_
  refine leads_bind.2 (leads_get.2 ?_)
  split
  · exact through_pure _ s
  · exact inner_fresh _ s

theorem inner_contributed (c : Nat) (parent : Box) : Through (@Inner α) (contributed c parent) := by
  intro s
  refine leads_bind.2 (leads_get.2 ?_)
  split
  · exact through_pure _ s
  · refine (inner_fresh _).bind (fun containment => ?_) s
    refine (inner_hintConstraints c).bind fun hints => ?_
    exact Through.bind (through_modify fun s => inner_update fun _ => rfl) fun _ => through_pure _

theorem inner_contributedAll (parent : Box) (cs : List Nat) :
    Through (@Inner α) (contributedAll parent cs) := by
  induction cs with
  | nil => exact through_pure _
  | cons c rest ih =>
    exact (inner_contributed c parent).bind fun _ => ih.bind fun _ => through_pure _

theorem inner_setUpLayout (c : Nat) : Through (@Inner α) (setUpLayout c).run := by
  intro s
  refine leads_run_get_bind.2 ?_
  split
  · exact leads_run_pure.2 (Std.Refl.refl s)
  · next comp _ =>
    refine (inner_fresh _).run_lift_bind (fun own => ?_) s
    refine (inner_contributedAll comp.box comp.children).run_lift_bind fun children => ?_
    refine (inner_tryLogged c _).run_bind fun _ => ?_
    refine Through.run_modify_bind (fun t => ?_) (inner_tellBounds c)
    refine IsTrans.trans _ _ _ ?_ (inner_note ..)
    exact inner_update fun _ => rfl

/-! ### Becoming live -/

/-- A step at which components may become live. Nothing is due for them then. -/
structure Wakes (s t : Scene α) : Prop where
  faces : ∀ k, t.face? k = s.face? k ∨
    ∃ a, s.face? k = some a ∧ a.live = false ∧ t.face? k = some a.woken
  queue : t.queue = s.queue
  network : t.network = { s.network with log := t.network.log }
  count : t.components.size = s.components.size

omit [Scalar α] in
theorem Inner.wakes (h : s.Inner t) : s.Wakes t :=
  ⟨fun k => .inl (congrFun h.faces k), h.queue, h.network, h.count⟩

instance : Std.Refl (@Wakes α) := ⟨fun s => Inner.wakes (Std.Refl.refl s)⟩

instance : IsTrans (Scene α) Wakes where
  trans s t u h h' := by
    refine ⟨fun k => ?_, h'.queue.trans h.queue, by rw [h'.network, h.network],
      h'.count.trans h.count⟩
    rcases h.faces k with hk | ⟨a, ha, hdormant, hk⟩
    · rw [← hk]
      exact h'.faces k
    · refine .inr ⟨a, ha, hdormant, ?_⟩
      rcases h'.faces k with hk' | ⟨b, hb, hdormant', -⟩
      · exact hk'.trans hk
      · -- It is live already.
        cases hk.symm.trans hb
        cases hdormant'

omit [Scalar α] in
theorem Inner.wakes_woken (h : s.Inner t) (hdormant : s.liveAt c = false) :
    s.Wakes (t.update c Component.woken) := by
  refine ⟨fun k => ?_, h.queue, h.network, (size_update ..).trans h.count⟩
  rw [face?_update _ _ fun _ => rfl, congrFun h.faces k]
  split
  · next hk =>
    subst hk
    rw [liveAt_face] at hdormant
    cases hface : s.face? k with
    | none => exact .inl rfl
    | some a =>
      obtain ⟨b, -, rfl⟩ := exists_of_face?_eq hface
      rw [hface] at hdormant
      exact .inr ⟨b.face, rfl, hdormant, rfl⟩
  · exact .inl rfl

theorem wakes_activateOne (c : Nat) : Through (@Wakes α) (activateOne c).run := by
  intro s
  refine leads_run_get_bind.2 ?_
  split
  · exact leads_run_pure.2 (Std.Refl.refl s)
  · next comp hc =>
    split
    · exact leads_run_pure.2 (Std.Refl.refl s)
    · next hlive =>
      have hdormant : s.liveAt c = false := by
        unfold liveAt
        rw [hc]
        exact Bool.eq_false_of_not_eq_true hlive
      dsimp only
      split
      · exact (inner_setUpLayout c s).run_bind (fun _ t ht => leads_run_modify.2
          (ht.wakes_woken hdormant)) fun _ _ ht => ht.wakes
      · exact leads_run_modify.2 ((Std.Refl.refl s : s.Inner s).wakes_woken hdormant)

theorem wakes_activate (c : Nat) : Through (@Wakes α) (activate c).run :=
  fun s => leads_run_get_bind.2 (through_forM wakes_activateOne _ s)

theorem wakes_takeIn (p c : Nat) : Through (@Wakes α) (takeIn p c).run := by
  refine (wakes_activate c).run_bind fun _ s => leads_run_get_bind.2 ?_
  split
  · exact leads_run_pure.2 (Std.Refl.refl s)
  · next parent _ =>
    split
    · refine Leads.mono ?_ fun _ _ => Inner.wakes
      exact (inner_contributed c parent.box).run_lift_bind (fun added => inner_tryLogged p _) s
    · exact (inner_setUpLayout p s).mono fun _ _ => Inner.wakes

/-! ### Attaching -/

/-- How attaching a child ends. Under a component that is not live it is simply there. A live one
takes it in, and then has to place its children; or it is detached again. -/
inductive Adopts (s : Scene α) (p c : Nat) : Except LayoutError Unit → Scene α → Prop
  | attached (hdormant : s.liveAt p = false) : Adopts s p c (.ok ()) (s.attach p c)
  | refused {u : Scene α} (hlive : s.liveAt p = true) (hu : (s.attach p c).Wakes u)
      (e : LayoutError) : Adopts s p c (.error e) (u.detach p c)
  | taken {u : Scene α} (hlive : s.liveAt p = true) (hu : (s.attach p c).Wakes u) :
      Adopts s p c (.ok ()) ((u.invalidateLayout p).announceHint p)

theorem leads_adopt_adopts (s : Scene α) (p c : Nat) : Leads (adopt p c).run s (s.Adopts p c) := by
  refine leads_run_get_bind.2 ?_
  cases hp : s.component? p with
  | none =>
    have hdormant : s.liveAt p = false := by
      unfold liveAt
      rw [hp]
      rfl
    exact leads_run_modify_bind.2 (leads_run_pure.2 (.attached hdormant))
  | some parent =>
    have hlive : s.liveAt p = parent.live := by
      unfold liveAt
      rw [hp]
      rfl
    refine leads_run_modify_bind.2 ?_
    dsimp only
    split
    · next hparent =>
      rw [hparent] at hlive
      refine leads_run_lift_bind.2 ((wakes_takeIn p c _).mono fun r t ht => ?_)
      split
      · exact leads_run_modify_bind.2 (leads_run_throw.2 (.refused hlive ht _))
      · refine leads_run_lift_bind.2 ((inner_tellBounds p t).mono fun _ u hu => ?_)
        exact leads_run_modify.2 (.taken hlive (IsTrans.trans _ _ _ ht hu.wakes))
    · next hparent =>
      exact leads_run_pure.2 (.attached (hlive.trans (Bool.eq_false_of_not_eq_true hparent)))

end Scene

end ReactiveView
