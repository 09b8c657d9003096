import ReactiveView.Proofs.Component.Runs
import ReactiveView.Proofs.Layout.Steady

/-!
This module contains that the layouts of all components stay steady in a run, as long as their
solvers do not break down. Every operation asks one layout after the other, and what else it changes
does not matter to them.
-/

namespace ReactiveView

namespace Component

/-- The width and the height are two variables, and the layout is steady unless its solver has broken
down. -/
structure Steady (c : Component ℚ) : Prop where
  ne : c.box.width ≠ c.box.height
  layout : c.breakdowns = 0 → c.layout.Steady

theorem Steady.answered {β : Type} {c : Component ℚ} {p : Except LayoutError β × Layout ℚ}
    (h : c.Steady) (hp : c.layout.Steady → Layout.SteadyAfter p) : (c.answered p.1 p.2).Steady where
  ne := h.ne
  layout hbreakdowns := by
    obtain ⟨hzero, hintact⟩ := answered_intact hbreakdowns
    exact hp (h.layout hzero) hintact

end Component

namespace Scene

/-- All components are steady. -/
def Steady (s : Scene ℚ) : Prop := ∀ k comp, s.component? k = some comp → comp.Steady

/-- A step that leaves a steady scene steady. -/
structure Steadies (s t : Scene ℚ) : Prop where
  steady : s.Steady → t.Steady

instance : Std.Refl Steadies := ⟨fun _ => ⟨fun h => h⟩⟩

instance : IsTrans (Scene ℚ) Steadies := ⟨fun _ _ _ h h' => ⟨fun hs => h'.steady (h.steady hs)⟩⟩

variable {s t : Scene ℚ} {c k : Nat} {comp : Component ℚ} {β : Type}

theorem steadies_of_components_eq (h : t.components = s.components) : s.Steadies t := by
  refine ⟨fun hs k comp hcomp => hs k comp ?_⟩
  unfold component? at hcomp ⊢
  rwa [← h]

theorem steadies_update {f : Component ℚ → Component ℚ}
    (h : ∀ a, s.component? c = some a → a.Steady → (f a).Steady) : s.Steadies (s.update c f) := by
  refine ⟨fun hs k comp hcomp => ?_⟩
  rw [component?_update] at hcomp
  split at hcomp
  · next hk =>
    subst hk
    obtain ⟨a, ha, rfl⟩ := Option.map_eq_some_iff.1 hcomp
    exact h a ha (hs k a ha)
  · exact hs k comp hcomp

/-- What is changed about a component is neither its box nor its layout. -/
theorem steadies_of_same (f : Component ℚ → Component ℚ)
    (hf : ∀ a, (f a).box = a.box ∧ (f a).layout = a.layout ∧ (f a).breakdowns = a.breakdowns) :
    s.Steadies (s.update c f) := by
  refine steadies_update fun a _ ha => ?_
  obtain ⟨hbox, hlayout, hbreakdowns⟩ := hf a
  exact ⟨hbox ▸ ha.ne, hlayout ▸ hbreakdowns ▸ ha.layout⟩

theorem steadies_tryLayout {f : Layout ℚ → Except LayoutError β × Layout ℚ}
    (hf : ∀ a, s.component? c = some a → a.box.width ≠ a.box.height → a.layout.Steady →
      Layout.SteadyAfter (f a.layout)) :
    Leads (tryLayout c f).run s fun _ t => s.Steadies t := by
  rw [leads_tryLayout]
  cases hc : s.component? c with
  | none => exact Std.Refl.refl s
  | some comp =>
    refine steadies_update fun a ha hsteady => ?_
    cases hc.symm.trans ha
    exact hsteady.answered (hf comp hc hsteady.ne)

theorem steadies_tryLogged {f : Layout ℚ → Except LayoutError Unit × List LogRecord × Layout ℚ}
    (hf : ∀ l, l.Steady → Layout.SteadyAfter ((f l).1, (f l).2.2)) :
    Through Steadies (tryLogged c f).run := by
  intro s
  rw [leads_tryLogged]
  cases hc : s.component? c with
  | none => exact Std.Refl.refl s
  | some comp =>
    refine IsTrans.trans _ (s.update c _) _ (steadies_update fun a ha hsteady => ?_)
      (steadies_of_components_eq rfl)
    cases hc.symm.trans ha
    exact hsteady.answered (hf comp.layout)

theorem steadies_note (s : Scene ℚ) (level : Level) (message : String)
    (fields : List (String × String)) : s.Steadies (s.note level message fields) :=
  steadies_of_components_eq rfl

/-! ### Queueing -/

theorem steadies_schedule (s : Scene ℚ) (c : Nat) (task : Task) : s.Steadies (s.schedule c task) := by
  unfold schedule
  split
  · split
    · exact steadies_of_components_eq rfl
    · exact Std.Refl.refl s
  · exact Std.Refl.refl s

theorem steadies_invalidateLayout (s : Scene ℚ) (c : Nat) : s.Steadies (s.invalidateLayout c) := by
  have hdue : s.Steadies (s.update c fun comp => { comp with needsLayout := true }) :=
    steadies_of_same _ fun _ => ⟨rfl, rfl, rfl⟩
  exact IsTrans.trans _ _ _ hdue (steadies_schedule ..)

theorem steadies_invalidateConstraints (s : Scene ℚ) (c : Nat) :
    s.Steadies (s.invalidateConstraints c) := by
  have hdue : s.Steadies (s.update c fun comp => { comp with needsConstraints := true }) :=
    steadies_of_same _ fun _ => ⟨rfl, rfl, rfl⟩
  exact IsTrans.trans _ _ _ hdue (steadies_schedule ..)

theorem steadies_announceHint (s : Scene ℚ) (c : Nat) : s.Steadies (s.announceHint c) := by
  unfold announceHint
  split
  · exact Std.Refl.refl s
  · split
    · split
      · exact steadies_of_components_eq rfl
      · exact Std.Refl.refl s
    · exact Std.Refl.refl s

theorem steadies_heedSignals (s : Scene ℚ) (network : Network) :
    s.Steadies { s with network }.heedSignals := by
  unfold heedSignals
  refine List.foldlRecOn _ _ (steadies_of_components_eq rfl) fun t ht c _ => ?_
  exact IsTrans.trans _ _ _ ht (steadies_announceHint t c)

theorem steadies_constrain (s : Scene ℚ) (c : Nat) (cs : List (Constraint ℚ)) :
    s.Steadies (s.constrain c cs) := by
  have hgiven : s.Steadies (s.update c fun comp => { comp with userConstraints := cs }) :=
    steadies_of_same _ fun _ => ⟨rfl, rfl, rfl⟩
  unfold constrain
  dsimp only
  split
  · split
    · exact IsTrans.trans _ _ _ hgiven (IsTrans.trans _ _ _ (steadies_invalidateConstraints _ c)
        (steadies_invalidateLayout _ c))
    · exact hgiven
  · exact hgiven

theorem steadies_resize (s : Scene ℚ) (c : Nat) (size : Size ℚ) : s.Steadies (s.resize c size) := by
  refine IsTrans.trans _ _ _ ?_ (steadies_invalidateLayout _ c)
  exact steadies_of_same _ fun _ => ⟨rfl, rfl, rfl⟩

/-! ### Probes and size hints -/

theorem steady_minSize (c : Nat) : Through Steadies (minSize c).run := by
  intro s
  unfold minSize
  refine leads_run_get_bind.2 ?_
  split
  · exact leads_run_throw.2 (Std.Refl.refl s)
  · next box hbox =>
    refine steadies_tryLayout fun a ha hne hsteady => ?_
    unfold box? at hbox
    rw [ha] at hbox
    cases hbox
    exact hsteady.minSize hne _

theorem steady_maxSize (c : Nat) : Through Steadies (maxSize c).run := by
  intro s
  unfold maxSize
  refine leads_run_get_bind.2 ?_
  split
  · exact leads_run_throw.2 (Std.Refl.refl s)
  · next box hbox =>
    refine steadies_tryLayout fun a ha hne hsteady => ?_
    unfold box? at hbox
    rw [ha] at hbox
    cases hbox
    exact hsteady.maxSize hne _

theorem steady_tellBounds (c : Nat) : Through Steadies (tellBounds c) := by
  unfold tellBounds
  refine Through.bind ?_ fun r => ?_
  · exact (steady_minSize c).run_bind fun _ => (steady_maxSize c).run_bind fun _ => through_pure _
  · split
    · exact through_modify fun s => steadies_of_same _ fun _ => ⟨rfl, rfl, rfl⟩
    · exact through_modify fun s => steadies_of_components_eq rfl

theorem steady_sizeHint (c : Nat) : Through Steadies (sizeHint c) := by
  intro s
  refine leads_bind.2 (leads_get.2 ?_)
  split
  · refine Through.bind (steady_minSize c) (fun r => ?_) s
    split
    · exact through_pure _
    · exact Through.bind (fun s => Std.Refl.refl s) fun _ => through_pure _
  · exact through_pure _ s

theorem steady_namedStrength (c : Nat) (attr : String) : Through Steadies (namedStrength c attr) := by
  intro s
  refine leads_bind.2 (leads_get.2 ?_)
  split
  · split
    · exact through_pure _ s
    · exact through_pure _ s
    · exact leads_bind.2 (leads_set.2 (steadies_of_components_eq rfl))
  · exact through_pure _ s

theorem steady_policyOf (c : Nat) : Through Steadies (policyOf c) :=
  (steady_namedStrength c _).bind fun _ => (steady_namedStrength c _).bind fun _ =>
    (steady_namedStrength c _).bind fun _ => (steady_namedStrength c _).bind fun _ =>
      through_pure _

theorem steady_fresh (make : Nat → List (Constraint ℚ)) :
    Through Steadies (StateT.modifyGet fun s => s.fresh make) :=
  fun _ => steadies_of_components_eq rfl

theorem steady_hintConstraints (c : Nat) : Through Steadies (hintConstraints c) := by
  refine (steady_sizeHint c).bind fun hint => (steady_policyOf c).bind fun policy s => ?_
  refine leads_bind.2 (leads_get.2 ?_)
  split
  · exact through_pure _ s
  · exact steady_fresh _ s

theorem steady_contributed (c : Nat) (parent : Box) : Through Steadies (contributed c parent) := by
  intro s
  refine leads_bind.2 (leads_get.2 ?_)
  split
  · exact through_pure _ s
  · refine (steady_fresh _).bind (fun containment => ?_) s
    refine (steady_hintConstraints c).bind fun hints => ?_
    refine Through.bind (through_modify fun s => ?_) fun _ => through_pure _
    exact steadies_of_same _ fun _ => ⟨rfl, rfl, rfl⟩

theorem steady_contributedAll (parent : Box) (cs : List Nat) :
    Through Steadies (contributedAll parent cs) := by
  induction cs with
  | nil => exact through_pure _
  | cons c rest ih =>
    exact (steady_contributed c parent).bind fun _ => ih.bind fun _ => through_pure _

/-! ### Becoming live -/

theorem steady_setUpLayout (c : Nat) : Through Steadies (setUpLayout c).run := by
  intro s
  refine leads_run_get_bind.2 ?_
  split
  · exact leads_run_pure.2 (Std.Refl.refl s)
  · next comp _ =>
    refine (steady_fresh _).run_lift_bind (fun own => ?_) s
    refine (steady_contributedAll comp.box comp.children).run_lift_bind fun children => ?_
    refine (steadies_tryLogged fun l hl _ => hl.setUp _).run_bind fun _ => ?_
    refine Through.run_modify_bind (fun t => ?_) (steady_tellBounds c)
    refine IsTrans.trans _ _ _ ?_ (steadies_note ..)
    exact steadies_of_same _ fun _ => ⟨rfl, rfl, rfl⟩

theorem steady_activateOne (c : Nat) : Through Steadies (activateOne c).run := by
  have hlive : Through Steadies (modify fun s => s.update c fun comp =>
      { comp with needsConstraints := false, needsLayout := false, live := true }
        : Laying ℚ Unit).run :=
    through_modify fun s => steadies_of_same _ fun _ => ⟨rfl, rfl, rfl⟩
  intro s
  refine leads_run_get_bind.2 ?_
  split
  · exact leads_run_pure.2 (Std.Refl.refl s)
  · split
    · exact leads_run_pure.2 (Std.Refl.refl s)
    · dsimp only
      split
      · exact (steady_setUpLayout c).run_bind (fun _ => hlive) s
      · exact hlive s

theorem steady_activate (c : Nat) : Through Steadies (activate c).run :=
  fun s => leads_run_get_bind.2 (through_forM steady_activateOne _ s)

theorem steadies_attach (s : Scene ℚ) (p c : Nat) : s.Steadies (s.attach p c) := by
  have hchild : s.Steadies (s.update c fun comp => { comp with parent := some p }) :=
    steadies_of_same _ fun _ => ⟨rfl, rfl, rfl⟩
  refine IsTrans.trans _ _ _ hchild ?_
  exact steadies_of_same _ fun _ => ⟨rfl, rfl, rfl⟩

theorem steadies_detach (s : Scene ℚ) (p c : Nat) : s.Steadies (s.detach p c) := by
  have hparent : s.Steadies (s.update p fun comp =>
      { comp with children := comp.children.filter fun k => k != c }) :=
    steadies_of_same _ fun _ => ⟨rfl, rfl, rfl⟩
  refine IsTrans.trans _ _ _ hparent ?_
  exact steadies_of_same _ fun _ => ⟨rfl, rfl, rfl⟩

theorem steady_takeIn (p c : Nat) : Through Steadies (takeIn p c).run := by
  refine (steady_activate c).run_bind fun _ s => leads_run_get_bind.2 ?_
  split
  · exact leads_run_pure.2 (Std.Refl.refl s)
  · next parent _ =>
    split
    · refine (steady_contributed c parent.box).run_lift_bind (fun added => ?_) s
      exact steadies_tryLogged fun l hl => hl.replace
    · exact steady_setUpLayout p s

theorem steady_adopt (p c : Nat) : Through Steadies (adopt p c).run := by
  unfold adopt
  intro s
  refine leads_run_get_bind.2 ?_
  refine Through.run_modify_bind (fun s => steadies_attach s p c) ?_ s
  split
  · split
    · refine (steady_takeIn p c).run_lift_bind fun r => ?_
      split
      · exact Through.run_modify_bind (fun s => steadies_detach s p c) (through_pure _)
      · refine (steady_tellBounds p).run_lift_bind fun _ => through_modify fun s => ?_
        exact IsTrans.trans _ _ _ (steadies_invalidateLayout s p) (steadies_announceHint _ p)
    · exact through_pure _
  · exact through_pure _

/-! ### Passes -/

theorem steady_handConstraintsOne (c : Nat) : Through Steadies (handConstraintsOne c).run := by
  refine Through.run_modify_bind
    (fun s => steadies_of_same _ fun _ => ⟨rfl, rfl, rfl⟩) fun s => leads_run_get_bind.2 ?_
  split
  · exact leads_run_pure.2 (Std.Refl.refl s)
  · split
    · refine (steadies_tryLogged fun l hl => hl.replace).run_bind (fun _ => ?_) s
      refine Through.run_modify_bind (fun s => steadies_of_same _ fun _ => ⟨rfl, rfl, rfl⟩) ?_
      exact (steady_tellBounds c).run_lift_bind fun _ =>
        through_modify fun t => steadies_announceHint t c
    · exact leads_run_pure.2 (Std.Refl.refl s)

theorem steady_handConstraints (c : Nat) : Through Steadies (handConstraints c).run :=
  fun s => leads_run_get_bind.2 (through_forM steady_handConstraintsOne _ s)

theorem steadies_place (s : Scene ℚ) (c : Nat) (geometry : Geometry ℚ) :
    s.Steadies (s.place c geometry) := by
  unfold place
  split
  · exact Std.Refl.refl s
  · dsimp only
    split
    all_goals
      split
      · refine IsTrans.trans _ _ _ ?_ (steadies_invalidateLayout _ c)
        exact steadies_of_same _ fun _ => ⟨rfl, rfl, rfl⟩
      · exact steadies_of_same _ fun _ => ⟨rfl, rfl, rfl⟩

theorem steady_placeChildren (c : Nat) : Through Steadies (placeChildren c).run := by
  refine Through.run_modify_bind
    (fun s => steadies_of_same _ fun _ => ⟨rfl, rfl, rfl⟩) fun s => leads_run_get_bind.2 ?_
  split
  · exact leads_run_pure.2 (Std.Refl.refl s)
  · next comp hc =>
    split
    · refine Leads.run_bind (steadies_tryLayout fun a ha hne hsteady => ?_) (fun resolved t ht => ?_)
        fun _ _ ht => ht
      · cases hc.symm.trans ha
        exact (hsteady.resize hne _ _ _).1
      split
      · exact leads_run_pure.2 ht
      · refine leads_run_modify.2 (List.foldlRecOn _ _ ?_ fun u hu placed _ =>
          IsTrans.trans _ _ _ hu (steadies_place u _ _))
        refine IsTrans.trans _ _ _ ht (IsTrans.trans _ _ _ ?_ (steadies_note ..))
        exact steadies_of_same _ fun _ => ⟨rfl, rfl, rfl⟩
    · exact leads_run_pure.2 (Std.Refl.refl s)

theorem steady_renewHint (p c : Nat) : Through Steadies (renewHint p c).run := by
  have hset (hints : List (Constraint ℚ)) (s : Scene ℚ) :
      s.Steadies (s.update c fun comp => { comp with hints }) :=
    steadies_of_same _ fun _ => ⟨rfl, rfl, rfl⟩
  intro s
  refine leads_run_get_bind.2 ?_
  split
  · exact leads_run_pure.2 (Std.Refl.refl s)
  · next child _ =>
    split
    · refine Through.run_modify_bind (hset []) ?_ s
      refine (steady_hintConstraints c).run_lift_bind fun hints => ?_
      refine (steadies_tryLogged fun l hl => hl.replace).run_lift_bind fun r => ?_
      split
      · exact Through.run_modify_bind (hset child.hints) (through_pure _)
      · refine Through.run_modify_bind (hset hints) ?_
        refine (steady_tellBounds p).run_lift_bind fun _ => through_modify fun t => ?_
        exact IsTrans.trans _ _ _ (steadies_invalidateLayout t p) (steadies_announceHint _ p)
    · exact leads_run_pure.2 (Std.Refl.refl s)

/-! ### Runs -/

theorem steady_attempt {message : String} {fields : Scene ℚ → List (String × String)}
    {pass : Laying ℚ Unit} (h : Through Steadies pass.run) :
    Through Steadies (attempt message fields pass) := by
  refine h.bind fun r => ?_
  split
  · exact through_pure _
  · exact through_modify fun s => steadies_of_components_eq rfl

theorem steady_runTask (task : Task) : Through Steadies (runTask task) := by
  intro s
  refine leads_bind.2 (leads_get.2 ?_)
  cases task with
  | constraints c =>
    dsimp only
    split
    · exact through_pure _ s
    · split
      · exact steady_attempt (steady_handConstraints c) s
      · exact through_pure _ s
  | layout c =>
    dsimp only
    split
    · exact through_pure _ s
    · split
      · exact steady_attempt (steady_placeChildren c) s
      · exact through_pure _ s
  | sizeHint p c =>
    dsimp only
    split
    · exact steady_attempt (steady_renewHint p c) s
    · exact through_pure _ s

theorem steadies_newComponent (s : Scene ℚ) (widgetClass : WidgetClass)
    (identifier : Option String) : s.Steadies (s.newComponent widgetClass identifier).2 := by
  obtain ⟨object, watchers, hnew⟩ := s.exists_component?_newComponent widgetClass identifier
  refine ⟨fun hs k comp hcomp => ?_⟩
  rw [hnew] at hcomp
  split at hcomp
  · cases hcomp
    exact ⟨by simp [Box.starting], fun _ => Layout.steady_of_none rfl⟩
  · exact hs k comp hcomp

theorem Step.steadies (h : Step s t) : s.Steadies t := by
  cases h with
  | create widgetClass identifier => exact s.steadies_newComponent widgetClass identifier
  | adopt => exact steady_adopt _ _ s
  | activate c => exact steady_activate c s
  | constrain c cs => exact s.steadies_constrain c cs
  | resize c size => exact s.steadies_resize c size
  | change network => exact s.steadies_heedSignals network
  | @task task queue =>
    have hpopped : s.Steadies { s with queue } := steadies_of_components_eq rfl
    exact IsTrans.trans _ _ _ hpopped (steady_runTask task _)

theorem Reached.steady (h : Reached s) : s.Steady := by
  induction h with
  | @start s hcomponents =>
    intro k comp hcomp
    rw [component?_of_empty hcomponents] at hcomp
    cases hcomp
  | step _ hstep ih => exact hstep.steadies.steady ih

end Scene

end ReactiveView
