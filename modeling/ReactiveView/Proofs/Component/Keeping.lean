import ReactiveView.Proofs.Component.Invalidation
import ReactiveView.Proofs.Network.Keepers

/-!
This module contains what the components of a scene keep: the bindings that were tied for them, and
the subscriptions that follow their size hints. Sizes, tasks and the layouts behind them have nothing
to do with it, and changes of attributes leave it to the components.
-/

namespace ReactiveView

open Network

namespace Scene

variable {α : Type} {s t u : Scene α} {c k n : Nat} {H : Nat → Prop}

/-- The class and the object of a component. -/
def subject? (s : Scene α) (c : Nat) : Option (WidgetClass × ObjectRef) :=
  (s.component? c).map fun comp => (comp.widgetClass, comp.object)

/-- The bindings and the subscriptions that a component keeps. -/
def kept? (s : Scene α) (c : Nat) : Option (List Nat × List Nat) :=
  (s.component? c).map fun comp => (comp.links, comp.watchers)

theorem kept?_eq_none_iff : s.kept? c = none ↔ s.component? c = none := Option.map_eq_none_iff

/-- Who keeps which bindings. -/
def keeps (s : Scene α) : Keeping
  | .component c, k => ∃ kept, s.kept? c = some kept ∧ k ∈ kept.1
  | .handle name, k => s.network.desk.handles.get? name = some (some k)
  | .host, _ => False

/-- Who keeps which subscriptions that are no binding's, those of the host being given. -/
def stands (s : Scene α) (H : Nat → Prop) : Keeping
  | .component c, i => ∃ kept, s.kept? c = some kept ∧ i ∈ kept.2
  | .handle _, _ => False
  | .host, i => H i

@[simp]
theorem keeps_component :
    s.keeps (.component c) k ↔ ∃ kept, s.kept? c = some kept ∧ k ∈ kept.1 := Iff.rfl

@[simp]
theorem keeps_handle {name : String} :
    s.keeps (.handle name) k ↔ s.network.desk.handles.get? name = some (some k) := Iff.rfl

@[simp]
theorem not_keeps_host : ¬s.keeps .host k := id

@[simp]
theorem stands_component :
    s.stands H (.component c) k ↔ ∃ kept, s.kept? c = some kept ∧ k ∈ kept.2 := Iff.rfl

@[simp]
theorem not_stands_handle {name : String} : ¬s.stands H (.handle name) k := id

@[simp]
theorem stands_host : s.stands H .host k ↔ H k := Iff.rfl

/-- Whatever is on the network is kept by components and the host. -/
def Tidy (H : Nat → Prop) (s : Scene α) : Prop := s.network.Tidy s.keeps (s.stands H) []

end Scene

/-- What the host keeps, and components before a number. -/
def Network.Keeping.below (W : Keeping) (n : Nat) : Keeping
  | .component c, i => c < n ∧ W (.component c) i
  | a, i => W a i

namespace Scene

variable {α : Type} {s t u : Scene α} {c k n : Nat} {H : Nat → Prop}

/-- What the scene looks like later. The components before a number keep what they kept, and all that
is theirs or the host's outlasts. -/
structure Outlasts (H : Nat → Prop) (n : Nat) (s t : Scene α) : Prop where
  tidy : t.Tidy H
  lasts : s.network.Lasts ((s.stands H).below n) t.network
  kept : ∀ c < n, t.kept? c = s.kept? c
  count : s.components.size ≤ t.components.size

/-- A step that keeps what is kept, and leaves to the components before a number what is theirs. -/
def Respects (H : Nat → Prop) (n : Nat) (s t : Scene α) : Prop := s.Tidy H → s.Outlasts H n t

theorem below_stands_congr (h : ∀ c < n, t.kept? c = s.kept? c) :
    (t.stands H).below n = (s.stands H).below n := by
  funext a i
  cases a with
  | handle | host => rfl
  | component c =>
    refine propext (and_congr_right fun hc => ?_)
    simp only [stands_component, h c hc]

theorem Outlasts.trans (h : s.Outlasts H n t) (h' : t.Outlasts H n u) : s.Outlasts H n u :=
  ⟨h'.tidy, h.lasts.trans (below_stands_congr h.kept ▸ h'.lasts),
    fun c hc => (h'.kept c hc).trans (h.kept c hc), h.count.trans h'.count⟩

instance : Std.Refl (@Respects α H n) :=
  ⟨fun s h => ⟨h, .refl s.network, fun _ _ => rfl, le_rfl⟩⟩

instance : IsTrans (Scene α) (Respects H n) := ⟨fun _ _ _ h h' hs => (h hs).trans (h' (h hs).tidy)⟩

/-! ### Steps beside the network -/

/-- A step that leaves components their objects and what they keep, and the network too, but for what
is logged and signalled. -/
structure Aloof (s t : Scene α) : Prop where
  network : s.network.Echoes t.network
  subjects : t.subject? = s.subject?
  kept : t.kept? = s.kept?
  count : t.components.size = s.components.size

instance : Std.Refl (@Aloof α) := ⟨fun s => ⟨.refl s.network, rfl, rfl, rfl⟩⟩

instance : IsTrans (Scene α) Aloof where
  trans _ _ _ h h' := by
    obtain ⟨store, observers, links, next, fresh, desk, busy, owners⟩ := h.network
    obtain ⟨store', observers', links', next', fresh', desk', busy', owners'⟩ := h'.network
    exact ⟨⟨store'.trans store, observers'.trans observers, links'.trans links, next'.trans next,
      fresh'.trans fresh, desk'.trans desk, busy'.trans busy, owners'.trans owners⟩,
      h'.subjects.trans h.subjects, h'.kept.trans h.kept, h'.count.trans h.count⟩

theorem keeps_congr (hkept : t.kept? = s.kept?)
    (hhandles : t.network.desk.handles = s.network.desk.handles) : t.keeps = s.keeps := by
  unfold keeps
  rw [hkept, hhandles]

theorem stands_congr (hkept : t.kept? = s.kept?) : t.stands H = s.stands H := by
  unfold stands
  rw [hkept]

theorem stands_below (a : Keeper) (i : Nat) (h : (s.stands H).below n a i) : s.stands H a i := by
  cases a with
  | handle | host => exact h
  | component c => exact h.2

/-- What a network does that leaves things kept. -/
theorem respects_of_tidied (hkept : t.kept? = s.kept?) (hcount : t.components.size = s.components.size)
    (h : s.Tidy H → Tidied (s.stands H) s.network s.keeps [] t.network) : s.Respects H n t := by
  intro hs
  obtain ⟨htidy, hlasts⟩ := h hs
  refine ⟨?_, hlasts.mono stands_below, fun c _ => congrFun hkept c, hcount.ge⟩
  unfold Tidy
  rwa [keeps_congr hkept hlasts.handles, stands_congr hkept]

theorem Aloof.respects (h : s.Aloof t) : s.Respects H n t :=
  respects_of_tidied h.kept h.count fun hs => hs.echoes h.network

theorem subject?_face (s : Scene α) (c : Nat) :
    s.subject? c = (s.face? c).map fun comp => (comp.widgetClass, comp.object) := by
  unfold subject? face?
  cases s.component? c <;> rfl

theorem kept?_face (s : Scene α) (c : Nat) :
    s.kept? c = (s.face? c).map fun comp => (comp.links, comp.watchers) := by
  unfold kept? face?
  cases s.component? c <;> rfl

theorem kept?_update (s : Scene α) (c : Nat) (f : Component α → Component α) (k : Nat) :
    (s.update c f).kept? k = if k = c then
      (s.component? k).map fun comp => ((f comp).links, (f comp).watchers) else s.kept? k := by
  unfold kept?
  rw [component?_update]
  split
  · exact Option.map_map ..
  · rfl

theorem subject?_update (s : Scene α) (c : Nat) {f : Component α → Component α}
    (h : ∀ a, ((f a).widgetClass, (f a).object) = (a.widgetClass, a.object)) :
    (s.update c f).subject? = s.subject? := by
  funext k
  unfold subject?
  rw [component?_update]
  split
  · rw [Option.map_map]
    exact congrArg (Option.map · (s.component? k)) (funext h)
  · rfl

theorem aloof_update (s : Scene α) (c : Nat) {f : Component α → Component α}
    (hsubject : ∀ a, ((f a).widgetClass, (f a).object) = (a.widgetClass, a.object))
    (hkept : ∀ a, ((f a).links, (f a).watchers) = (a.links, a.watchers)) :
    s.Aloof (s.update c f) := by
  refine ⟨.refl s.network, subject?_update s c hsubject, ?_, size_update ..⟩
  funext k
  rw [kept?_update]
  split
  · unfold kept?
    simp only [hkept]
  · rfl

theorem Wakes.aloof (h : s.Wakes t) : s.Aloof t := by
  refine ⟨?_, ?_, ?_, h.count⟩
  · rw [h.network]
    exact ⟨rfl, rfl, rfl, rfl, rfl, rfl, rfl, rfl⟩
  · funext c
    rw [subject?_face, subject?_face]
    rcases h.faces c with hsame | ⟨a, ha, -, hwoken⟩
    · rw [hsame]
    · rw [ha, hwoken]
      rfl
  · funext c
    rw [kept?_face, kept?_face]
    rcases h.faces c with hsame | ⟨a, ha, -, hwoken⟩
    · rw [hsame]
    · rw [ha, hwoken]
      rfl

theorem Inner.aloof (h : s.Inner t) : s.Aloof t := h.wakes.aloof

theorem aloof_schedule (s : Scene α) (c : Nat) (task : Task) : s.Aloof (s.schedule c task) := by
  unfold schedule
  split
  · split
    · exact ⟨.refl s.network, rfl, rfl, rfl⟩
    · exact Std.Refl.refl s
  · exact Std.Refl.refl s

theorem aloof_invalidateLayout (s : Scene α) (c : Nat) : s.Aloof (s.invalidateLayout c) := by
  refine IsTrans.trans _ _ _ ?_ (aloof_schedule _ c (.layout c))
  exact aloof_update s c (fun _ => rfl) fun _ => rfl

theorem aloof_announceHint (s : Scene α) (c : Nat) : s.Aloof (s.announceHint c) := by
  unfold announceHint
  split
  · exact Std.Refl.refl s
  · split
    · split
      · exact ⟨.refl s.network, rfl, rfl, rfl⟩
      · exact Std.Refl.refl s
    · exact Std.Refl.refl s

theorem aloof_heedSignals (s : Scene α) : s.Aloof s.heedSignals := by
  have hstart : s.Aloof { s with network := { s.network with signals := [] } } :=
    ⟨⟨rfl, rfl, rfl, rfl, rfl, rfl, rfl, rfl⟩, rfl, rfl, rfl⟩
  unfold heedSignals
  exact List.foldlRecOn _ _ hstart fun t ht c _ => IsTrans.trans _ _ _ ht (aloof_announceHint t c)

theorem aloof_attach (s : Scene α) (p c : Nat) : s.Aloof (s.attach p c) := by
  have hchild := aloof_update s c (f := fun comp => { comp with parent := some p }) (fun _ => rfl)
    fun _ => rfl
  exact IsTrans.trans _ _ _ hchild (aloof_update _ p (fun _ => rfl) fun _ => rfl)

theorem aloof_detach (s : Scene α) (p c : Nat) : s.Aloof (s.detach p c) := by
  have hparent := aloof_update s p (f := fun comp =>
    { comp with children := comp.children.filter fun k => k != c }) (fun _ => rfl) fun _ => rfl
  exact IsTrans.trans _ _ _ hparent (aloof_update _ c (fun _ => rfl) fun _ => rfl)

theorem aloof_invalidateConstraints (s : Scene α) (c : Nat) :
    s.Aloof (s.invalidateConstraints c) := by
  refine IsTrans.trans _ _ _ ?_ (aloof_schedule _ c (.constraints c))
  exact aloof_update s c (fun _ => rfl) fun _ => rfl

theorem aloof_constrain (s : Scene α) (c : Nat) (cs : List (Constraint α)) :
    s.Aloof (s.constrain c cs) := by
  have hgiven : s.Aloof (s.update c fun comp => { comp with userConstraints := cs }) :=
    aloof_update s c (fun _ => rfl) fun _ => rfl
  unfold constrain
  dsimp only
  split
  · split
    · exact IsTrans.trans _ _ _ hgiven (IsTrans.trans _ _ _ (aloof_invalidateConstraints _ c)
        (aloof_invalidateLayout _ c))
    · exact hgiven
  · exact hgiven

/-! ### Following -/

theorem tidy_watch {K W : Keeping} {A : List Nat} {net : Network} (h : net.Tidy K W A)
    (o : ObjectRef) (c : Nat) (a : Keeper) (attrs : List String) :
    (watch net o c attrs).2.Tidy K (W.addAll a (watch net o c attrs).1) A ∧
      net.Lasts W (watch net o c attrs).2 := by
  induction attrs generalizing net W with
  | nil => exact ⟨(W.addAll_nil a).symm ▸ h, .refl net⟩
  | cons attr rest ih =>
    have hstands : (Handler.hint c).Stands := trivial
    have hfirst := h.subscribe o.id attr hstands a
    obtain ⟨htidy, hlasts⟩ := ih hfirst
    refine ⟨?_, (lasts_subscribe o.id attr (.hint c)).trans (hlasts.mono fun _ _ => .inl)⟩
    exact (W.addAll_cons a net.nextObserver _).symm ▸ htidy

/-! ### Passes -/

variable [Scalar α]

theorem aloof_resize (s : Scene α) (c : Nat) (size : Size α) : s.Aloof (s.resize c size) := by
  refine IsTrans.trans _ _ _ ?_ (aloof_invalidateLayout _ c)
  exact aloof_update s c (fun _ => rfl) fun _ => rfl

theorem aloof_place (s : Scene α) (c : Nat) (geometry : Geometry α) :
    s.Aloof (s.place c geometry) := by
  unfold place
  split
  · exact Std.Refl.refl s
  · dsimp only
    split
    all_goals
      split
      · refine IsTrans.trans _ _ _ ?_ (aloof_invalidateLayout _ c)
        exact aloof_update s c (fun _ => rfl) fun _ => rfl
      · exact aloof_update s c (fun _ => rfl) fun _ => rfl

theorem aloof_placeChildren (c : Nat) : Through (@Aloof α) (placeChildren c).run := by
  refine Through.run_modify_bind (fun s => aloof_update s c (fun _ => rfl) fun _ => rfl) fun s =>
    leads_run_get_bind.2 ?_
  split
  · exact leads_run_pure.2 (Std.Refl.refl s)
  · split
    · refine Through.run_bind (fun t => (inner_tryLayout c _ t).mono fun _ _ => Inner.aloof)
        (fun resolved => ?_) s
      split
      · exact through_pure _
      · refine through_modify fun t => List.foldlRecOn _ _ ?_ fun u hu placed _ =>
          IsTrans.trans _ _ _ hu (aloof_place u ..)
        refine IsTrans.trans _ _ _ ?_ (inner_note ..).aloof
        exact aloof_update t c (fun _ => rfl) fun _ => rfl
    · exact leads_run_pure.2 (Std.Refl.refl s)

theorem aloof_handConstraintsOne (c : Nat) : Through (@Aloof α) (handConstraintsOne c).run := by
  refine Through.run_modify_bind (fun s => aloof_update s c (fun _ => rfl) fun _ => rfl) fun s =>
    leads_run_get_bind.2 ?_
  split
  · exact leads_run_pure.2 (Std.Refl.refl s)
  · split
    · refine Through.run_bind (fun t => (inner_tryLogged c _ t).mono fun _ _ => Inner.aloof)
        (fun _ => ?_) s
      refine Through.run_modify_bind (fun t => aloof_update t c (fun _ => rfl) fun _ => rfl) ?_
      exact Through.run_lift_bind (fun t => (inner_tellBounds c t).mono fun _ _ => Inner.aloof)
        fun _ => through_modify fun t => aloof_announceHint t c
    · exact leads_run_pure.2 (Std.Refl.refl s)

theorem aloof_renewHint (p c : Nat) : Through (@Aloof α) (renewHint p c).run := by
  have hset (hints : List (Constraint α)) (s : Scene α) :
      s.Aloof (s.update c fun comp => { comp with hints }) :=
    aloof_update s c (fun _ => rfl) fun _ => rfl
  intro s
  refine leads_run_get_bind.2 ?_
  split
  · exact leads_run_pure.2 (Std.Refl.refl s)
  · next child _ =>
    split
    · refine Through.run_modify_bind (hset []) ?_ s
      refine Through.run_lift_bind (fun t => (inner_hintConstraints c t).mono fun _ _ => Inner.aloof)
        fun hints => ?_
      refine Through.run_lift_bind (fun t => (inner_tryLogged p _ t).mono fun _ _ => Inner.aloof)
        fun r => ?_
      split
      · exact Through.run_modify_bind (hset child.hints) (through_pure _)
      · refine Through.run_modify_bind (hset hints) ?_
        refine Through.run_lift_bind (fun t => (inner_tellBounds p t).mono fun _ _ => Inner.aloof)
          fun _ => through_modify fun t => ?_
        exact IsTrans.trans _ _ _ (aloof_invalidateLayout t p) (aloof_announceHint ..)
    · exact leads_run_pure.2 (Std.Refl.refl s)

omit [Scalar α] in
theorem aloof_attempt {message : String} {fields : Scene α → List (String × String)}
    {pass : Laying α Unit} (h : Through (@Aloof α) pass.run) :
    Through (@Aloof α) (attempt message fields pass) := by
  refine Through.bind h fun r => ?_
  split
  · exact through_pure _
  · exact through_modify fun s => (inner_note ..).aloof

theorem aloof_runTask (task : Task) (s : Scene α) : Leads (runTask task) s fun _ t => s.Aloof t := by
  refine leads_bind.2 (leads_get.2 ?_)
  cases task with
  | constraints c =>
    dsimp only
    split
    · exact through_pure _ s
    · split
      · refine aloof_attempt (fun u => leads_run_get_bind.2 ?_) s
        exact through_forM aloof_handConstraintsOne _ u
      · exact through_pure _ s
  | layout c =>
    dsimp only
    split
    · exact through_pure _ s
    · split
      · exact aloof_attempt (aloof_placeChildren c) s
      · exact through_pure _ s
  | sizeHint p c =>
    dsimp only
    split
    · exact aloof_attempt (aloof_renewHint p c) s
    · exact through_pure _ s

theorem aloof_runUpTo {limit ran m : Nat} (h : s.runUpTo limit ran = some (m, t)) : s.Aloof t := by
  induction limit generalizing s ran with
  | zero =>
    unfold runUpTo at h
    split at h
    · cases h
      exact Std.Refl.refl _
    · cases h
    · next hlimit => cases hlimit
  | succ limit ih =>
    unfold runUpTo at h
    split at h
    · cases h
      exact Std.Refl.refl _
    · next hlimit => cases hlimit
    · next task queue _ _ hlimit =>
      cases hlimit
      have hpopped : s.Aloof { s with queue } := ⟨.refl s.network, rfl, rfl, rfl⟩
      exact IsTrans.trans _ _ _ hpopped (IsTrans.trans _ _ _ (aloof_runTask task _) (ih h))

theorem aloof_adopt (p c : Nat) : Through (@Aloof α) (adopt p c).run := by
  unfold adopt
  intro s
  refine leads_run_get_bind.2 ?_
  refine Through.run_modify_bind (fun s => aloof_attach s p c) ?_ s
  split
  · split
    · refine Through.run_lift_bind (fun t => (wakes_takeIn p c t).mono fun _ _ => Wakes.aloof)
        fun r => ?_
      split
      · exact Through.run_modify_bind (fun t => aloof_detach t p c) (through_pure _)
      · refine Through.run_lift_bind (fun t => (inner_tellBounds p t).mono fun _ _ => Inner.aloof)
          fun _ => through_modify fun t => ?_
        exact IsTrans.trans _ _ _ (aloof_invalidateLayout t p) (aloof_announceHint _ p)
    · exact through_pure _
  · exact through_pure _

/-! ### What a scene goes through -/

/-- Attributes change, components get sizes, and the tasks that wait are run. -/
inductive Used (s : Scene α) : Scene α → Prop
  | refl : Used s s
  /-- An attribute is assigned, with all that follows. -/
  | changed {t : Scene α} {o : ObjectRef} {attr : String} {v : Value} {r : Except EvalError Bool}
      {network : Network} (h : Used s t) (hrun : t.network.set? o attr v = some (r, network)) :
      Used s { t with network }.heedSignals
  | resized {t : Scene α} (h : Used s t) (c : Nat) (size : Size α) : Used s (t.resize c size)
  | drained {t u : Scene α} {ran : Nat} (h : Used s t) (hrun : t.runPending = some (ran, u)) :
      Used s u

theorem Used.respects (h : s.Used t) : s.Respects H n t := by
  induction h with
  | refl => exact Std.Refl.refl s
  | @changed t o attr v r network _ hrun ih =>
    have hset : t.Respects H n { t with network } :=
      respects_of_tidied rfl rfl fun ht => (retains nestingLimit).assign ht hrun
    exact IsTrans.trans _ _ _ ih (IsTrans.trans _ _ _ hset (aloof_heedSignals _).respects)
  | resized _ c size ih => exact IsTrans.trans _ _ _ ih (aloof_resize _ c size).respects
  | drained _ hrun ih => exact IsTrans.trans _ _ _ ih (aloof_runUpTo hrun).respects

/-- Using a scene neither makes components nor lets any go. -/
theorem Used.kept (h : s.Used t) : t.kept? = s.kept? := by
  induction h with
  | refl => rfl
  | changed _ _ ih => exact (aloof_heedSignals _).kept.trans ih
  | resized _ c size ih => exact (aloof_resize _ c size).kept.trans ih
  | drained _ hrun ih => exact (aloof_runUpTo hrun).kept.trans ih

end Scene

end ReactiveView
