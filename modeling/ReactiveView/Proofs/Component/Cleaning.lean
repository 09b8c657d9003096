import ReactiveView.Proofs.Component.Coalescing
import ReactiveView.Proofs.Component.Freshness

/-!
This module contains what becomes of constraints that are due. The flag of a live component is cleared
only when a constraint pass reaches it, and with the flag of a container comes its task. So nothing is
due any more when the queue is empty, apart from one case: what a live component owed when it got its
first child. Its constraints go to the new solver at once, but the flag stays and no task is queued.
-/

namespace ReactiveView

/-- A component that a constraint pass has reached: it counts as refused until its solver has answered. -/
def Component.reached {α : Type} (a : Component α) : Component α :=
  { a with
    needsConstraints := false
    constraintPasses := a.constraintPasses + 1
    refused := a.layout.isInitialized }

namespace Scene

variable {α : Type} {s t u : Scene α} {c k p : Nat} {f : Component α → Component α} {act : Act α}

/-- Whether there is a component whose constraints have to be handed over. -/
def owesAt (s : Scene α) (k : Nat) : Bool := (s.component? k).any Component.needsConstraints

/-- How often the constraints of a component were handed over. -/
def handedAt (s : Scene α) (k : Nat) : Nat :=
  ((s.component? k).map Component.constraintPasses).getD 0

theorem owesAt_face (s : Scene α) (k : Nat) :
    s.owesAt k = (s.face? k).any Component.needsConstraints := by
  unfold owesAt face?
  cases s.component? k <;> rfl

theorem handedAt_face (s : Scene α) (k : Nat) :
    s.handedAt k = ((s.face? k).map Component.constraintPasses).getD 0 := by
  unfold handedAt face?
  cases s.component? k <;> rfl

theorem owesAt_update (s : Scene α) (c k : Nat)
    (h : ∀ a, (f a).needsConstraints = a.needsConstraints) :
    (s.update c f).owesAt k = s.owesAt k := by
  unfold owesAt
  rw [component?_update]
  split
  · cases s.component? k with
    | none => rfl
    | some a => exact h a
  · rfl

theorem handedAt_update (s : Scene α) (c k : Nat)
    (h : ∀ a, (f a).constraintPasses = a.constraintPasses) :
    (s.update c f).handedAt k = s.handedAt k := by
  unfold handedAt
  rw [component?_update]
  split
  · cases s.component? k with
    | none => rfl
    | some a => exact h a
  · rfl

theorem owesAt_invalidateLayout (s : Scene α) (c k : Nat) :
    (s.invalidateLayout c).owesAt k = s.owesAt k := by
  rw [owesAt_face, invalidateLayout, face?_schedule, ← owesAt_face]
  exact owesAt_update s c k fun _ => rfl

theorem handedAt_invalidateLayout (s : Scene α) (c k : Nat) :
    (s.invalidateLayout c).handedAt k = s.handedAt k := by
  rw [handedAt_face, invalidateLayout, face?_schedule, ← handedAt_face]
  exact handedAt_update s c k fun _ => rfl

theorem owesAt_invalidateConstraints (s : Scene α) (c k : Nat) :
    (s.invalidateConstraints c).owesAt k
      = if k = c then (s.component? k).isSome else s.owesAt k := by
  rw [owesAt_face, invalidateConstraints, face?_schedule, ← owesAt_face]
  unfold owesAt
  rw [component?_update]
  split
  · cases s.component? k <;> rfl
  · rfl

theorem handedAt_invalidateConstraints (s : Scene α) (c k : Nat) :
    (s.invalidateConstraints c).handedAt k = s.handedAt k := by
  rw [handedAt_face, invalidateConstraints, face?_schedule, ← handedAt_face]
  exact handedAt_update s c k fun _ => rfl

theorem pending_invalidateConstraints (s : Scene α) (c : Nat) :
    (s.invalidateConstraints c).queue.pending
      = s.queue.pending ++ if s.liveAt c && s.parentAt c then [.constraints c] else [] := by
  unfold invalidateConstraints
  rw [pending_schedule]
  rw [liveAt_update, parentAt_update]
  · rfl
  · exact fun _ => rfl
  · exact fun _ => rfl

/-! ### Steps that make nothing due -/

/-- A step after which a component owes what it owed before, unless a constraint pass has reached it:
then it owes nothing. -/
def Pays (k : Nat) (s t : Scene α) : Prop :=
  t.owesAt k = s.owesAt k ∧ t.handedAt k = s.handedAt k ∨
    t.owesAt k = false ∧ s.handedAt k < t.handedAt k

theorem Pays.le (h : s.Pays k t) : s.handedAt k ≤ t.handedAt k := by
  rcases h with ⟨-, hsame⟩ | ⟨-, hmore⟩
  · exact hsame.ge
  · exact hmore.le

theorem Pays.clear (h : s.Pays k t) (hclear : s.owesAt k = false) : t.owesAt k = false := by
  rcases h with ⟨hsame, -⟩ | ⟨hpaid, -⟩
  · exact hsame.trans hclear
  · exact hpaid

theorem Pays.of_face (h : t.face? k = s.face? k) : s.Pays k t :=
  .inl ⟨by rw [owesAt_face, owesAt_face, h], by rw [handedAt_face, handedAt_face, h]⟩

theorem pays_of_components (k : Nat) (h : t.components = s.components) : s.Pays k t := by
  have hface : t.face? k = s.face? k := by
    unfold face? component?
    rw [h]
  exact .of_face hface

instance : Std.Refl (@Pays α k) := ⟨fun _ => .of_face rfl⟩

instance : IsTrans (Scene α) (Pays k) where
  trans s t u h h' := by
    rcases h' with ⟨howes, hhanded⟩ | ⟨hpaid, hmore⟩
    · unfold Pays
      rwa [howes, hhanded]
    · exact .inr ⟨hpaid, lt_of_le_of_lt h.le hmore⟩

theorem Inner.pays (h : s.Inner t) : s.Pays k t := .of_face (congrFun h.faces k)

theorem pays_update (s : Scene α) (c k : Nat)
    (hdue : ∀ a, (f a).needsConstraints = a.needsConstraints)
    (hpasses : ∀ a, (f a).constraintPasses = a.constraintPasses) : s.Pays k (s.update c f) :=
  .inl ⟨owesAt_update s c k hdue, handedAt_update s c k hpasses⟩

theorem pays_invalidateLayout (s : Scene α) (c k : Nat) : s.Pays k (s.invalidateLayout c) :=
  .inl ⟨owesAt_invalidateLayout .., handedAt_invalidateLayout ..⟩

theorem pays_announceHint (s : Scene α) (c k : Nat) : s.Pays k (s.announceHint c) :=
  pays_of_components k (announceHint_components s c)

theorem pays_attach (s : Scene α) (p c k : Nat) : s.Pays k (s.attach p c) := by
  unfold Pays owesAt handedAt
  rw [component?_attach]
  exact .inl (by cases s.component? k <;> exact ⟨rfl, rfl⟩)

theorem pays_detach (s : Scene α) (p c k : Nat) : s.Pays k (s.detach p c) := by
  unfold Pays owesAt handedAt
  rw [component?_detach]
  exact .inl (by cases s.component? k <;> exact ⟨rfl, rfl⟩)

variable [Scalar α]

theorem pays_resize (s : Scene α) (c k : Nat) (size : Size α) : s.Pays k (s.resize c size) := by
  refine IsTrans.trans _ _ _ ?_ (pays_invalidateLayout _ c k)
  exact pays_update s c k (fun _ => rfl) fun _ => rfl

theorem pays_place (s : Scene α) (c k : Nat) (geometry : Geometry α) :
    s.Pays k (s.place c geometry) := by
  unfold place
  split
  · exact Std.Refl.refl s
  · dsimp only
    split
    all_goals
      split
      · refine IsTrans.trans _ _ _ ?_ (pays_invalidateLayout _ c k)
        exact pays_update s c k (fun _ => rfl) fun _ => rfl
      · exact pays_update s c k (fun _ => rfl) fun _ => rfl

theorem pays_placeChildren (c : Nat) : Through (@Pays α k) (placeChildren c).run := by
  refine Through.run_modify_bind (fun s => pays_update s c k (fun _ => rfl) fun _ => rfl) fun s =>
    leads_run_get_bind.2 ?_
  split
  · exact leads_run_pure.2 (Std.Refl.refl s)
  · split
    · refine Through.run_bind (fun t => (inner_tryLayout c _ t).mono fun _ _ => Inner.pays)
        (fun found => ?_) s
      split
      · exact through_pure _
      · refine through_modify fun t => ?_
        have hcounted (level : Level) (message : String) (fields : List (String × String)) :
            t.Pays k ((t.update c fun comp => { comp with layoutPasses := comp.layoutPasses + 1 }).note
              level message fields) := by
          refine IsTrans.trans _ _ _ ?_ (inner_note level message fields).pays
          exact pays_update t c k (fun _ => rfl) fun _ => rfl
        exact List.foldlRecOn _ _ (hcounted ..) fun u hu place _ =>
          IsTrans.trans _ _ _ hu (pays_place u _ k _)
    · exact leads_run_pure.2 (Std.Refl.refl s)

theorem pays_renewHint (p c : Nat) : Through (@Pays α k) (renewHint p c).run := by
  have hset (hints : List (Constraint α)) (s : Scene α) :
      s.Pays k (s.update c fun comp => { comp with hints }) :=
    pays_update s c k (fun _ => rfl) fun _ => rfl
  intro s
  refine leads_run_get_bind.2 ?_
  split
  · exact leads_run_pure.2 (Std.Refl.refl s)
  · next child _ =>
    split
    · refine Through.run_modify_bind (hset []) ?_ s
      refine Through.run_lift_bind (fun t => (inner_hintConstraints c t).mono fun _ _ => Inner.pays)
        fun hints => ?_
      refine Through.run_lift_bind (fun t => (inner_tryLogged p _ t).mono fun _ _ => Inner.pays)
        fun r => ?_
      split
      · exact Through.run_modify_bind (hset child.hints) (through_pure _)
      · refine Through.run_modify_bind (hset hints) ?_
        refine Through.run_lift_bind (fun t => (inner_tellBounds p t).mono fun _ _ => Inner.pays)
          fun _ => through_modify fun t => ?_
        exact IsTrans.trans _ _ _ (pays_invalidateLayout t p k) (pays_announceHint _ p k)
    · exact leads_run_pure.2 (Std.Refl.refl s)

/-! ### Constraint passes -/

omit [Scalar α] in
/-- A pass clears the flag before it does anything else. -/
theorem owesAt_reached (s : Scene α) (c : Nat) : (s.update c Component.reached).owesAt c = false := by
  unfold owesAt
  rw [component?_update, if_pos rfl]
  cases s.component? c <;> rfl

omit [Scalar α] in
theorem pays_reached (s : Scene α) (c k : Nat) : s.Pays k (s.update c Component.reached) := by
  by_cases hk : k = c
  · subst hk
    cases hc : s.component? k with
    | none =>
      refine .of_face ?_
      unfold face?
      rw [component?_update, if_pos rfl, hc]
      rfl
    | some a =>
      refine .inr ⟨owesAt_reached s k, ?_⟩
      unfold handedAt
      rw [component?_update, if_pos rfl, hc]
      exact Nat.lt_succ_self a.constraintPasses
  · refine .of_face ?_
    unfold face?
    rw [component?_update, if_neg hk]

theorem pays_handConstraintsOne_reached (s : Scene α) (c k : Nat) :
    Leads (handConstraintsOne c).run s fun _ t => (s.update c Component.reached).Pays k t := by
  refine leads_run_modify_bind.2 (leads_run_get_bind.2 ?_)
  change Leads _ (s.update c Component.reached) _
  generalize s.update c Component.reached = u
  split
  · exact leads_run_pure.2 (Std.Refl.refl u)
  · split
    · refine Through.run_bind (fun t => (inner_tryLogged c _ t).mono fun _ _ => Inner.pays)
        (fun _ => ?_) u
      refine Through.run_modify_bind (fun t => pays_update t c k (fun _ => rfl) fun _ => rfl) ?_
      exact Through.run_lift_bind (fun t => (inner_tellBounds c t).mono fun _ _ => Inner.pays)
        fun _ => through_modify fun t => pays_announceHint t c k
    · exact leads_run_pure.2 (Std.Refl.refl u)

theorem pays_handConstraintsOne (c : Nat) : Through (@Pays α k) (handConstraintsOne c).run := fun s =>
  (pays_handConstraintsOne_reached s c k).mono fun _ _ => IsTrans.trans _ _ _ (pays_reached s c k)

theorem pays_handConstraints (c : Nat) : Through (@Pays α k) (handConstraints c).run :=
  fun s => leads_run_get_bind.2 (through_forM pays_handConstraintsOne _ s)

/-- Whatever solvers answer, the component that a pass starts from owes nothing afterwards. -/
theorem owesAt_handConstraints {comp : Component α} (hc : s.component? c = some comp) :
    Leads (handConstraints c).run s fun _ t => t.owesAt c = false := by
  obtain ⟨n, hn⟩ := Nat.exists_eq_add_one_of_ne_zero (Nat.ne_zero_of_lt (lt_size_of_component? hc))
  unfold handConstraints subtree
  refine leads_run_get_bind.2 ?_
  rw [hn]
  have hfirst := (pays_handConstraintsOne_reached s c c).mono fun _ _ ht => ht.clear (owesAt_reached s c)
  exact hfirst.run_bind (fun _ t ht => (through_forM pays_handConstraintsOne _ t).mono fun _ _ h =>
    h.clear ht) fun _ _ ht => ht

/-- No task makes constraints due, and one that is to hand constraints over leaves none. -/
theorem pays_runTask (task : Task) (s : Scene α) : Leads (runTask task) s fun _ t =>
    s.Pays k t ∧ (task = .constraints k → t.owesAt k = false) := by
  have hnote (u : Scene α) (level : Level) (message : String) (fields : List (String × String))
      (hu : s.Pays k u ∧ (task = .constraints k → u.owesAt k = false)) :
      s.Pays k (u.note level message fields) ∧
        (task = .constraints k → (u.note level message fields).owesAt k = false) :=
    have hnoted : u.Pays k (u.note level message fields) := (inner_note ..).pays
    ⟨IsTrans.trans _ _ _ hu.1 hnoted, fun htask => hnoted.clear (hu.2 htask)⟩
  refine leads_bind.2 (leads_get.2 ?_)
  cases task with
  | constraints c =>
    dsimp only
    split
    · next hnone =>
      refine leads_pure.2 ⟨Std.Refl.refl s, ?_⟩
      rintro ⟨⟩
      unfold owesAt
      rw [hnone]
      rfl
    · next comp hc =>
      split
      · refine leads_attempt_of_note hnote (((pays_handConstraints c s).and
          (owesAt_handConstraints hc)).mono fun _ t ht => ⟨ht.1, ?_⟩)
        rintro ⟨⟩
        exact ht.2
      · next hclear =>
        refine leads_pure.2 ⟨Std.Refl.refl s, ?_⟩
        rintro ⟨⟩
        unfold owesAt
        rw [hc]
        exact Bool.eq_false_of_not_eq_true hclear
  | layout c =>
    dsimp only
    split
    · exact leads_pure.2 ⟨Std.Refl.refl s, nofun⟩
    · split
      · exact leads_attempt_of_note hnote ((pays_placeChildren c s).mono fun _ _ ht => ⟨ht, nofun⟩)
      · exact leads_pure.2 ⟨Std.Refl.refl s, nofun⟩
  | sizeHint p c =>
    dsimp only
    split
    · exact leads_attempt_of_note hnote ((pays_renewHint p c s).mono fun _ _ ht => ⟨ht, nofun⟩)
    · exact leads_pure.2 ⟨Std.Refl.refl s, nofun⟩

theorem pays_task (s : Scene α) (k : Nat) : s.Pays k (s.perform .task) := by
  cases hqueue : s.queue.pending with
  | nil =>
    rw [(perform_task_of_nil hqueue).1]
    exact Std.Refl.refl s
  | cons task tasks =>
    rw [perform_task hqueue]
    exact (pays_runTask task { s with queue := ⟨tasks⟩ }).1

/-- The task of a component is only gone from the queue when nothing is owed any more. -/
theorem constraints_mem_perform (h : .constraints k ∈ s.queue.pending)
    (howes : (s.perform act).owesAt k = true) : .constraints k ∈ (s.perform act).queue.pending := by
  refine (s.tends_perform act k).kept _ ?_
  cases act with
  | task =>
    cases hqueue : s.queue.pending with
    | nil => rwa [(perform_task_of_nil hqueue).2]
    | cons task tasks =>
      rw [hqueue] at h
      rw [perform_task hqueue] at howes
      have hother := (List.mem_cons.1 h).resolve_left fun hk => by
        have hpaid := (pays_runTask task { s with queue := ⟨tasks⟩ }).2 hk.symm
        cases hpaid.symm.trans howes
      rw [opened_task hqueue]
      unfold cleared
      split
      · split <;> exact hother
      · exact hother
  | _ => exact h

/-! ### Acts -/

/-- A step that makes no constraints due of a component. When the component becomes live, nothing is. -/
structure Rouses (k : Nat) (s t : Scene α) : Prop where
  live : s.liveAt k = true → t.liveAt k = true
  pays : s.liveAt k = true → s.Pays k t
  woken : s.liveAt k = false → t.liveAt k = true → t.owesAt k = false

/-- A step after which the constraints of a component are due. If it is a live container, its task is
in the queue. -/
structure Incurs (k : Nat) (s t : Scene α) : Prop where
  owes : t.owesAt k = true
  handed : t.handedAt k = s.handedAt k
  queued : t.liveAt k = true → t.parentAt k = true → .constraints k ∈ t.queue.pending

omit [Scalar α] in
theorem Rouses.trans (h : s.Rouses k t) (h' : t.Rouses k u) : s.Rouses k u := by
  refine ⟨fun hlive => h'.live (h.live hlive), fun hlive =>
    IsTrans.trans _ _ _ (h.pays hlive) (h'.pays (h.live hlive)), fun hdormant hlive => ?_⟩
  cases hmiddle : t.liveAt k with
  | true => exact (h'.pays hmiddle).clear (h.woken hdormant hmiddle)
  | false => exact h'.woken hmiddle hlive

omit [Scalar α] in
theorem Pays.rouses (h : s.Pays k t) (hlive : t.liveAt k = s.liveAt k) : s.Rouses k t where
  live := hlive.trans
  pays _ := h
  woken hdormant hlive' := nomatch (hlive.trans hdormant).symm.trans hlive'

omit [Scalar α] in
theorem Wakes.rouses (h : s.Wakes t) (k : Nat) : s.Rouses k t := by
  refine ⟨(h.tends k).live, fun hlive => ?_, fun hdormant hlive => ?_⟩
  · rcases h.faces k with hsame | ⟨a, ha, hdormant, -⟩
    · exact .of_face hsame
    · rw [liveAt_face, ha] at hlive
      cases hdormant.symm.trans hlive
  · rcases h.faces k with hsame | ⟨a, -, -, hk⟩
    · rw [liveAt_face, hsame, ← liveAt_face] at hlive
      cases hdormant.symm.trans hlive
    · rw [owesAt_face, hk]
      rfl

omit [Scalar α] in
theorem Adopts.rouses {r : Except LayoutError Unit} (h : s.Adopts p c r t) (k : Nat) :
    s.Rouses k t := by
  have hattached : s.Rouses k (s.attach p c) := (pays_attach s p c k).rouses (liveAt_attach ..)
  cases h with
  | attached => exact hattached
  | @refused u hlive hu =>
    exact (hattached.trans (hu.rouses k)).trans ((pays_detach u p c k).rouses (liveAt_detach ..))
  | @taken u hlive hu =>
    have hinvalid := (pays_invalidateLayout u p k).rouses (liveAt_invalidateLayout ..)
    have hannounced := (pays_announceHint (u.invalidateLayout p) p k).rouses
      ((asks_announceHint _ p).same k).live
    exact (hattached.trans (hu.rouses k)).trans (hinvalid.trans hannounced)

omit [Scalar α] in
theorem pays_or_incurs_invalidateConstraints (s : Scene α) (c k : Nat) :
    s.Pays k (s.invalidateConstraints c) ∨ s.Incurs k (s.invalidateConstraints c) := by
  by_cases hk : k = c ∧ (s.component? c).isSome = true
  · obtain ⟨rfl, hsome⟩ := hk
    refine .inr ⟨?_, handedAt_invalidateConstraints .., fun hlive hparent => ?_⟩
    · rw [owesAt_invalidateConstraints, if_pos rfl]
      exact hsome
    · have hsame := (asks_invalidateConstraints s k).same k
      rw [pending_invalidateConstraints, ← hsame.live, ← hsame.parent, hlive, hparent]
      exact List.mem_append_right _ (List.mem_singleton_self _)
  · refine .inl (.inl ⟨?_, handedAt_invalidateConstraints ..⟩)
    rw [owesAt_invalidateConstraints]
    split
    · next hkc =>
      subst hkc
      unfold owesAt
      cases hc : s.component? k with
      | none => rfl
      | some a => exact absurd ⟨rfl, congrArg Option.isSome hc⟩ hk
    · rfl

omit [Scalar α] in
theorem pays_or_incurs_constrain (s : Scene α) (c k : Nat) (constraints : List (Constraint α)) :
    s.Pays k (s.constrain c constraints) ∨ s.Incurs k (s.constrain c constraints) := by
  have hgiven : s.Pays k (s.update c fun comp => { comp with userConstraints := constraints }) :=
    pays_update s c k (fun _ => rfl) fun _ => rfl
  have hhanded := handedAt_update (f := fun comp => { comp with userConstraints := constraints }) s c k
    fun _ => rfl
  unfold constrain
  dsimp only
  generalize s.update c (fun comp => { comp with userConstraints := constraints }) = u at *
  split
  · split
    · rcases u.pays_or_incurs_invalidateConstraints c k with hpays | hincurs
      · exact .inl (IsTrans.trans _ _ _ hgiven (IsTrans.trans _ _ _ hpays (pays_invalidateLayout _ c k)))
      · refine .inr ⟨?_, ?_, fun hlive hparent => ?_⟩
        · rw [owesAt_invalidateLayout]
          exact hincurs.owes
        · rw [handedAt_invalidateLayout, hincurs.handed, hhanded]
        · rw [liveAt_invalidateLayout] at hlive
          rw [parentAt_invalidateLayout] at hparent
          exact (marks_invalidateLayout _ c).kept _ (hincurs.queued hlive hparent)
    · exact .inl hgiven
  · exact .inl hgiven

theorem rouses_newComponent (s : Scene α) (widgetClass : WidgetClass) (identifier : Option String)
    (k : Nat) : s.Rouses k (s.newComponent widgetClass identifier).2 := by
  obtain ⟨object, watchers, hnew⟩ := s.exists_component?_newComponent widgetClass identifier
  generalize (s.newComponent widgetClass identifier).2 = t at hnew
  by_cases hk : k = s.components.size
  · have hbefore : s.liveAt k = false := by
      unfold liveAt
      rw [component?_eq_none hk.ge]
      rfl
    have hafter : t.liveAt k = false := by
      unfold liveAt
      rw [hnew, if_pos hk]
      rfl
    refine ⟨fun hlive => ?_, fun hlive => ?_, fun _ hlive => ?_⟩
    · cases hbefore.symm.trans hlive
    · cases hbefore.symm.trans hlive
    · cases hafter.symm.trans hlive
  · have hface : t.face? k = s.face? k := by
      unfold face?
      rw [hnew, if_neg hk]
    exact Pays.rouses (.of_face hface) (SameAt.of_face hface).live

/-- Only asking for constraints makes them due. -/
theorem rouses_or_incurs (s : Scene α) (act : Act α) (k : Nat) :
    s.Rouses k (s.perform act) ∨ s.Incurs k (s.perform act) := by
  cases act with
  | create widgetClass identifier => exact .inl (rouses_newComponent s widgetClass identifier k)
  | adopt p c => exact .inl (Adopts.rouses (leads_adopt_adopts s p c) k)
  | activate c => exact .inl (Wakes.rouses (wakes_activate c s) k)
  | constrain c constraints =>
    exact (pays_or_incurs_constrain s c k constraints).imp_left fun h =>
      h.rouses ((marks_constrain s c constraints).live k)
  | needConstraints c =>
    exact (pays_or_incurs_invalidateConstraints s c k).imp_left fun h =>
      h.rouses ((asks_invalidateConstraints s c).same k).live
  | needLayout c => exact .inl ((pays_invalidateLayout s c k).rouses (liveAt_invalidateLayout ..))
  | resize c size => exact .inl ((pays_resize s c k size).rouses ((marks_resize s c size).live k))
  | change network =>
    refine .inl (Pays.rouses ?_ ((asks_heedSignals s network).same k).live)
    exact pays_of_components k (heedSignals_components { s with network })
  | task => exact .inl ((pays_task s k).rouses (((marks_task s).live k).trans (liveAt_opened ..)))

omit [Scalar α] in
theorem Adopts.parentAt_of_ne {r : Except LayoutError Unit} (h : s.Adopts p c r t) (hk : k ≠ p) :
    t.parentAt k = s.parentAt k := by
  cases h with
  | attached => exact parentAt_attach s c hk
  | @refused u hlive hu => rw [(sameAt_detach u c hk).parent, (hu.cases k).1, parentAt_attach s c hk]
  | @taken u hlive hu =>
    rw [((asks_announceHint _ p).same k).parent, parentAt_invalidateLayout, (hu.cases k).1,
      parentAt_attach s c hk]

theorem parentAt_newComponent_eq (s : Scene α) (widgetClass : WidgetClass)
    (identifier : Option String) (k : Nat) :
    (s.newComponent widgetClass identifier).2.parentAt k = s.parentAt k := by
  obtain ⟨object, watchers, hnew⟩ := s.exists_component?_newComponent widgetClass identifier
  unfold parentAt
  rw [hnew]
  split
  · next hk =>
    rw [component?_eq_none hk.ge]
    rfl
  · rfl

/-- A component gets its first child only by attaching one. -/
theorem exists_adopt_of_parentAt (hleaf : s.parentAt k = false)
    (hparent : (s.perform act).parentAt k = true) : ∃ c, act = .adopt k c := by
  by_contra hnone
  have hsame : (s.perform act).parentAt k = s.parentAt k := by
    cases act with
    | create widgetClass identifier => exact parentAt_newComponent_eq s widgetClass identifier k
    | adopt p c =>
      refine Adopts.parentAt_of_ne (leads_adopt_adopts s p c) fun hk => hnone ⟨c, ?_⟩
      rw [hk]
    | activate c => exact ((wakes_activate c s).cases k).1
    | constrain c constraints => exact (marks_constrain s c constraints).parent k
    | needConstraints c => exact ((asks_invalidateConstraints s c).same k).parent
    | needLayout c => exact (marks_invalidateLayout s c).parent k
    | resize c size => exact (marks_resize s c size).parent k
    | change network => exact ((asks_heedSignals s network).same k).parent
    | task => exact ((marks_task s).parent k).trans (parentAt_opened ..)
  cases (hsame.trans hleaf).symm.trans hparent

/-! ### Runs -/

/-- A live component gets its first child while its constraints are due. -/
structure Outgrows (s : Scene α) (k : Nat) (act : Act α) : Prop where
  adopts : ∃ c, act = .adopt k c
  live : s.liveAt k = true
  leaf : s.parentAt k = false
  owes : s.owesAt k = true
  grown : (s.perform act).parentAt k = true

theorem handedAt_le_after (hlive : s.liveAt k = true) (acts : List (Act α)) :
    s.handedAt k ≤ (s.after acts).handedAt k := by
  induction acts generalizing s with
  | nil => exact le_rfl
  | cons act rest ih =>
    refine le_trans ?_ (ih (liveAt_perform act hlive))
    rcases s.rouses_or_incurs act k with hrouses | hincurs
    · exact (hrouses.pays hlive).le
    · exact hincurs.handed.ge

/-- What a live component owes it owes until a constraint pass reaches it. -/
theorem owesAt_after (hlive : s.liveAt k = true) (howes : s.owesAt k = true) (acts : List (Act α)) :
    (s.after acts).owesAt k = true ∨ s.handedAt k < (s.after acts).handedAt k := by
  induction acts generalizing s with
  | nil => exact .inl howes
  | cons act rest ih =>
    have hlive' := liveAt_perform act hlive
    rw [after_cons]
    rcases s.rouses_or_incurs act k with hrouses | hincurs
    · rcases hrouses.pays hlive with ⟨hsame, hhanded⟩ | ⟨-, hmore⟩
      · rw [← hhanded]
        exact ih hlive' (hsame.trans howes)
      · exact .inr (hmore.trans_le (handedAt_le_after hlive' rest))
    · rw [← hincurs.handed]
      exact ih hlive' hincurs.owes

/-- Where the constraints of a live container are due, its task waits, or they were due already when it
got its first child. -/
theorem queued_or_outgrown (hcomponents : s.components = #[]) (acts : List (Act α))
    (hlive : (s.after acts).liveAt k = true) (hparent : (s.after acts).parentAt k = true)
    (howes : (s.after acts).owesAt k = true) : .constraints k ∈ (s.after acts).queue.pending ∨
      ∃ before act later, acts = before ++ act :: later ∧ (s.after before).Outgrows k act ∧
        (s.after acts).handedAt k = (s.after before).handedAt k := by
  induction acts using List.reverseRecOn with
  | nil =>
    unfold liveAt at hlive
    rw [show s.after [] = s from rfl, component?_of_empty hcomponents] at hlive
    cases hlive
  | append_singleton acts act ih =>
    have hlast : s.after (acts ++ [act]) = (s.after acts).perform act := after_append ..
    rw [hlast] at hlive hparent howes ⊢
    rcases (s.after acts).rouses_or_incurs act k with hrouses | hincurs
    · cases hawake : (s.after acts).liveAt k with
      | false => cases (hrouses.woken hawake hlive).symm.trans howes
      | true =>
        obtain ⟨hsame, hhanded⟩ := (hrouses.pays hawake).resolve_right fun h =>
          nomatch h.1.symm.trans howes
        rw [hhanded]
        have hbefore := hsame.symm.trans howes
        cases hleaf : (s.after acts).parentAt k with
        | false =>
          have hadopts := exists_adopt_of_parentAt hleaf hparent
          exact .inr ⟨acts, act, [], rfl, ⟨hadopts, hawake, hleaf, hbefore, hparent⟩, rfl⟩
        | true =>
          refine (ih hawake hleaf hbefore).imp (fun hqueued => ?_) ?_
          · exact constraints_mem_perform hqueued howes
          · rintro ⟨before, act', later, rfl, houtgrows, hunpaid⟩
            exact ⟨before, act', later ++ [act], by simp, houtgrows, hunpaid⟩
    · exact .inl (hincurs.queued hlive hparent)

omit [Scalar α] in
/-- What is not among the last acts is among the first. -/
theorem exists_append_of_not_mem {acts tasks before later : List (Act α)}
    (h : acts ++ tasks = before ++ act :: later) (hact : act ∉ tasks) :
    ∃ rest, acts = before ++ act :: rest := by
  rcases List.append_eq_append_iff.1 h with ⟨more, -, rfl⟩ | ⟨more, rfl, htasks⟩
  · exact absurd (List.mem_append_right more List.mem_cons_self) hact
  · cases more with
    | nil =>
      rw [List.nil_append] at htasks
      exact absurd (htasks ▸ List.mem_cons_self) hact
    | cons first rest =>
      obtain ⟨rfl, -⟩ := List.cons.inj htasks
      exact ⟨rest, rfl⟩

/-- When all tasks have run, nothing is due for a live container: its layout never is, and its constraints
are just if they were due when it got its first child and no constraint pass has reached it since. -/
theorem clean_of_runPending (hcomponents : s.components = #[]) (hqueue : s.queue.pending = [])
    (acts : List (Act α)) {n : Nat} (h : (s.after acts).runPending = some (n, t))
    (hlive : t.liveAt k = true) (hparent : t.parentAt k = true) :
    t.dueAt k = false ∧
      (t.owesAt k = true ↔ ∃ before act later, acts = before ++ act :: later ∧
        (s.after before).Outgrows k act ∧ t.handedAt k = (s.after before).handedAt k) := by
  obtain ⟨rfl, hdrained⟩ := after_of_runPending h
  have hheeds := ((heeds_start hcomponents hqueue).after acts).after (List.replicate n .task)
  refine ⟨hheeds.dueAt_of_nil hlive hparent hdrained, fun howes => ?_, ?_⟩
  · rw [← after_append] at hlive hparent howes hdrained ⊢
    obtain ⟨before, act, later, hsplit, houtgrows, hunpaid⟩ :=
      (queued_or_outgrown hcomponents _ hlive hparent howes).resolve_left fun hqueued => by
        rw [hdrained] at hqueued
        cases hqueued
    -- The child did not come while the queue was run.
    have hact : act ∉ List.replicate n Act.task := fun hmem => by
      obtain ⟨c, rfl⟩ := houtgrows.adopts
      cases List.eq_of_mem_replicate hmem
    obtain ⟨rest, rfl⟩ := exists_append_of_not_mem hsplit hact
    exact ⟨before, act, rest, rfl, houtgrows, hunpaid⟩
  · rintro ⟨before, act, later, rfl, houtgrows, hunpaid⟩
    rw [← after_append, List.append_assoc, after_append] at hunpaid ⊢
    refine (owesAt_after houtgrows.live houtgrows.owes _).resolve_right fun hmore => ?_
    exact hmore.ne' hunpaid

/-- A window that becomes live, owes its constraints, and then gets its first child. -/
def owingActs : List (Act ℚ) :=
  [.create (.component "Window") none, .activate 0, .needConstraints 0,
    .create ((WidgetClass.component "Label").measured [] (.constant 120) (.constant 24)) none,
    .adopt 0 1]

/-- The window has its child and still owes its constraints when all tasks have run. -/
theorem ends_owingActs : ∃ n t, (({} : Scene ℚ).after owingActs).runPending = some (n, t) ∧
    t.liveAt 0 = true ∧ t.parentAt 0 = true ∧ t.owesAt 0 = true := by
  have hrun : ((({} : Scene ℚ).after owingActs).runPending.map fun (_, t) =>
      (t.liveAt 0, t.parentAt 0, t.owesAt 0)) = some (true, true, true) := by
    decide +kernel
  obtain ⟨⟨n, t⟩, hpending, hends⟩ := Option.map_eq_some_iff.1 hrun
  obtain ⟨hlive, hends⟩ := Prod.mk.inj hends
  exact ⟨n, t, hpending, hlive, Prod.mk.inj hends⟩

/-- The label is the child of none when it is attached. -/
theorem orderlyRun_owingActs : ({} : Scene ℚ).OrderlyRun owingActs := by
  refine ⟨nofun, nofun, nofun, nofun, ?_, trivial⟩
  rintro _ _ ⟨⟩ p
  match p with
  | 0 => decide +kernel
  | 1 => decide +kernel
  | p + 2 =>
    have hcount : (({} : Scene ℚ).after (owingActs.take 4)).components.size = 2 := by decide +kernel
    have hnone : (({} : Scene ℚ).after (owingActs.take 4)).children (p + 2) = [] := by
      unfold children
      rw [component?_eq_none (hcount.trans_le (Nat.le_add_left 2 p))]
    change 1 ∉ (({} : Scene ℚ).after (owingActs.take 4)).children (p + 2)
    rw [hnone]
    exact List.not_mem_nil

/-- What the window owes at the end it owed before it got its child. -/
theorem clean_of_runPending_owingActs : ∃ n t,
    (({} : Scene ℚ).after owingActs).runPending = some (n, t) ∧ t.dueAt 0 = false ∧
      ∃ before act later, owingActs = before ++ act :: later ∧
        (({} : Scene ℚ).after before).Outgrows 0 act ∧
        t.handedAt 0 = (({} : Scene ℚ).after before).handedAt 0 := by
  obtain ⟨n, t, hpending, hlive, hparent, howes⟩ := ends_owingActs
  obtain ⟨hdue, hiff⟩ := clean_of_runPending rfl rfl owingActs hpending hlive hparent
  exact ⟨n, t, hpending, hdue, hiff.1 howes⟩

/-- A live container may owe its constraints when the queue is empty, although only detached components
are attached. -/
theorem not_clean_of_runPending : ¬ ∀ (s : Scene ℚ) (acts : List (Act ℚ)) (n : Nat) (t : Scene ℚ)
    (k : Nat), s.components = #[] → s.queue.pending = [] → s.OrderlyRun acts →
      (s.after acts).runPending = some (n, t) → t.liveAt k = true → t.parentAt k = true →
      t.dueAt k = false ∧ t.owesAt k = false := by
  intro h
  obtain ⟨n, t, hpending, hlive, hparent, howes⟩ := ends_owingActs
  have hclean := h {} owingActs n t 0 rfl rfl orderlyRun_owingActs hpending hlive hparent
  cases hclean.2.symm.trans howes

end Scene

end ReactiveView
