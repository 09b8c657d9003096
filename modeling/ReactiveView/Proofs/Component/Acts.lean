import ReactiveView.Proofs.Component.Invalidation

/-!
This module contains runs as lists of acts, and counts the layout passes that tasks of a run start for
a component, and how often its layout becomes due. For a live component the two counts differ by what
is due at the ends of the run only.
-/

namespace ReactiveView

namespace Scene

variable {α : Type}

/--
One operation of a run.
-/
inductive Act (α : Type) where
  /-- Make a component. -/
  | create (widgetClass : WidgetClass) (identifier : Option String)
  /-- Attach a child, which a live parent may refuse. -/
  | adopt (parent child : Nat)
  /-- Make a component and all below it live. -/
  | activate (component : Nat)
  /-- Give a component other constraints. -/
  | constrain (component : Nat) (constraints : List (Constraint α))
  /-- Have the constraints of a component handed over. -/
  | needConstraints (component : Nat)
  /-- Have the children of a component placed. -/
  | needLayout (component : Nat)
  /-- Give a component a size. -/
  | resize (component : Nat) (size : Size α)
  /-- Change attributes, or anything else of the network, and turn its signals into tasks. -/
  | change (network : Network)
  /-- Run the task that has waited longest, if there is one. -/
  | task

variable {s t : Scene α} {c k : Nat} {act : Act α} {task : Task} {tasks : List Task}

/-- Whether an act is the layout task of a component whose children have to be placed. -/
def starts (s : Scene α) (k : Nat) : Act α → Bool
  | .task => s.queue.pending.head? == some (.layout k) && s.dueAt k
  | _ => false

/-- What a task works on: a layout pass begins by clearing the flag. -/
def cleared (s : Scene α) : Task → Scene α
  | .layout c => if s.dueAt c then s.update c fun comp => { comp with needsLayout := false } else s
  | _ => s

/-- What an act works on: a task is no longer in the queue then. -/
def opened (s : Scene α) : Act α → Scene α
  | .task =>
    match s.queue.pending with
    | [] => s
    | task :: rest => { s with queue := ⟨rest⟩ : Scene α }.cleared task
  | _ => s

/-- No component has a component as its child. -/
def Detached (s : Scene α) (c : Nat) : Prop := ∀ p, c ∉ s.children p

/-- Only a detached component is attached. -/
def Orderly (s : Scene α) (act : Act α) : Prop := ∀ p c, act = .adopt p c → s.Detached c

/-! ### What an act works on -/

theorem starts_eq_true_iff : s.starts k act = true ↔
    act = .task ∧ (∃ rest, s.queue.pending = .layout k :: rest) ∧ s.dueAt k = true := by
  cases act with
  | task =>
    unfold starts
    rw [Bool.and_eq_true, beq_iff_eq, List.head?_eq_some_iff]
    exact (and_iff_right rfl).symm
  | _ => exact ⟨nofun, fun h => nomatch h.1⟩

theorem starts_task_iff (h : s.queue.pending = task :: tasks) :
    s.starts k .task = true ↔ task = .layout k ∧ s.dueAt k = true := by
  rw [starts_eq_true_iff, h, and_iff_right rfl]
  refine and_congr_left fun _ => ⟨fun ⟨_, hfirst⟩ => (List.cons.inj hfirst).1, ?_⟩
  rintro rfl
  exact ⟨tasks, rfl⟩

theorem opened_task (h : s.queue.pending = task :: tasks) :
    s.opened .task = { s with queue := ⟨tasks⟩ : Scene α }.cleared task := by
  unfold opened
  rw [h]

/-- Flag and queue apart, an act finds everything as it was. -/
theorem opened_cases (s : Scene α) (act : Act α) :
    s.opened act = s ∧ (∀ k, s.starts k act = false) ∨
    (∃ task rest, s.queue.pending = task :: rest ∧ s.opened act = { s with queue := ⟨rest⟩ } ∧
      ∀ k, task = .layout k → s.dueAt k = false) ∧ (∀ k, s.starts k act = false) ∨
    ∃ c rest, s.queue.pending = .layout c :: rest ∧ (∀ k, s.starts k act = decide (k = c)) ∧
      s.opened act = { s with queue := ⟨rest⟩ : Scene α }.update c fun comp =>
        { comp with needsLayout := false } := by
  by_cases hact : act = .task
  · subst hact
    cases hqueue : s.queue.pending with
    | nil =>
      refine .inl ⟨?_, fun k => ?_⟩
      · unfold opened
        rw [hqueue]
      · unfold starts
        rw [hqueue]
        rfl
    | cons task rest =>
      rw [opened_task hqueue]
      by_cases hpass : ∃ c, task = .layout c ∧ s.dueAt c = true
      · obtain ⟨c, rfl, hdue⟩ := hpass
        refine .inr (.inr ⟨c, rest, rfl, fun k => ?_, if_pos hdue⟩)
        rw [Bool.eq_iff_iff, starts_task_iff hqueue, decide_eq_true_iff]
        refine ⟨fun hk => (Task.layout.inj hk.1).symm, ?_⟩
        rintro rfl
        exact ⟨rfl, hdue⟩
      · refine .inr (.inl ⟨⟨task, rest, rfl, ?_, fun k hk => ?_⟩, fun k => ?_⟩)
        · cases task with
          | layout c => exact if_neg fun hdue => hpass ⟨c, rfl, hdue⟩
          | _ => rfl
        · exact Bool.eq_false_of_not_eq_true fun hdue => hpass ⟨k, hk, hdue⟩
        · exact Bool.eq_false_of_not_eq_true fun hstarts =>
            hpass ⟨k, (starts_task_iff hqueue).1 hstarts⟩
  · refine .inl ⟨?_, fun k => ?_⟩
    · cases act with
      | task => exact absurd rfl hact
      | _ => rfl
    · exact Bool.eq_false_of_not_eq_true fun hstarts => hact (starts_eq_true_iff.1 hstarts).1

theorem liveAt_opened (s : Scene α) (act : Act α) (k : Nat) :
    (s.opened act).liveAt k = s.liveAt k := by
  rcases s.opened_cases act with ⟨h, -⟩ | ⟨⟨_, _, -, h, -⟩, -⟩ | ⟨c, _, -, -, h⟩
  all_goals rw [h]
  · rfl
  · exact liveAt_update _ c k fun _ => rfl

theorem parentAt_opened (s : Scene α) (act : Act α) (k : Nat) :
    (s.opened act).parentAt k = s.parentAt k := by
  rcases s.opened_cases act with ⟨h, -⟩ | ⟨⟨_, _, -, h, -⟩, -⟩ | ⟨c, _, -, -, h⟩
  all_goals rw [h]
  · rfl
  · exact parentAt_update _ c k fun _ => rfl

theorem sizeAt_opened (s : Scene α) (act : Act α) (k : Nat) :
    (s.opened act).sizeAt k = s.sizeAt k := by
  rcases s.opened_cases act with ⟨h, -⟩ | ⟨⟨_, _, -, h, -⟩, -⟩ | ⟨c, _, -, -, h⟩
  all_goals rw [h]
  · rfl
  · exact sizeAt_update _ c k fun _ => rfl

theorem dueAt_opened (s : Scene α) (act : Act α) (k : Nat) :
    (s.opened act).dueAt k = (s.dueAt k && !s.starts k act) := by
  rcases s.opened_cases act with ⟨h, hstarts⟩ | ⟨⟨_, _, -, h, -⟩, hstarts⟩ | ⟨c, rest, -, hstarts, h⟩
  · rw [h, hstarts, Bool.not_false, Bool.and_true]
  · rw [h, hstarts, Bool.not_false, Bool.and_true]
    rfl
  · rw [h, hstarts]
    unfold dueAt
    rw [component?_update]
    split
    · next hk =>
      rw [decide_eq_true hk, Bool.not_true, Bool.and_false]
      cases { s with queue := ⟨rest⟩ : Scene α }.component? k <;> rfl
    · next hk =>
      rw [decide_eq_false hk, Bool.not_false, Bool.and_true]
      rfl

theorem mem_of_mem_opened {task : Task} (h : task ∈ (s.opened act).queue.pending) :
    task ∈ s.queue.pending := by
  rcases s.opened_cases act with ⟨hopened, -⟩ | ⟨⟨_, rest, hqueue, hopened, -⟩, -⟩ |
    ⟨c, rest, hqueue, -, hopened⟩
  · rwa [hopened] at h
  all_goals
    rw [hopened] at h
    rw [hqueue]
    exact List.mem_cons_of_mem _ h

/-- The task of a component that is still due is still in the queue. -/
theorem layout_mem_opened (h : .layout k ∈ s.queue.pending) (hdue : (s.opened act).dueAt k = true) :
    .layout k ∈ (s.opened act).queue.pending := by
  rw [dueAt_opened, Bool.and_eq_true, Bool.not_eq_true'] at hdue
  rcases s.opened_cases act with ⟨hopened, -⟩ | ⟨⟨task, rest, hqueue, hopened, hclear⟩, -⟩ |
    ⟨c, rest, hqueue, hstarts, hopened⟩
  · rwa [hopened]
  · rw [hopened]
    rw [hqueue] at h
    refine (List.mem_cons.1 h).resolve_left fun hk => ?_
    cases hdue.1.symm.trans (hclear k hk.symm)
  · rw [hopened]
    rw [hqueue] at h
    refine (List.mem_cons.1 h).resolve_left fun hk => ?_
    rw [hstarts, decide_eq_false_iff_not] at hdue
    exact hdue.2 (Task.layout.inj hk)

/-! ### Runs -/

variable [Scalar α]

/-- The scene after an act, however it is answered. -/
def perform (s : Scene α) : Act α → Scene α
  | .create widgetClass identifier => (s.newComponent widgetClass identifier).2
  | .adopt p c => ((Scene.adopt p c).run.run s).2
  | .activate c => ((Scene.activate c).run.run s).2
  | .constrain c constraints => s.constrain c constraints
  | .needConstraints c => s.invalidateConstraints c
  | .needLayout c => s.invalidateLayout c
  | .resize c size => s.resize c size
  | .change network => { s with network }.heedSignals
  | .task =>
    match s.queue.pop? with
    | none => s
    | some (task, queue) => (runTask task { s with queue }).2

/-- The scene after a run. -/
def after (s : Scene α) (acts : List (Act α)) : Scene α := acts.foldl perform s

/-- Whether the layout of a component becomes due by an act: the flag is set now, and it was clear
before, or has been cleared by a pass for a component that is a child of itself. -/
def raises (s : Scene α) (k : Nat) (act : Act α) : Bool :=
  (s.perform act).dueAt k && (!s.dueAt k || s.starts k act && (s.children k).contains k)

/-- How many layout passes for a component the tasks of a run start. -/
def passes (k : Nat) : Scene α → List (Act α) → Nat
  | _, [] => 0
  | s, act :: rest => (s.starts k act).toNat + passes k (s.perform act) rest

/-- How often the layout of a component becomes due in a run. -/
def raisings (k : Nat) : Scene α → List (Act α) → Nat
  | _, [] => 0
  | s, act :: rest => (s.raises k act).toNat + raisings k (s.perform act) rest

theorem after_cons (s : Scene α) (act : Act α) (rest : List (Act α)) :
    s.after (act :: rest) = (s.perform act).after rest := rfl

theorem after_append (s : Scene α) (acts more : List (Act α)) :
    s.after (acts ++ more) = (s.after acts).after more := List.foldl_append

theorem passes_append (k : Nat) (s : Scene α) (acts more : List (Act α)) :
    passes k s (acts ++ more) = passes k s acts + passes k (s.after acts) more := by
  induction acts generalizing s with
  | nil => exact (Nat.zero_add _).symm
  | cons act rest ih => rw [List.cons_append, passes, passes, ih, after_cons, Nat.add_assoc]

/-! ### One act -/

omit [Scalar α] in
theorem leads_attempt_of_note {Q : Scene α → Prop} {message : String}
    {fields : Scene α → List (String × String)} {pass : Laying α Unit}
    (hnote : ∀ t level message fields, Q t → Q (t.note level message fields))
    (h : Leads pass.run s fun _ t => Q t) : Leads (attempt message fields pass) s fun _ t => Q t := by
  refine leads_bind.2 (h.mono fun r t ht => ?_)
  split
  · exact leads_pure.2 ht
  · exact leads_modify.2 (hnote _ _ _ _ ht)

omit [Scalar α] in
theorem Marks.note (h : s.Marks t) (level : Level) (message : String)
    (fields : List (String × String)) : s.Marks (t.note level message fields) :=
  IsTrans.trans _ _ _ h (inner_note ..).marks

/-- The pass of a component that is due clears the flag, and another one does nothing. -/
theorem marks_runTask_layout (s : Scene α) (c : Nat) : Leads (runTask (.layout c)) s fun _ t =>
    (s.cleared (.layout c)).Marks t ∧
      (s.dueAt c = true → c ∉ s.children c → t.dueAt c = false) := by
  have hdue : s.dueAt c = (s.component? c).any Component.needsLayout := rfl
  refine leads_bind.2 (leads_get.2 ?_)
  unfold cleared
  dsimp only
  split
  · next hnone =>
    rw [hdue, hnone]
    exact leads_pure.2 ⟨Std.Refl.refl s, nofun⟩
  · next comp hc =>
    rw [hdue, hc]
    dsimp only [Option.any_some]
    split
    · refine Leads.mono (leads_attempt_of_note (fun _ _ _ _ ht => ⟨ht.1.note .., ht.2⟩)
        (marks_placeChildren s c)) fun _ _ ht => ⟨ht.1, fun _ => ht.2⟩
    · next hclear => exact leads_pure.2 ⟨Std.Refl.refl s, fun hdue => absurd hdue hclear⟩

/-- A task only sets flags and sizes, apart from the flag that it clears. A component that is not a
child of itself is not due after its own pass. -/
theorem marks_runTask (task : Task) (s : Scene α) : Leads (runTask task) s fun _ t =>
    (s.cleared task).Marks t ∧
      ∀ k, task = .layout k → s.dueAt k = true → k ∉ s.children k → t.dueAt k = false := by
  cases task with
  | constraints c =>
    refine Leads.mono (Q := fun _ t => s.Marks t) ?_ fun _ _ ht => ⟨ht, nofun⟩
    refine leads_bind.2 (leads_get.2 ?_)
    dsimp only
    split
    · exact leads_pure.2 (Std.Refl.refl s)
    · split
      · exact leads_attempt_of_note (fun _ level message fields ht => ht.note level message fields)
          ((asks_handConstraints c s).mono fun _ _ => Asks.marks)
      · exact leads_pure.2 (Std.Refl.refl s)
  | layout c =>
    refine (marks_runTask_layout s c).mono fun _ t ht => ⟨ht.1, ?_⟩
    rintro k ⟨⟩
    exact ht.2
  | sizeHint p c =>
    refine Leads.mono (Q := fun _ t => s.Marks t) ?_ fun _ _ ht => ⟨ht, nofun⟩
    refine leads_bind.2 (leads_get.2 ?_)
    dsimp only
    split
    · exact leads_attempt_of_note (fun _ level message fields ht => ht.note level message fields)
        (marks_renewHint p c s)
    · exact leads_pure.2 (Std.Refl.refl s)

theorem tends_newComponent (s : Scene α) (widgetClass : WidgetClass) (identifier : Option String)
    (k : Nat) : s.Tends (s.newComponent widgetClass identifier).2 k := by
  obtain ⟨object, watchers, hnew⟩ := s.exists_component?_newComponent widgetClass identifier
  have hqueue : (s.newComponent widgetClass identifier).2.queue = s.queue := rfl
  generalize (s.newComponent widgetClass identifier).2 = t at hnew hqueue
  have hkept : ∀ task ∈ s.queue.pending, task ∈ t.queue.pending := fun task htask => hqueue ▸ htask
  by_cases hk : k = s.components.size
  · have hold : s.component? k = none := component?_eq_none hk.ge
    have hlive : t.liveAt k = false := by
      unfold liveAt
      rw [hnew, if_pos hk]
      rfl
    have hparent : t.parentAt k = false := by
      unfold parentAt
      rw [hnew, if_pos hk]
      rfl
    have hdue : t.dueAt k = false := by
      unfold dueAt
      rw [hnew, if_pos hk]
      rfl
    have hnolive : s.liveAt k = false := by
      unfold liveAt
      rw [hold]
      rfl
    refine ⟨fun h => ?_, hkept, fun h => .inl (hqueue ▸ h), fun h => ?_, fun h => ?_, fun h => ?_,
      .inr (.inr hparent), fun _ _ => hdue⟩
    · cases hnolive.symm.trans h
    · cases hlive.symm.trans h
    · cases hnolive.symm.trans h
    · cases hnolive.symm.trans h
  · have hsame : t.component? k = s.component? k := by rw [hnew, if_neg hk]
    refine (tends_refl s k).same (.of_face ?_) hkept fun h => hqueue ▸ h
    unfold face?
    rw [hsame]

omit [Scalar α] in
theorem marks_constrain (s : Scene α) (c : Nat) (constraints : List (Constraint α)) :
    s.Marks (s.constrain c constraints) := by
  have hgiven : s.Marks (s.update c fun comp => { comp with userConstraints := constraints }) :=
    Asks.marks (asks_of_same (fun k => sameAt_update s c k (fun _ => rfl) (fun _ => rfl)
      (fun _ => rfl) fun _ => rfl) rfl)
  unfold constrain
  dsimp only
  split
  · split
    · have hinvalid := (asks_invalidateConstraints (s.update c fun comp =>
        { comp with userConstraints := constraints }) c).marks
      exact IsTrans.trans _ _ _ hgiven (IsTrans.trans _ _ _ hinvalid (marks_invalidateLayout _ c))
    · exact hgiven
  · exact hgiven

theorem perform_task (h : s.queue.pending = task :: tasks) :
    s.perform .task = (runTask task { s with queue := ⟨tasks⟩ }).2 := by
  unfold perform
  rw [(Queue.pop?_eq_some_iff s.queue ⟨tasks⟩ task).2 h]

theorem perform_task_of_nil (h : s.queue.pending = []) :
    s.perform .task = s ∧ s.opened .task = s := by
  constructor
  · unfold perform
    rw [(Queue.pop?_eq_none_iff s.queue).2 h]
  · unfold opened
    rw [h]

theorem marks_task (s : Scene α) : (s.opened .task).Marks (s.perform .task) := by
  cases hqueue : s.queue.pending with
  | nil =>
    obtain ⟨hperform, hopened⟩ := perform_task_of_nil hqueue
    rw [hperform, hopened]
    exact Std.Refl.refl s
  | cons task tasks =>
    rw [perform_task hqueue, opened_task hqueue]
    exact (marks_runTask task { s with queue := ⟨tasks⟩ }).1

theorem tends_perform (s : Scene α) (act : Act α) (k : Nat) :
    (s.opened act).Tends (s.perform act) k := by
  cases act with
  | create widgetClass identifier => exact tends_newComponent s widgetClass identifier k
  | adopt p c => exact (leads_adopt_adopts s p c).tends k
  | activate c => exact (wakes_activate c s).tends k
  | constrain c constraints => exact (marks_constrain s c constraints).tends k
  | needConstraints c => exact (asks_invalidateConstraints s c).marks.tends k
  | needLayout c => exact (marks_invalidateLayout s c).tends k
  | resize c size => exact (marks_resize s c size).tends k
  | change network => exact (asks_heedSignals s network).marks.tends k
  | task => exact (marks_task s).tends k

/-- After its own pass a component is due again only if the pass has resized it. -/
theorem dueAt_of_starts (h : s.starts k act = true) (hown : k ∉ s.children k) :
    (s.perform act).dueAt k = false := by
  obtain ⟨rfl, ⟨tasks, hqueue⟩, hdue⟩ := starts_eq_true_iff.1 h
  rw [perform_task hqueue]
  exact (marks_runTask (.layout k) { s with queue := ⟨tasks⟩ }).2 k rfl hdue hown

theorem liveAt_perform (act : Act α) (h : s.liveAt k = true) : (s.perform act).liveAt k = true :=
  (s.tends_perform act k).live ((liveAt_opened ..).trans h)

/-- A pass is started for what has become due. -/
theorem starts_add_dueAt_le (s : Scene α) (k : Nat) (act : Act α) :
    (s.starts k act).toNat + ((s.perform act).dueAt k).toNat
      ≤ (s.raises k act).toNat + (s.dueAt k).toNat := by
  unfold raises
  cases hstarts : s.starts k act with
  | false => cases (s.perform act).dueAt k <;> cases s.dueAt k <;> simp
  | true =>
    rw [(starts_eq_true_iff.1 hstarts).2.2]
    by_cases hown : k ∈ s.children k
    · cases (s.perform act).dueAt k <;> simp [hown]
    · rw [dueAt_of_starts hstarts hown]
      simp

/-- A live component is not due any more only if a pass was started. -/
theorem starts_add_dueAt_eq (hlive : s.liveAt k = true) (act : Act α) :
    (s.starts k act).toNat + ((s.perform act).dueAt k).toNat
      = (s.raises k act).toNat + (s.dueAt k).toNat := by
  refine (s.starts_add_dueAt_le k act).antisymm ?_
  have hstays := (s.tends_perform act k).stays ((liveAt_opened ..).trans hlive)
  rw [dueAt_opened] at hstays
  unfold raises
  cases hstarts : s.starts k act with
  | false =>
    rw [hstarts] at hstays
    cases hdue : s.dueAt k with
    | false => cases (s.perform act).dueAt k <;> simp
    | true =>
      rw [hstays (by rw [hdue]; rfl)]
      simp
  | true =>
    rw [(starts_eq_true_iff.1 hstarts).2.2]
    cases (s.perform act).dueAt k <;> cases (s.children k).contains k <;> simp

theorem passes_add_dueAt_eq (hlive : s.liveAt k = true) (acts : List (Act α)) :
    passes k s acts + ((s.after acts).dueAt k).toNat = raisings k s acts + (s.dueAt k).toNat := by
  induction acts generalizing s with
  | nil => rfl
  | cons act rest ih =>
    have hfirst := starts_add_dueAt_eq hlive act
    have hrest := ih (liveAt_perform act hlive)
    rw [after_cons, passes, raisings]
    omega

/-! ### The queue -/

/-- Layouts that are due are queued, and only those of live components. -/
structure Heeds (s : Scene α) : Prop where
  due : ∀ k, s.liveAt k = true → s.parentAt k = true → s.dueAt k = true →
    .layout k ∈ s.queue.pending
  live : ∀ k, .layout k ∈ s.queue.pending → s.liveAt k = true

omit [Scalar α] in
/-- With the queue empty nothing is due. -/
theorem Heeds.dueAt_of_nil (h : s.Heeds) (hlive : s.liveAt k = true) (hparent : s.parentAt k = true)
    (hqueue : s.queue.pending = []) : s.dueAt k = false := by
  refine Bool.eq_false_of_not_eq_true fun hdue => ?_
  have hqueued := h.due k hlive hparent hdue
  rw [hqueue] at hqueued
  cases hqueued

theorem Heeds.perform (h : s.Heeds) (act : Act α) : (s.perform act).Heeds := by
  refine ⟨fun k hlive hparent hdue => ?_, fun k htask => ?_⟩
  · refine ((s.tends_perform act k).due hlive hparent hdue).elim id ?_
    rintro ⟨hlive, hparent, hdue⟩
    refine (s.tends_perform act k).kept _ (layout_mem_opened (h.due k ?_ ?_ ?_) hdue)
    · exact (liveAt_opened ..).symm.trans hlive
    · exact (parentAt_opened ..).symm.trans hparent
    · rw [dueAt_opened, Bool.and_eq_true] at hdue
      exact hdue.1
  · refine ((s.tends_perform act k).queued htask).elim (fun hold => ?_) id
    exact liveAt_perform act (h.live k (mem_of_mem_opened hold))

theorem Heeds.after (h : s.Heeds) (acts : List (Act α)) : (s.after acts).Heeds := by
  induction acts generalizing s with
  | nil => exact h
  | cons act rest ih => exact ih (h.perform act)

omit [Scalar α] in
theorem heeds_start (hcomponents : s.components = #[]) (hqueue : s.queue.pending = []) :
    s.Heeds := by
  refine ⟨fun k hlive => ?_, fun k htask => ?_⟩
  · unfold liveAt at hlive
    rw [component?_of_empty hcomponents] at hlive
    cases hlive
  · rw [hqueue] at htask
    cases htask

end Scene

end ReactiveView
