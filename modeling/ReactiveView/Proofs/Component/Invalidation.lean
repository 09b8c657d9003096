import ReactiveView.Proofs.Component.Faces
import ReactiveView.Proofs.Component.Placing

/-!
This module contains what the operations of a scene do about layouts that are due. Whenever the layout
of a live component with children becomes due, its task is queued; a flag that is set stays set until
the component's own task looks at it; and where a size changes, the layout is due from then on.
-/

namespace ReactiveView

namespace Scene

variable {α : Type} {s t u : Scene α} {c k p : Nat} {f : Component α → Component α} {task : Task}

/-! ### Steps that leave layouts alone -/

/-- What invalidations go by is the same for a component. -/
structure SameAt (s t : Scene α) (k : Nat) : Prop where
  live : t.liveAt k = s.liveAt k
  parent : t.parentAt k = s.parentAt k
  due : t.dueAt k = s.dueAt k
  size : t.sizeAt k = s.sizeAt k

theorem SameAt.of_face (h : t.face? k = s.face? k) : s.SameAt t k :=
  ⟨by rw [liveAt_face, liveAt_face, h], by rw [parentAt_face, parentAt_face, h],
    by rw [dueAt_face, dueAt_face, h], by rw [sizeAt_face, sizeAt_face, h]⟩

theorem SameAt.trans (h : s.SameAt t k) (h' : t.SameAt u k) : s.SameAt u k :=
  ⟨h'.live.trans h.live, h'.parent.trans h.parent, h'.due.trans h.due, h'.size.trans h.size⟩

theorem liveAt_update (s : Scene α) (c k : Nat) (h : ∀ a, (f a).live = a.live) :
    (s.update c f).liveAt k = s.liveAt k := by
  unfold liveAt
  rw [component?_update]
  split
  · cases s.component? k with
    | none => rfl
    | some a => exact h a
  · rfl

theorem parentAt_update (s : Scene α) (c k : Nat) (h : ∀ a, (f a).children = a.children) :
    (s.update c f).parentAt k = s.parentAt k := by
  unfold parentAt
  rw [component?_update]
  split
  · cases s.component? k with
    | none => rfl
    | some a => exact congrArg (fun kids => !kids.isEmpty) (h a)
  · rfl

theorem dueAt_update (s : Scene α) (c k : Nat) (h : ∀ a, (f a).needsLayout = a.needsLayout) :
    (s.update c f).dueAt k = s.dueAt k := by
  unfold dueAt
  rw [component?_update]
  split
  · cases s.component? k with
    | none => rfl
    | some a => exact h a
  · rfl

theorem sizeAt_update (s : Scene α) (c k : Nat) (h : ∀ a, (f a).size = a.size) :
    (s.update c f).sizeAt k = s.sizeAt k := by
  unfold sizeAt
  rw [component?_update]
  split
  · cases s.component? k with
    | none => rfl
    | some a => exact congrArg some (h a)
  · rfl

theorem sizeAt_update_ne (s : Scene α) (f : Component α → Component α) (h : k ≠ c) :
    (s.update c f).sizeAt k = s.sizeAt k := by
  unfold sizeAt
  rw [component?_update, if_neg h]

theorem sameAt_update (s : Scene α) (c k : Nat) (hlive : ∀ a, (f a).live = a.live)
    (hchildren : ∀ a, (f a).children = a.children) (hdue : ∀ a, (f a).needsLayout = a.needsLayout)
    (hsize : ∀ a, (f a).size = a.size) : s.SameAt (s.update c f) k :=
  ⟨liveAt_update s c k hlive, parentAt_update s c k hchildren, dueAt_update s c k hdue,
    sizeAt_update s c k hsize⟩

/-- A step that leaves all layouts alone, apart from tasks for constraints and size hints. -/
structure Asks (s t : Scene α) : Prop where
  same : ∀ k, s.SameAt t k
  queue : ∃ more, t.queue.pending = s.queue.pending ++ more ∧ ∀ k, .layout k ∉ more

theorem asks_of_same (h : ∀ k, s.SameAt t k) (hqueue : t.queue = s.queue) : s.Asks t :=
  ⟨h, [], by rw [hqueue, List.append_nil], fun _ => List.not_mem_nil⟩

instance : Std.Refl (@Asks α) := ⟨fun _ => asks_of_same (fun _ => .of_face rfl) rfl⟩

instance : IsTrans (Scene α) Asks where
  trans s t u h h' := by
    obtain ⟨more, hmore, hnone⟩ := h.queue
    obtain ⟨more', hmore', hnone'⟩ := h'.queue
    refine ⟨fun k => (h.same k).trans (h'.same k), more ++ more', ?_, fun k hk => ?_⟩
    · rw [hmore', hmore, List.append_assoc]
    · exact (List.mem_append.1 hk).elim (hnone k) (hnone' k)

theorem Inner.asks (h : s.Inner t) : s.Asks t :=
  asks_of_same (fun k => .of_face (congrFun h.faces k)) h.queue

theorem pending_schedule (s : Scene α) (c : Nat) (task : Task) :
    (s.schedule c task).queue.pending
      = s.queue.pending ++ if s.liveAt c && s.parentAt c then [task] else [] := by
  unfold schedule liveAt parentAt
  cases s.component? c with
  | none => exact (List.append_nil _).symm
  | some comp =>
    dsimp only [Option.any_some]
    split
    · rfl
    · exact (List.append_nil _).symm

theorem face?_schedule (s : Scene α) (c : Nat) (task : Task) :
    (s.schedule c task).face? = s.face? := by
  unfold schedule
  split
  · split <;> rfl
  · rfl

theorem asks_invalidateConstraints (s : Scene α) (c : Nat) : s.Asks (s.invalidateConstraints c) := by
  have hdue : s.Asks (s.update c fun comp => { comp with needsConstraints := true }) :=
    asks_of_same (fun k => sameAt_update s c k (fun _ => rfl) (fun _ => rfl) (fun _ => rfl)
      fun _ => rfl) rfl
  refine IsTrans.trans _ _ _ hdue ⟨fun k => .of_face ?_, _, pending_schedule .., fun k => ?_⟩
  · exact congrFun (face?_schedule ..) k
  · split
    · exact fun hk => nomatch List.mem_singleton.1 hk
    · exact List.not_mem_nil

theorem asks_announceHint (s : Scene α) (c : Nat) : s.Asks (s.announceHint c) := by
  unfold announceHint
  split
  · exact Std.Refl.refl s
  · split
    · split
      · exact ⟨fun _ => .of_face rfl, _, rfl, fun k hk => nomatch List.mem_singleton.1 hk⟩
      · exact Std.Refl.refl s
    · exact Std.Refl.refl s

theorem asks_heedSignals (s : Scene α) (network : Network) :
    s.Asks { s with network }.heedSignals := by
  have hstart : s.Asks { s with network := { network with signals := [] } } :=
    asks_of_same (fun _ => .of_face rfl) rfl
  unfold heedSignals
  exact List.foldlRecOn _ _ hstart fun t ht c _ => IsTrans.trans _ _ _ ht (asks_announceHint t c)

theorem Asks.kept (h : s.Asks t) (htask : task ∈ s.queue.pending) : task ∈ t.queue.pending := by
  obtain ⟨more, hmore, -⟩ := h.queue
  rw [hmore]
  exact List.mem_append_left _ htask

theorem Asks.layout_mem_iff (h : s.Asks t) :
    .layout k ∈ t.queue.pending ↔ .layout k ∈ s.queue.pending := by
  obtain ⟨more, hmore, hnone⟩ := h.queue
  rw [hmore, List.mem_append, or_iff_left (hnone k)]

/-! ### Becoming due -/

theorem liveAt_invalidateLayout (s : Scene α) (c k : Nat) :
    (s.invalidateLayout c).liveAt k = s.liveAt k := by
  rw [liveAt_face, invalidateLayout, face?_schedule, ← liveAt_face]
  exact liveAt_update s c k fun _ => rfl

theorem parentAt_invalidateLayout (s : Scene α) (c k : Nat) :
    (s.invalidateLayout c).parentAt k = s.parentAt k := by
  rw [parentAt_face, invalidateLayout, face?_schedule, ← parentAt_face]
  exact parentAt_update s c k fun _ => rfl

theorem sizeAt_invalidateLayout (s : Scene α) (c k : Nat) :
    (s.invalidateLayout c).sizeAt k = s.sizeAt k := by
  rw [sizeAt_face, invalidateLayout, face?_schedule, ← sizeAt_face]
  exact sizeAt_update s c k fun _ => rfl

theorem dueAt_invalidateLayout (s : Scene α) (c k : Nat) :
    (s.invalidateLayout c).dueAt k = if k = c then (s.component? k).isSome else s.dueAt k := by
  rw [dueAt_face, invalidateLayout, face?_schedule, ← dueAt_face]
  unfold dueAt
  rw [component?_update]
  split
  · cases s.component? k <;> rfl
  · rfl

theorem dueAt_invalidateLayout_self (h : s.liveAt c = true) :
    (s.invalidateLayout c).dueAt c = true := by
  obtain ⟨comp, hcomp, -⟩ := liveAt_eq_true_iff.1 h
  rw [dueAt_invalidateLayout, if_pos rfl, hcomp]
  rfl

theorem pending_invalidateLayout (s : Scene α) (c : Nat) :
    (s.invalidateLayout c).queue.pending
      = s.queue.pending ++ if s.liveAt c && s.parentAt c then [.layout c] else [] := by
  unfold invalidateLayout
  rw [pending_schedule]
  rw [liveAt_update, parentAt_update]
  · rfl
  · exact fun _ => rfl
  · exact fun _ => rfl

/-- Whatever is invalidated, no layout but that of the component itself is queued, and that one just if
it is live and has children to place. -/
theorem layout_mem_invalidateLayout_iff : .layout k ∈ (s.invalidateLayout c).queue.pending ↔
    .layout k ∈ s.queue.pending ∨ k = c ∧ s.liveAt c = true ∧ s.parentAt c = true := by
  rw [pending_invalidateLayout, List.mem_append, ← Bool.and_eq_true]
  refine or_congr_right ?_
  split
  · next hdue =>
    rw [List.mem_singleton]
    exact ⟨fun hk => ⟨Task.layout.inj hk, hdue⟩, fun hk => congrArg _ hk.1⟩
  · next hdue => exact ⟨nofun, fun hk => absurd hk.2 hdue⟩

/-- A step that only sets sizes and flags, the flag of every component whose size it changes and that
has children to place. -/
structure Marks (s t : Scene α) : Prop where
  live : ∀ k, t.liveAt k = s.liveAt k
  parent : ∀ k, t.parentAt k = s.parentAt k
  kept : ∀ task ∈ s.queue.pending, task ∈ t.queue.pending
  queued : ∀ k, .layout k ∈ t.queue.pending → .layout k ∈ s.queue.pending ∨ t.liveAt k = true
  due : ∀ k, t.dueAt k = true → s.dueAt k = true ∨
    (t.liveAt k = true → t.parentAt k = true → .layout k ∈ t.queue.pending)
  stays : ∀ k, s.dueAt k = true → t.dueAt k = true
  sized : ∀ k, t.sizeAt k = s.sizeAt k ∨ t.dueAt k = true ∨ t.parentAt k = false

theorem Asks.marks (h : s.Asks t) : s.Marks t where
  live k := (h.same k).live
  parent k := (h.same k).parent
  kept _ := h.kept
  queued _ htask := .inl (h.layout_mem_iff.1 htask)
  due k hdue := .inl ((h.same k).due ▸ hdue)
  stays k hdue := (h.same k).due.trans hdue
  sized k := .inl (h.same k).size

instance : Std.Refl (@Marks α) := ⟨fun s => Asks.marks (Std.Refl.refl s)⟩

instance : IsTrans (Scene α) Marks where
  trans s t u h h' := by
    refine ⟨fun k => (h'.live k).trans (h.live k), fun k => (h'.parent k).trans (h.parent k),
      fun task htask => h'.kept task (h.kept task htask), fun k htask => ?_, fun k hdue => ?_,
      fun k hdue => h'.stays k (h.stays k hdue), fun k => ?_⟩
    · refine (h'.queued k htask).elim (fun hold => ?_) .inr
      exact (h.queued k hold).imp_right (h'.live k).trans
    · refine (h'.due k hdue).elim (fun hold => ?_) .inr
      refine (h.due k hold).imp_right fun hqueued hlive hparent => h'.kept _ (hqueued ?_ ?_)
      · exact (h'.live k).symm.trans hlive
      · exact (h'.parent k).symm.trans hparent
    · refine (h'.sized k).elim (fun hsame => ?_) .inr
      rw [hsame, h'.parent k]
      exact (h.sized k).imp_right (.imp_left (h'.stays k))

/-- A component gets a size, and its layout is due. -/
theorem marks_invalidateLayout_of_sized (c : Nat) (h : ∀ k, s.liveAt k = t.liveAt k)
    (hparent : ∀ k, s.parentAt k = t.parentAt k) (hdue : ∀ k, s.dueAt k = t.dueAt k)
    (hsize : ∀ k, k ≠ c → s.sizeAt k = t.sizeAt k) (hqueue : s.queue = t.queue) :
    s.Marks (t.invalidateLayout c) := by
  refine ⟨fun k => ?_, fun k => ?_, fun task htask => ?_, fun k htask => ?_, fun k hmarked => ?_,
    fun k hmarked => ?_, fun k => ?_⟩
  · rw [liveAt_invalidateLayout, h]
  · rw [parentAt_invalidateLayout, hparent]
  · rw [pending_invalidateLayout, ← hqueue]
    exact List.mem_append_left _ htask
  · rw [liveAt_invalidateLayout, hqueue]
    refine (layout_mem_invalidateLayout_iff.1 htask).imp_right ?_
    rintro ⟨rfl, hlive, -⟩
    exact hlive
  · rw [dueAt_invalidateLayout] at hmarked
    split at hmarked
    · next hk =>
      rw [liveAt_invalidateLayout, parentAt_invalidateLayout, layout_mem_invalidateLayout_iff]
      exact .inr fun hlive hkids => .inr ⟨hk, hk ▸ hlive, hk ▸ hkids⟩
    · exact .inl ((hdue k).trans hmarked)
  · rw [dueAt_invalidateLayout]
    split
    · rw [hdue, dueAt] at hmarked
      cases hk : t.component? k with
      | none =>
        rw [hk] at hmarked
        exact hmarked
      | some comp => rfl
    · exact (hdue k).symm.trans hmarked
  · rw [sizeAt_invalidateLayout, dueAt_invalidateLayout, parentAt_invalidateLayout]
    split
    · next hk =>
      cases hc : t.component? k with
      | none =>
        refine .inr (.inr ?_)
        unfold parentAt
        rw [hc]
        rfl
      | some comp => exact .inr (.inl rfl)
    · next hk => exact .inl (hsize k hk).symm

theorem marks_invalidateLayout (s : Scene α) (c : Nat) : s.Marks (s.invalidateLayout c) :=
  marks_invalidateLayout_of_sized c (fun _ => rfl) (fun _ => rfl) (fun _ => rfl) (fun _ _ => rfl) rfl

theorem marks_resize [Scalar α] (s : Scene α) (c : Nat) (size : Size α) :
    s.Marks (s.resize c size) := by
  refine marks_invalidateLayout_of_sized c (fun k => Eq.symm ?_) (fun k => Eq.symm ?_) (fun k => Eq.symm ?_)
    (fun k hk => (sizeAt_update_ne _ _ hk).symm) rfl
  · exact liveAt_update s c k fun _ => rfl
  · exact parentAt_update s c k fun _ => rfl
  · exact dueAt_update s c k fun _ => rfl

/-- The size of a component without children does not matter yet. -/
theorem marks_update (s : Scene α) (c : Nat) (hlive : ∀ a, (f a).live = a.live)
    (hchildren : ∀ a, (f a).children = a.children) (hdue : ∀ a, (f a).needsLayout = a.needsLayout)
    (hsize : ∀ a, s.component? c = some a → (f a).size = a.size ∨ a.hasChildren = false) :
    s.Marks (s.update c f) where
  live k := liveAt_update s c k hlive
  parent k := parentAt_update s c k hchildren
  kept _ := id
  queued _ := .inl
  due k hmarked := .inl ((dueAt_update s c k hdue).symm.trans hmarked)
  stays k := (dueAt_update s c k hdue).trans
  sized k := by
    rw [parentAt_update s c k hchildren]
    by_cases hk : k = c
    · subst hk
      unfold sizeAt parentAt
      rw [component?_update, if_pos rfl]
      cases hcomp : s.component? k with
      | none => exact .inl rfl
      | some a => exact (hsize a hcomp).imp (congrArg some) .inr
    · exact .inl (sizeAt_update_ne s f hk)

theorem marks_place [Scalar α] (s : Scene α) (c : Nat) (geometry : Geometry α) :
    s.Marks (s.place c geometry) := by
  unfold place
  split
  · exact Std.Refl.refl s
  · next comp hc =>
    dsimp only
    split
    all_goals
      split
      · refine marks_invalidateLayout_of_sized c (fun k => Eq.symm ?_) (fun k => Eq.symm ?_)
          (fun k => Eq.symm ?_) (fun k hk => (sizeAt_update_ne _ _ hk).symm) rfl
        · exact liveAt_update s c k fun _ => rfl
        · exact parentAt_update s c k fun _ => rfl
        · exact dueAt_update s c k fun _ => rfl
      · next hstays =>
        refine marks_update s c (fun _ => rfl) (fun _ => rfl) (fun _ => rfl) fun a ha => ?_
        cases hc.symm.trans ha
        dsimp only
        split
        · next hresized =>
          rw [hresized, Bool.true_and] at hstays
          exact .inr (Bool.eq_false_of_not_eq_true hstays)
        · exact .inl rfl

/-! ### What is due -/

/--
What a step does about the layout of a component. Once the flag of a live component is set it stays
set; it is set when the size changes or the first child comes, unless there is nothing to place; and
with the flag comes the task.
-/
structure Tends (s t : Scene α) (k : Nat) : Prop where
  live : s.liveAt k = true → t.liveAt k = true
  kept : ∀ task ∈ s.queue.pending, task ∈ t.queue.pending
  queued : .layout k ∈ t.queue.pending → .layout k ∈ s.queue.pending ∨ t.liveAt k = true
  due : t.liveAt k = true → t.parentAt k = true → t.dueAt k = true →
    .layout k ∈ t.queue.pending ∨ s.liveAt k = true ∧ s.parentAt k = true ∧ s.dueAt k = true
  stays : s.liveAt k = true → s.dueAt k = true → t.dueAt k = true
  grown : s.liveAt k = true → s.parentAt k = false → t.parentAt k = true → t.dueAt k = true
  sized : t.sizeAt k = s.sizeAt k ∨ t.dueAt k = true ∨ t.parentAt k = false
  woken : s.liveAt k = false → t.liveAt k = true → t.dueAt k = false

theorem Tends.of_same (h' : t.Tends u k) (h : s.SameAt t k)
    (hkept : ∀ task ∈ s.queue.pending, task ∈ t.queue.pending)
    (hqueued : .layout k ∈ t.queue.pending → .layout k ∈ s.queue.pending) : s.Tends u k := by
  obtain ⟨hlive, hparent, hdue, hsize⟩ := h
  refine ⟨hlive ▸ h'.live, fun task htask => h'.kept task (hkept task htask), fun htask => ?_,
    fun hlive' hparent' hdue' => ?_, hlive ▸ hdue ▸ h'.stays, hlive ▸ hparent ▸ h'.grown,
    hsize ▸ h'.sized, hlive ▸ h'.woken⟩
  · exact (h'.queued htask).imp_left hqueued
  · rw [← hlive, ← hparent, ← hdue]
    exact h'.due hlive' hparent' hdue'

theorem Tends.same (h : s.Tends t k) (h' : t.SameAt u k)
    (hkept : ∀ task ∈ t.queue.pending, task ∈ u.queue.pending)
    (hqueued : .layout k ∈ u.queue.pending → .layout k ∈ t.queue.pending) : s.Tends u k := by
  obtain ⟨hlive, hparent, hdue, hsize⟩ := h'
  refine ⟨?_, fun task htask => hkept task (h.kept task htask), fun htask => ?_, ?_, ?_, ?_, ?_, ?_⟩
  · rw [hlive]
    exact h.live
  · rw [hlive]
    exact h.queued (hqueued htask)
  · rw [hlive, hparent, hdue]
    exact fun hlive hparent hdue => (h.due hlive hparent hdue).imp_left (hkept _)
  · rw [hdue]
    exact h.stays
  · rw [hparent, hdue]
    exact h.grown
  · rw [hsize, hdue, hparent]
    exact h.sized
  · rw [hlive, hdue]
    exact h.woken

theorem Tends.asks (h : s.Tends t k) (h' : t.Asks u) : s.Tends u k :=
  h.same (h'.same k) (fun _ => h'.kept) h'.layout_mem_iff.1

theorem Marks.tends (h : s.Marks t) (k : Nat) : s.Tends t k where
  live := (h.live k).trans
  kept := h.kept
  queued := h.queued k
  due hlive hparent hdue := by
    rcases h.due k hdue with hold | hqueued
    · exact .inr ⟨h.live k ▸ hlive, h.parent k ▸ hparent, hold⟩
    · exact .inl (hqueued hlive hparent)
  stays _ := h.stays k
  grown _ hleaf hparent := nomatch ((h.parent k).trans hleaf).symm.trans hparent
  sized := h.sized k
  woken hdormant hlive := nomatch ((h.live k).trans hdormant).symm.trans hlive

theorem tends_refl (s : Scene α) (k : Nat) : s.Tends s k :=
  Marks.tends (Std.Refl.refl s) k

/-! ### Becoming live, and attaching -/

/-- Nothing is due for what becomes live. -/
theorem Wakes.cases (h : s.Wakes t) (k : Nat) :
    t.parentAt k = s.parentAt k ∧ t.sizeAt k = s.sizeAt k ∧
      (t.liveAt k = s.liveAt k ∧ t.dueAt k = s.dueAt k ∨
        s.liveAt k = false ∧ t.liveAt k = true ∧ t.dueAt k = false) := by
  rcases h.faces k with hsame | ⟨a, ha, hdormant, hk⟩
  · have hsame := SameAt.of_face hsame
    exact ⟨hsame.parent, hsame.size, .inl ⟨hsame.live, hsame.due⟩⟩
  · refine ⟨?_, ?_, .inr ⟨?_, ?_, ?_⟩⟩
    · rw [parentAt_face, parentAt_face, ha, hk]
      rfl
    · rw [sizeAt_face, sizeAt_face, ha, hk]
      rfl
    · rw [liveAt_face, ha]
      exact hdormant
    · rw [liveAt_face, hk]
      rfl
    · rw [dueAt_face, hk]
      rfl

theorem Wakes.tends (h : s.Wakes t) (k : Nat) : s.Tends t k := by
  obtain ⟨hparent, hsize, hwoken⟩ := h.cases k
  refine ⟨fun hlive => ?_, fun _ htask => h.queue ▸ htask, fun htask => .inl (h.queue ▸ htask),
    fun hlive hkids hdue => ?_, fun hlive hdue => ?_, fun _ hleaf hkids => ?_, .inl hsize,
    fun hdormant hlive => ?_⟩
  · rcases hwoken with ⟨hsame, -⟩ | ⟨-, hwoken, -⟩
    · exact hsame.trans hlive
    · exact hwoken
  · rcases hwoken with ⟨hsame, hsame'⟩ | ⟨-, -, hclear⟩
    · exact .inr ⟨hsame ▸ hlive, hparent ▸ hkids, hsame' ▸ hdue⟩
    · cases hclear.symm.trans hdue
  · rcases hwoken with ⟨-, hsame⟩ | ⟨hdormant, -⟩
    · exact hsame.trans hdue
    · cases hdormant.symm.trans hlive
  · cases (hparent.trans hleaf).symm.trans hkids
  · rcases hwoken with ⟨hsame, -⟩ | ⟨-, -, hclear⟩
    · cases (hsame.trans hdormant).symm.trans hlive
    · exact hclear

theorem liveAt_attach (s : Scene α) (p c k : Nat) : (s.attach p c).liveAt k = s.liveAt k := by
  unfold liveAt
  rw [component?_attach]
  cases s.component? k <;> rfl

theorem dueAt_attach (s : Scene α) (p c k : Nat) : (s.attach p c).dueAt k = s.dueAt k := by
  unfold dueAt
  rw [component?_attach]
  cases s.component? k <;> rfl

theorem sizeAt_attach (s : Scene α) (p c k : Nat) : (s.attach p c).sizeAt k = s.sizeAt k := by
  unfold sizeAt
  rw [component?_attach]
  cases s.component? k <;> rfl

theorem liveAt_detach (s : Scene α) (p c k : Nat) : (s.detach p c).liveAt k = s.liveAt k := by
  unfold liveAt
  rw [component?_detach]
  cases s.component? k <;> rfl

theorem dueAt_detach (s : Scene α) (p c k : Nat) : (s.detach p c).dueAt k = s.dueAt k := by
  unfold dueAt
  rw [component?_detach]
  cases s.component? k <;> rfl

theorem sizeAt_detach (s : Scene α) (p c k : Nat) : (s.detach p c).sizeAt k = s.sizeAt k := by
  unfold sizeAt
  rw [component?_detach]
  cases s.component? k <;> rfl

theorem parentAt_eq (s : Scene α) (k : Nat) : s.parentAt k = !(s.children k).isEmpty := by
  unfold parentAt children
  cases s.component? k <;> rfl

theorem children_face (s : Scene α) (k : Nat) :
    s.children k = ((s.face? k).map Component.children).getD [] := by
  unfold children face?
  cases s.component? k <;> rfl

theorem Wakes.children (h : s.Wakes t) (k : Nat) : t.children k = s.children k := by
  rw [children_face, children_face]
  rcases h.faces k with hsame | ⟨a, ha, -, hk⟩
  · rw [hsame]
  · rw [ha, hk]
    rfl

/-- Attaching a child and detaching it again makes no component a parent. -/
theorem parentAt_of_detach (hp : s.liveAt p = true) (hu : (s.attach p c).Wakes u)
    (h : (u.detach p c).parentAt k = true) : s.parentAt k = true := by
  obtain ⟨parent, hp, -⟩ := liveAt_eq_true_iff.1 hp
  rw [parentAt_eq, children_detach, hu.children, children_attach hp] at h
  rw [parentAt_eq]
  by_cases hk : k = p
  · rw [if_pos hk, if_pos hk, List.filter_append] at h
    cases hkids : s.children k with
    | nil =>
      rw [hkids] at h
      simp at h
    | cons j rest => rfl
  · rwa [if_neg hk, if_neg hk] at h

theorem parentAt_attach (s : Scene α) (c : Nat) (h : k ≠ p) :
    (s.attach p c).parentAt k = s.parentAt k := by
  unfold parentAt
  rw [component?_attach]
  cases s.component? k with
  | none => rfl
  | some a => exact congrArg (fun kids : List Nat => !kids.isEmpty) (if_neg h)

theorem sameAt_attach (s : Scene α) (c : Nat) (h : k ≠ p) : s.SameAt (s.attach p c) k :=
  ⟨liveAt_attach .., parentAt_attach s c h, dueAt_attach .., sizeAt_attach ..⟩

theorem sameAt_detach (s : Scene α) (c : Nat) (h : k ≠ p) : s.SameAt (s.detach p c) k := by
  refine ⟨liveAt_detach .., ?_, dueAt_detach .., sizeAt_detach ..⟩
  rw [parentAt_eq, parentAt_eq, children_detach, if_neg h]

/-- Attaching leaves alone the layouts of all but the parent. -/
theorem Adopts.tends_of_ne {r : Except LayoutError Unit} (h : s.Adopts p c r t) (hk : k ≠ p) :
    s.Tends t k := by
  have hattached {u : Scene α} (hu : (s.attach p c).Wakes u) : s.Tends u k :=
    (hu.tends k).of_same (sameAt_attach s c hk) (fun _ => id) id
  cases h with
  | attached => exact (tends_refl s k).same (sameAt_attach s c hk) (fun _ => id) id
  | @refused u _ hu => exact (hattached hu).same (sameAt_detach u c hk) (fun _ => id) id
  | @taken u _ hu =>
    refine Tends.asks ?_ (asks_announceHint _ p)
    have hdue : (u.invalidateLayout p).dueAt k = u.dueAt k := by
      rw [dueAt_invalidateLayout, if_neg hk]
    refine (hattached hu).same ⟨liveAt_invalidateLayout .., parentAt_invalidateLayout .., hdue,
      sizeAt_invalidateLayout ..⟩ (marks_invalidateLayout u p).kept fun htask => ?_
    exact (layout_mem_invalidateLayout_iff.1 htask).resolve_right fun h => hk h.1

/-- A live parent that takes a child is due, and one that refuses it is due just if it was. -/
theorem Adopts.tends_parent {r : Except LayoutError Unit} (h : s.Adopts p c r t) : s.Tends t p := by
  cases h with
  | attached hdormant =>
    have hasleep : (s.attach p c).liveAt p = false := (liveAt_attach ..).trans hdormant
    refine ⟨fun hlive => ?_, fun _ => id, .inl, fun hlive => ?_, fun hlive => ?_, fun hlive => ?_,
      .inl (sizeAt_attach ..), fun _ hlive => ?_⟩
    · cases hdormant.symm.trans hlive
    · cases hasleep.symm.trans hlive
    · cases hdormant.symm.trans hlive
    · cases hdormant.symm.trans hlive
    · cases hasleep.symm.trans hlive
  | @refused u hlive hu e =>
    have htends := hu.tends p
    have hattached : (s.attach p c).liveAt p = true := (liveAt_attach ..).trans hlive
    have hdue : (u.detach p c).dueAt p = s.dueAt p := by
      rw [dueAt_detach, ← dueAt_attach s p c]
      rcases (hu.cases p).2.2 with ⟨-, hsame⟩ | ⟨hdormant, -⟩
      · exact hsame
      · cases hdormant.symm.trans hattached
    refine ⟨fun _ => (liveAt_detach ..).trans (htends.live hattached), htends.kept,
      fun htask => .inl ?_,
      fun _ hkids hdue' => .inr ⟨hlive, parentAt_of_detach hlive hu hkids, hdue ▸ hdue'⟩,
      fun _ => hdue.trans, fun _ hleaf hkids => ?_, .inl ?_, fun hdormant => ?_⟩
    · have hsame : u.queue = s.queue := hu.queue
      exact hsame ▸ htask
    · cases hleaf.symm.trans (parentAt_of_detach hlive hu hkids)
    · rw [sizeAt_detach, (hu.cases p).2.1, sizeAt_attach]
    · cases hlive.symm.trans hdormant
  | @taken u hlive hu =>
    refine Tends.asks ?_ (asks_announceHint _ p)
    have htends := hu.tends p
    have hawake : u.liveAt p = true := htends.live ((liveAt_attach ..).trans hlive)
    have hlive' : (u.invalidateLayout p).liveAt p = true := (liveAt_invalidateLayout ..).trans hawake
    have hdue := dueAt_invalidateLayout_self hawake
    refine ⟨fun _ => hlive', fun task htask => (marks_invalidateLayout u p).kept task ?_,
      fun _ => .inr hlive', fun _ hkids _ => .inl ?_, fun _ _ => hdue, fun _ _ _ => hdue,
      .inr (.inl hdue), fun hdormant => ?_⟩
    · exact htends.kept task htask
    · rw [parentAt_invalidateLayout] at hkids
      exact layout_mem_invalidateLayout_iff.2 (.inr ⟨rfl, hawake, hkids⟩)
    · cases hlive.symm.trans hdormant

theorem Adopts.tends {r : Except LayoutError Unit} (h : s.Adopts p c r t) (k : Nat) :
    s.Tends t k := by
  by_cases hk : k = p
  · exact hk ▸ h.tends_parent
  · exact h.tends_of_ne hk

/-- A component keeps its children, unless one of them is attached to it once more. -/
theorem Adopts.parentAt {r : Except LayoutError Unit} (h : s.Adopts p c r t)
    (hnew : c ∉ s.children p) (hk : s.parentAt k = true) : t.parentAt k = true := by
  have hattached : (s.attach p c).parentAt k = true := by
    unfold Scene.parentAt at hk ⊢
    rw [component?_attach]
    cases hc : s.component? k with
    | none =>
      rw [hc] at hk
      cases hk
    | some a =>
      rw [hc] at hk
      unfold Component.hasChildren at hk ⊢
      dsimp only [Option.map_some, Option.any_some] at hk ⊢
      split
      · simp
      · exact hk
  cases h with
  | attached => exact hattached
  | @refused u hlive hu e =>
    obtain ⟨parent, hp, -⟩ := liveAt_eq_true_iff.1 hlive
    rw [parentAt_eq, children_detach, hu.children, children_attach hp]
    split
    · next hkp =>
      subst hkp
      have hkids : (s.children k ++ [c]).filter (fun j => j != c) = s.children k := by
        rw [List.filter_append, List.filter_eq_self.2 fun j hj => ?_]
        · simp
        · exact bne_iff_ne.2 fun hjc => hnew (hjc ▸ hj)
      rw [hkids, ← parentAt_eq]
      exact hk
    · rw [← parentAt_eq]
      exact hk
  | @taken u hlive hu =>
    rw [((asks_announceHint _ p).same k).parent, parentAt_invalidateLayout, (hu.cases k).1]
    exact hattached

/-! ### Tasks -/

variable [Scalar α]

theorem asks_handConstraintsOne (c : Nat) : Through (@Asks α) (handConstraintsOne c).run := by
  refine Through.run_modify_bind (fun s => asks_of_same (fun k => sameAt_update s c k (fun _ => rfl)
    (fun _ => rfl) (fun _ => rfl) fun _ => rfl) rfl) fun s => leads_run_get_bind.2 ?_
  split
  · exact leads_run_pure.2 (Std.Refl.refl s)
  · split
    · refine Through.run_bind (fun t => (inner_tryLogged c _ t).mono fun _ _ => Inner.asks)
        (fun _ => ?_) s
      refine Through.run_modify_bind (fun t => Inner.asks ?_) ?_
      · exact inner_update fun _ => rfl
      exact Through.run_lift_bind (fun t => (inner_tellBounds c t).mono fun _ _ => Inner.asks)
        fun _ => through_modify fun t => asks_announceHint t c
    · exact leads_run_pure.2 (Std.Refl.refl s)

theorem asks_handConstraints (c : Nat) : Through (@Asks α) (handConstraints c).run :=
  fun s => leads_run_get_bind.2 (through_forM asks_handConstraintsOne _ s)

omit [Scalar α] in
theorem Inner.marks (h : s.Inner t) : s.Marks t := h.asks.marks

theorem marks_renewHint (p c : Nat) : Through (@Marks α) (renewHint p c).run := by
  have hset (hints : List (Constraint α)) (s : Scene α) :
      s.Marks (s.update c fun comp => { comp with hints }) :=
    Inner.marks (inner_update fun _ => rfl)
  intro s
  refine leads_run_get_bind.2 ?_
  split
  · exact leads_run_pure.2 (Std.Refl.refl s)
  · next child _ =>
    split
    · refine Through.run_modify_bind (hset []) ?_ s
      refine Through.run_lift_bind (fun t => (inner_hintConstraints c t).mono fun _ _ => Inner.marks)
        fun hints => ?_
      refine Through.run_lift_bind (fun t => (inner_tryLogged p _ t).mono fun _ _ => Inner.marks)
        fun r => ?_
      split
      · exact Through.run_modify_bind (hset child.hints) (through_pure _)
      · refine Through.run_modify_bind (hset hints) ?_
        refine Through.run_lift_bind (fun t => (inner_tellBounds p t).mono fun _ _ => Inner.marks)
          fun _ => through_modify fun t => ?_
        exact IsTrans.trans _ _ _ (marks_invalidateLayout t p) (asks_announceHint _ p).marks
    · exact leads_run_pure.2 (Std.Refl.refl s)

theorem dueAt_place_ne (s : Scene α) (geometry : Geometry α) (h : k ≠ c) :
    (s.place c geometry).dueAt k = s.dueAt k := by
  unfold place
  split
  · rfl
  · dsimp only
    split
    all_goals
      split
      · rw [dueAt_invalidateLayout, if_neg h]
        exact dueAt_update s c k fun _ => rfl
      · exact dueAt_update s c k fun _ => rfl

theorem dueAt_places_of_forall_ne (places : List (Nat × Geometry α)) (s : Scene α)
    (h : ∀ place ∈ places, k ≠ place.1) :
    (places.foldl (fun s (k, g) => s.place k g) s).dueAt k = s.dueAt k := by
  induction places generalizing s with
  | nil => rfl
  | cons place rest ih =>
    obtain ⟨hne, hrest⟩ := List.forall_mem_cons.1 h
    rw [List.foldl_cons, ih _ hrest, dueAt_place_ne _ _ hne]

/-- A pass clears the flag before it does anything else. Then it is set again only for what the pass
places. -/
theorem marks_placeChildren (s : Scene α) (c : Nat) :
    Leads (placeChildren c).run s fun _ t =>
      (s.update c fun comp => { comp with needsLayout := false }).Marks t ∧
        (c ∉ s.children c → t.dueAt c = false) := by
  refine leads_run_modify_bind.2 (leads_run_get_bind.2 ?_)
  have hclear : (s.update c fun comp => { comp with needsLayout := false }).dueAt c = false := by
    unfold dueAt
    rw [component?_update, if_pos rfl]
    cases s.component? c <;> rfl
  have hchildren : (s.update c fun comp => { comp with needsLayout := false }).children c
      = s.children c := by
    unfold children
    rw [component?_update, if_pos rfl]
    cases s.component? c <;> rfl
  generalize s.update c (fun comp => { comp with needsLayout := false }) = u at *
  rw [← hchildren]
  have hkept {t : Scene α} (ht : u.Inner t) : u.Marks t ∧ (c ∉ u.children c → t.dueAt c = false) :=
    ⟨ht.marks, fun _ => (SameAt.of_face (congrFun ht.faces c)).due.trans hclear⟩
  split
  · exact leads_run_pure.2 (hkept (Std.Refl.refl u))
  · next comp hc =>
    split
    · refine ((inner_tryLayout c _ u).and (leads_askPass hc _)).run_bind (fun found t ht => ?_) ?_
      rotate_left
      · intro e t ht
        exact hkept ht.1
      obtain ⟨hinner, -, -, hfound⟩ := ht
      split
      · exact leads_run_pure.2 (hkept hinner)
      · next places hplaces =>
        obtain ⟨sol, -, rfl⟩ := Option.map_eq_some_iff.1 hfound.symm
        refine leads_run_modify.2 ?_
        have hcounted (fields : List (String × String)) :
            u.Inner ((t.update c fun comp => { comp with layoutPasses := comp.layoutPasses + 1 }).note
              .debug "layout pass" fields) := by
          refine IsTrans.trans _ _ _ hinner (IsTrans.trans _ _ _ ?_ (inner_note ..))
          exact inner_update fun _ => rfl
        refine ⟨List.foldlRecOn _ _ (hcounted _).marks fun v hv place _ =>
          IsTrans.trans _ _ _ hv (marks_place v _ _), fun hown => ?_⟩
        rw [dueAt_places_of_forall_ne, (hkept (hcounted _)).2 hown]
        rintro place hplace rfl
        obtain ⟨⟨j, box⟩, hbox, rfl⟩ := List.mem_map.1 hplace
        exact hown (children_eq hc ▸ ((mem_childBoxes hc).1 hbox).1)
    · exact leads_run_pure.2 (hkept (Std.Refl.refl u))

end Scene

end ReactiveView
