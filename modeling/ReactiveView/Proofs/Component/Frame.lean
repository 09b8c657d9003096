import Mathlib
import ReactiveView.Component.Tasks
import ReactiveView.Proofs.Layout.Contents

/-!
This module contains what a step of a scene leaves alone. Steps never change the tree. All components
keep the constraints in their solvers and what they give to their parents, except those whose turn it
is. Probes and size hints, which run through several
layouts, change none of this, and queue nothing.
-/

namespace ReactiveView

variable {α : Type}

namespace Component

/-- The solver lists the constraints, if there is one that has not broken down. -/
def Lists (c : Component α) (cs : List (Constraint α)) : Prop :=
  c.breakdowns = 0 → c.layout.Lists cs

/-- The same widget in the same place in the tree. -/
structure SameTree (a b : Component α) : Prop where
  widgetClass : b.widgetClass = a.widgetClass
  object : b.object = a.object
  box : b.box = a.box
  parent : b.parent = a.parent
  children : b.children = a.children

/-- The same was asked for, and the same of it was handed to the solver. -/
structure SameRecord (a b : Component α) : Prop where
  live : b.live = a.live
  userConstraints : b.userConstraints = a.userConstraints
  appliedConstraints : b.appliedConstraints = a.appliedConstraints
  needsConstraints : b.needsConstraints = a.needsConstraints
  refused : b.refused = a.refused

/-- The solver lists the same, and the same was asked of it. -/
structure SameState (a b : Component α) : Prop extends SameRecord a b where
  isInitialized : b.layout.isInitialized = a.layout.isInitialized
  lists : ∀ cs, a.Lists cs → b.Lists cs
  stock : a.layout.SameStock b.layout

/-- The same is given to the parent's solver. -/
structure SameGifts (a b : Component α) : Prop where
  containment : b.containment = a.containment
  hints : b.hints = a.hints

/-- A component after a step: its solver is another one only if it was its turn, and it gives
something else only if it was told to. -/
structure Follows (own told : Prop) (a b : Component α) : Prop extends SameTree a b where
  state : ¬own → a.SameState b
  gifts : ¬told → a.SameGifts b

variable {a b c : Component α} {own told : Prop}

theorem SameTree.trans (h : a.SameTree b) (h' : b.SameTree c) : a.SameTree c :=
  ⟨h'.widgetClass.trans h.widgetClass, h'.object.trans h.object, h'.box.trans h.box,
    h'.parent.trans h.parent, h'.children.trans h.children⟩

theorem SameRecord.refl (a : Component α) : a.SameRecord a := ⟨rfl, rfl, rfl, rfl, rfl⟩

theorem SameRecord.trans (h : a.SameRecord b) (h' : b.SameRecord c) : a.SameRecord c :=
  ⟨h'.live.trans h.live, h'.userConstraints.trans h.userConstraints,
    h'.appliedConstraints.trans h.appliedConstraints,
    h'.needsConstraints.trans h.needsConstraints, h'.refused.trans h.refused⟩

theorem SameState.refl (a : Component α) : a.SameState a :=
  ⟨.refl a, rfl, fun _ h => h, a.layout.sameStock_refl⟩

theorem SameState.trans (h : a.SameState b) (h' : b.SameState c) : a.SameState c :=
  ⟨h.toSameRecord.trans h'.toSameRecord, h'.isInitialized.trans h.isInitialized,
    fun cs hcs => h'.lists cs (h.lists cs hcs), h.stock.trans h'.stock⟩

theorem SameGifts.trans (h : a.SameGifts b) (h' : b.SameGifts c) : a.SameGifts c :=
  ⟨h'.containment.trans h.containment, h'.hints.trans h.hints⟩

theorem Follows.refl (a : Component α) : a.Follows own told a :=
  ⟨⟨rfl, rfl, rfl, rfl, rfl⟩, fun _ => .refl a, fun _ => ⟨rfl, rfl⟩⟩

theorem Follows.trans (h : a.Follows own told b) (h' : b.Follows own told c) :
    a.Follows own told c :=
  ⟨h.toSameTree.trans h'.toSameTree, fun hown => (h.state hown).trans (h'.state hown),
    fun htold => (h.gifts htold).trans (h'.gifts htold)⟩

/-- The place, the size, what the native widget was told and what else is kept do not count. -/
theorem follows_shown (a : Component α) (native : NativeWidget α) (needsLayout : Bool)
    (size : Size α) (geometry : Option (Geometry α)) (layoutPasses : Nat) (notes : List ObjectRef)
    (links : List Nat) :
    a.Follows own told { a with native, needsLayout, size, geometry, layoutPasses, notes, links } :=
  ⟨⟨rfl, rfl, rfl, rfl, rfl⟩, fun _ =>
    ⟨⟨rfl, rfl, rfl, rfl, rfl⟩, rfl, fun _ h => h, a.layout.sameStock_refl⟩, fun _ => ⟨rfl, rfl⟩⟩

/-- A component that was told to give something else. -/
theorem follows_told (a : Component α) (containment hints : List (Constraint α)) (htold : told) :
    a.Follows own told { a with containment, hints } :=
  ⟨⟨rfl, rfl, rfl, rfl, rfl⟩, fun _ =>
    ⟨⟨rfl, rfl, rfl, rfl, rfl⟩, rfl, fun _ h => h, a.layout.sameStock_refl⟩,
    fun hnot => absurd htold hnot⟩

theorem Lists.perm {cs ds : List (Constraint α)} (h : a.Lists cs) (hperm : cs.Perm ds) :
    a.Lists ds :=
  fun hzero s hs => (h hzero s hs).perm hperm

theorem answered_sameTree {β : Type} (a : Component α) (outcome : Except LayoutError β)
    (layout : Layout α) : a.SameTree (a.answered outcome layout) := ⟨rfl, rfl, rfl, rfl, rfl⟩

theorem answered_sameRecord {β : Type} (a : Component α) (outcome : Except LayoutError β)
    (layout : Layout α) : a.SameRecord (a.answered outcome layout) := ⟨rfl, rfl, rfl, rfl, rfl⟩

theorem answered_intact {β : Type} {outcome : Except LayoutError β} {layout : Layout α}
    (h : (a.answered outcome layout).breakdowns = 0) :
    a.breakdowns = 0 ∧ Layout.Intact outcome := by
  unfold answered at h
  dsimp only at h
  split at h
  · cases h
  · next hintact => exact ⟨h, Bool.eq_false_of_not_eq_true hintact⟩

theorem follows_answered {β : Type} {p : Except LayoutError β × Layout α}
    (h : a.layout.Preserves p) (hstock : a.layout.SameStock p.2) :
    a.Follows own told (a.answered p.1 p.2) where
  toSameTree := a.answered_sameTree ..
  state _ := ⟨a.answered_sameRecord .., h.isInitialized, fun cs hcs hbreakdowns => by
    obtain ⟨hzero, hintact⟩ := answered_intact hbreakdowns
    exact h.lists cs (hcs hzero) hintact, hstock⟩
  gifts _ := ⟨rfl, rfl⟩

end Component

namespace Scene

variable {s t : Scene α} {S T S' T' : Set Nat} {c k : Nat}

theorem component?_update (s : Scene α) (c : Nat) (f : Component α → Component α) (k : Nat) :
    (s.update c f).component? k = if k = c then (s.component? k).map f else s.component? k := by
  unfold update component?
  rw [Array.getElem?_modify]
  rcases eq_or_ne k c with rfl | hne
  · rw [if_pos rfl, if_pos rfl]
    rcases s.components[k]? with _ | _ | _ <;> rfl
  · rw [if_neg hne, if_neg hne.symm]

theorem component?_update_self {comp : Component α} (h : s.component? c = some comp)
    (f : Component α → Component α) : (s.update c f).component? c = some (f comp) := by
  rw [component?_update, if_pos rfl, h, Option.map_some]

theorem exists_of_component?_update {b : Component α} {f : Component α → Component α}
    (h : (s.update c f).component? c = some b) : ∃ a, s.component? c = some a ∧ f a = b := by
  rw [component?_update, if_pos rfl] at h
  exact Option.map_eq_some_iff.1 h

@[simp]
theorem component?_note (s : Scene α) (level : Level) (message : String)
    (fields : List (String × String)) (k : Nat) :
    (s.note level message fields).component? k = s.component? k := rfl

/-- After a step it was the turn of the components of `S`, and those of `T` were told to give
something else. -/
def Agree (S T : Set Nat) (s t : Scene α) : Prop :=
  ∀ k, Option.Rel (Component.Follows (k ∈ S) (k ∈ T)) (s.component? k) (t.component? k)

/-- A step beside the attributes of objects. Constraints that it makes have identities of their
own. -/
structure Calm (s t : Scene α) : Prop where
  store : t.network.store = s.network.store
  next : s.nextConstraint ≤ t.nextConstraint

/-- A step that queues nothing. -/
structure Spares (S T : Set Nat) (s t : Scene α) : Prop extends Calm s t where
  agree : s.Agree S T t
  queue : t.queue = s.queue

/-- A step that only queues tasks. Size hints are those of children for their parents. -/
structure Stirs (S T : Set Nat) (s t : Scene α) : Prop extends Calm s t where
  agree : s.Agree S T t
  kept : ∀ task ∈ s.queue.pending, task ∈ t.queue.pending
  hints : ∀ p c, .sizeHint p c ∈ t.queue.pending → .sizeHint p c ∈ s.queue.pending ∨
    ∃ child, s.component? c = some child ∧ child.parent = some p

theorem agree_of_components_eq (h : t.components = s.components) : s.Agree S T t := by
  intro k
  have hk : t.component? k = s.component? k := by
    unfold component?
    rw [h]
  rw [hk]
  rcases s.component? k with _ | a
  · exact .none
  · exact .some (.refl a)

theorem Agree.trans {u : Scene α} (h : s.Agree S T t) (h' : t.Agree S T u) : s.Agree S T u := by
  intro k
  have hk := h k
  have hk' := h' k
  generalize s.component? k = x, t.component? k = y, u.component? k = z at hk hk' ⊢
  cases hk with
  | none =>
    cases hk'
    exact .none
  | some hab =>
    cases hk' with
    | some hbc => exact .some (hab.trans hbc)

theorem Agree.mono (h : s.Agree S T t) (hS : S ⊆ S') (hT : T ⊆ T') : s.Agree S' T' t := by
  intro k
  have hk := h k
  generalize s.component? k = x, t.component? k = y at hk ⊢
  cases hk with
  | none => exact .none
  | some hab =>
    exact .some ⟨hab.toSameTree, fun hk => hab.state fun h => hk (hS h),
      fun hk => hab.gifts fun h => hk (hT h)⟩

theorem Agree.exists_after {a : Component α} (h : s.Agree S T t) (ha : s.component? k = some a) :
    ∃ b, t.component? k = some b ∧ a.Follows (k ∈ S) (k ∈ T) b := by
  have hk := h k
  rw [ha] at hk
  generalize t.component? k = slot at hk ⊢
  cases hk with
  | some hab => exact ⟨_, rfl, hab⟩

theorem Agree.exists_before {b : Component α} (h : s.Agree S T t) (hb : t.component? k = some b) :
    ∃ a, s.component? k = some a ∧ a.Follows (k ∈ S) (k ∈ T) b := by
  have hk := h k
  rw [hb] at hk
  generalize s.component? k = slot at hk ⊢
  cases hk with
  | some hab => exact ⟨_, rfl, hab⟩

theorem Agree.children (h : s.Agree S T t) (k : Nat) : t.children k = s.children k := by
  have hk := h k
  unfold Scene.children
  generalize s.component? k = x, t.component? k = y at hk ⊢
  cases hk with
  | none => rfl
  | some hab => exact hab.children

theorem Calm.refl (s : Scene α) : s.Calm s := ⟨rfl, le_rfl⟩

theorem Calm.trans {u : Scene α} (h : s.Calm t) (h' : t.Calm u) : s.Calm u :=
  ⟨h'.store.trans h.store, h.next.trans h'.next⟩

theorem Spares.stirs (h : s.Spares S T t) : s.Stirs S T t :=
  ⟨h.toCalm, h.agree, fun _ htask => h.queue ▸ htask, fun _ _ htask => .inl (h.queue ▸ htask)⟩

instance : Std.Refl (@Spares α S T) := ⟨fun s => ⟨.refl s, agree_of_components_eq rfl, rfl⟩⟩

instance : IsTrans (Scene α) (Spares S T) :=
  ⟨fun _ _ _ h h' =>
    ⟨h.toCalm.trans h'.toCalm, h.agree.trans h'.agree, h'.queue.trans h.queue⟩⟩

instance : Std.Refl (@Stirs α S T) := ⟨fun s => Spares.stirs (Std.Refl.refl s)⟩

instance : IsTrans (Scene α) (Stirs S T) where
  trans s t u h h' := by
    refine ⟨h.toCalm.trans h'.toCalm, h.agree.trans h'.agree,
      fun task htask => h'.kept task (h.kept task htask), fun p c htask => ?_⟩
    rcases h'.hints p c htask with hold | ⟨child, hchild, hparent⟩
    · exact h.hints p c hold
    · obtain ⟨a, ha, hfollows⟩ := h.agree.exists_before hchild
      exact .inr ⟨a, ha, hfollows.parent.symm.trans hparent⟩

theorem Spares.mono (h : s.Spares S T t) (hS : S ⊆ S') (hT : T ⊆ T') : s.Spares S' T' t :=
  ⟨h.toCalm, h.agree.mono hS hT, h.queue⟩

theorem Spares.widen (h : s.Spares ∅ ∅ t) : s.Spares S T t :=
  h.mono (Set.empty_subset S) (Set.empty_subset T)

theorem agree_update {f : Component α → Component α}
    (h : ∀ a, s.component? c = some a → a.Follows (c ∈ S) (c ∈ T) (f a)) :
    s.Agree S T (s.update c f) := by
  intro k
  rw [component?_update]
  rcases eq_or_ne k c with rfl | hne
  · rw [if_pos rfl]
    cases hk : s.component? k with
    | none => exact .none
    | some a => exact .some (h a hk)
  · rw [if_neg hne]
    cases s.component? k with
    | none => exact .none
    | some a => exact .some (.refl a)

theorem spares_update {f : Component α → Component α}
    (h : ∀ a, s.component? c = some a → a.Follows (c ∈ S) (c ∈ T) (f a)) :
    s.Spares S T (s.update c f) := ⟨⟨rfl, le_rfl⟩, agree_update h, rfl⟩

theorem spares_note (level : Level) (message : String) (fields : List (String × String)) :
    s.Spares S T (s.note level message fields) := ⟨⟨rfl, le_rfl⟩, agree_of_components_eq rfl, rfl⟩

variable {β : Type}

/-! ### Asking a layout -/

theorem leads_tryLayout {f : Layout α → Except LayoutError β × Layout α}
    {Q : Except LayoutError β → Scene α → Prop} :
    Leads (tryLayout c f).run s Q ↔
      match s.component? c with
      | none => Q (.error (.notInitialized "layout")) s
      | some comp => Q (f comp.layout).1 (s.update c fun a => a.answered (f comp.layout).1
          (f comp.layout).2) := by
  unfold Leads tryLayout ExceptT.run ExceptT.mk StateT.run
  dsimp only
  cases s.component? c <;> rfl

theorem leads_tryLogged {f : Layout α → Except LayoutError Unit × List LogRecord × Layout α}
    {Q : Except LayoutError Unit → Scene α → Prop} :
    Leads (tryLogged c f).run s Q ↔
      match s.component? c with
      | none => Q (.ok ()) s
      | some comp => Q (f comp.layout).1 ((s.update c fun a => a.answered (f comp.layout).1
          (f comp.layout).2.2).logAll (f comp.layout).2.1) := by
  unfold Leads tryLogged ExceptT.run ExceptT.mk StateT.run
  dsimp only
  cases s.component? c <;> rfl

theorem through_tryLayout (c : Nat) {f : Layout α → Except LayoutError β × Layout α}
    (hf : ∀ l : Layout α, l.Preserves (f l)) (hstock : ∀ l : Layout α, l.SameStock (f l).2) :
    Through (Spares S T) (tryLayout c f).run := by
  intro s
  rw [leads_tryLayout]
  cases hc : s.component? c with
  | none => exact Std.Refl.refl s
  | some comp =>
    refine spares_update fun a ha => ?_
    cases hc.symm.trans ha
    exact Component.follows_answered (hf _) (hstock _)

theorem through_fresh (make : Nat → List (Constraint α)) :
    Through (@Spares α S T) (StateT.modifyGet fun s => s.fresh make) :=
  fun _ => ⟨⟨rfl, Nat.le_add_right ..⟩, agree_of_components_eq rfl, rfl⟩

/-! ### Queueing -/

theorem stirs_schedule (s : Scene α) (c : Nat) {task : Task} (htask : ∀ p c, task ≠ .sizeHint p c) :
    s.Stirs S T (s.schedule c task) := by
  unfold schedule
  split
  · split
    · refine ⟨⟨rfl, le_rfl⟩, agree_of_components_eq rfl, fun _ hold => List.mem_append_left _ hold,
        fun p c' hnew => ?_⟩
      rcases List.mem_append.1 hnew with hold | hlast
      · exact .inl hold
      · exact absurd (List.mem_singleton.1 hlast).symm (htask p c')
    · exact Std.Refl.refl s
  · exact Std.Refl.refl s

theorem stirs_invalidateLayout (s : Scene α) (c : Nat) : s.Stirs S T (s.invalidateLayout c) :=
  IsTrans.trans _ _ _ (spares_update fun _ _ => Component.follows_shown ..).stirs
    (stirs_schedule _ c nofun)

theorem stirs_announceHint (s : Scene α) (c : Nat) : s.Stirs S T (s.announceHint c) := by
  unfold announceHint
  split
  · exact Std.Refl.refl s
  · next p hp =>
    have hparent : ∃ child, s.component? c = some child ∧ child.parent = some p := by
      unfold parent? at hp
      obtain ⟨child, hchild, hp⟩ := Option.bind_eq_some_iff.1 hp
      obtain ⟨p', hp', hp⟩ := Option.bind_eq_some_iff.1 hp
      obtain ⟨-, -, hp⟩ := Option.bind_eq_some_iff.1 hp
      cases hp
      exact ⟨child, hchild, hp'⟩
    split
    · split
      · refine ⟨⟨rfl, le_rfl⟩, agree_of_components_eq rfl, fun _ hold => List.mem_append_left _ hold,
          fun p' c' hnew => ?_⟩
        rcases List.mem_append.1 hnew with hold | hlast
        · exact .inl hold
        · cases List.mem_singleton.1 hlast
          exact .inr hparent
      · exact Std.Refl.refl s
    · exact Std.Refl.refl s

/-- Signals only queue size hints. -/
theorem stirs_heedSignals (s : Scene α) : s.Stirs S T s.heedSignals := by
  have hstart : s.Stirs S T { s with network := { s.network with signals := [] } } :=
    Spares.stirs ⟨⟨rfl, le_rfl⟩, agree_of_components_eq rfl, rfl⟩
  unfold heedSignals
  exact List.foldlRecOn _ _ hstart fun t ht c _ => IsTrans.trans _ _ _ ht (stirs_announceHint t c)

theorem announceHint_network (s : Scene α) (network : Network) (c : Nat) :
    { s with network : Scene α }.announceHint c = { s.announceHint c with network } := by
  have hparent : { s with network : Scene α }.parent? c = s.parent? c := rfl
  have hcomp (p : Nat) : { s with network : Scene α }.component? p = s.component? p := rfl
  unfold announceHint
  rw [hparent]
  cases s.parent? c with
  | none => rfl
  | some p =>
    dsimp only
    rw [hcomp]
    cases s.component? p with
    | none => rfl
    | some parent =>
      dsimp only
      split <;> rfl

theorem foldl_announceHint_network (cs : List Nat) (s : Scene α) (network : Network) :
    cs.foldl announceHint { s with network : Scene α }
      = { cs.foldl announceHint s with network } := by
  induction cs generalizing s with
  | nil => rfl
  | cons c rest ih => rw [List.foldl_cons, List.foldl_cons, announceHint_network, ih]

/-- Signals become tasks, whatever else the network is. -/
theorem heedSignals_network (s : Scene α) (network : Network) :
    { s with network : Scene α }.heedSignals
      = { network.signals.foldl announceHint s with
          network := { network with signals := [] } } := by
  unfold heedSignals
  dsimp only
  exact foldl_announceHint_network network.signals s _

variable [Scalar α]

/-! ### Probes and size hints -/

theorem through_minSize (c : Nat) : Through (@Spares α S T) (minSize c).run := by
  intro s
  unfold minSize
  refine leads_run_get_bind.2 ?_
  split
  · exact leads_run_throw.2 (Std.Refl.refl s)
  · exact through_tryLayout c (fun l => l.preserves_minSize _ _ _)
      (fun l => l.stock_minSize _ _ _) s

theorem through_maxSize (c : Nat) : Through (@Spares α S T) (maxSize c).run := by
  intro s
  unfold maxSize
  refine leads_run_get_bind.2 ?_
  split
  · exact leads_run_throw.2 (Std.Refl.refl s)
  · exact through_tryLayout c (fun l => l.preserves_maxSize _ _ _)
      (fun l => l.stock_maxSize _ _ _) s

theorem through_tellBounds (c : Nat) : Through (@Spares α S T) (tellBounds c) := by
  unfold tellBounds
  refine Through.bind ?_ fun r => ?_
  · exact (through_minSize c).run_bind fun _ => (through_maxSize c).run_bind fun _ =>
      through_pure _
  · split
    · exact through_modify fun s => spares_update fun _ _ => Component.follows_shown ..
    · exact through_modify fun s => spares_note ..

theorem through_sizeHint (c : Nat) : Through (@Spares α S T) (sizeHint c) := by
  intro s
  refine leads_bind.2 (leads_get.2 ?_)
  split
  · refine Through.bind (through_minSize c) (fun r => ?_) s
    split
    · exact through_pure _
    · exact Through.bind (fun s => Std.Refl.refl s) fun _ => through_pure _
  · exact through_pure _ s

theorem through_namedStrength (c : Nat) (attr : String) :
    Through (@Spares α S T) (namedStrength c attr) := by
  intro s
  refine leads_bind.2 (leads_get.2 ?_)
  split
  · split
    · exact through_pure _ s
    · exact through_pure _ s
    · exact leads_bind.2 (leads_set.2 (spares_note ..))
  · exact through_pure _ s

theorem through_policyOf (c : Nat) : Through (@Spares α S T) (policyOf c) :=
  (through_namedStrength c _).bind fun _ => (through_namedStrength c _).bind fun _ =>
    (through_namedStrength c _).bind fun _ => (through_namedStrength c _).bind fun _ =>
      through_pure _

theorem through_hintConstraints (c : Nat) : Through (@Spares α S T) (hintConstraints c) := by
  refine (through_sizeHint c).bind fun hint => (through_policyOf c).bind fun policy s => ?_
  refine leads_bind.2 (leads_get.2 ?_)
  split
  · exact through_pure _ s
  · exact through_fresh _ s

/-! ### Placing -/

theorem stirs_place (s : Scene α) (c : Nat) (geometry : Geometry α) :
    s.Stirs S T (s.place c geometry) := by
  unfold place
  split
  · exact Std.Refl.refl s
  · dsimp only
    have hplaced (f : Component α → Component α) (hf : ∀ a, a.Follows (c ∈ S) (c ∈ T) (f a)) :
        s.Stirs S T (s.update c f) := (spares_update fun a _ => hf a).stirs
    split
    all_goals
      split
      · exact IsTrans.trans _ _ _ (hplaced _ fun _ => Component.follows_shown ..)
          (stirs_invalidateLayout _ c)
      · exact hplaced _ fun _ => Component.follows_shown ..

theorem stirs_resize (s : Scene α) (c : Nat) (size : Size α) : s.Stirs S T (s.resize c size) :=
  IsTrans.trans _ _ _ (spares_update fun _ _ => Component.follows_shown ..).stirs
    (stirs_invalidateLayout _ c)

theorem through_placeChildren (c : Nat) : Through (@Stirs α S T) (placeChildren c).run := by
  intro s
  have hstart : s.Stirs S T (s.update c fun comp => { comp with needsLayout := false }) :=
    (spares_update fun _ _ => Component.follows_shown ..).stirs
  unfold placeChildren
  refine leads_run_modify_bind.2 (leads_run_get_bind.2 ?_)
  split
  · exact leads_run_pure.2 hstart
  · split
    · refine (through_tryLayout c (fun l => l.preserves_resize _ _ _ _ _)
        (fun l => l.stock_resize _ _ _ _ _) _).run_bind
        (fun resolved t ht => ?_) fun _ _ ht => IsTrans.trans _ _ _ hstart ht.stirs
      have hresized := IsTrans.trans _ _ _ hstart ht.stirs
      split
      · exact leads_run_pure.2 hresized
      · refine leads_run_modify.2 (List.foldlRecOn _ _ ?_ fun u hu placed _ =>
          IsTrans.trans _ _ _ hu (stirs_place u _ _))
        refine IsTrans.trans _ _ _ hresized (IsTrans.trans _ _ _ ?_ (spares_note ..).stirs)
        exact (spares_update fun _ _ => Component.follows_shown ..).stirs
    · exact leads_run_pure.2 hstart

end Scene

end ReactiveView
