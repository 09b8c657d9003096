import ReactiveView.Proofs.Component.Attending
import ReactiveView.Proofs.Component.Renewing

/-!
This module contains that no size hint is stale. While components are made and attached, while
attributes change and the tasks that follow from this run one by one, in any order, each solver reflects
the size hints of the children. When no task waits, it has the constraints of the present size hint of
every child without children, and no others, unless the hint could not be renewed.
-/

namespace ReactiveView

open Network

namespace Scene

variable {α : Type} [Scalar α] {s t : Scene α} {S failed host : Set Nat} {late : List Nat}
  {c k n p : Nat} {comp child parent : Component α}

/-! ### Signals -/

omit [Scalar α] in
theorem announceHint_components (s : Scene α) (c : Nat) :
    (s.announceHint c).components = s.components := by
  unfold announceHint
  split
  · rfl
  · split
    · split <;> rfl
    · rfl

omit [Scalar α] in
theorem heedSignals_components (s : Scene α) : s.heedSignals.components = s.components := by
  unfold heedSignals
  refine List.foldlRecOn (motive := fun t : Scene α => t.components = s.components) _ _ rfl
    fun t ht c _ => ?_
  rw [announceHint_components, ht]

omit [Scalar α] in
theorem component?_heedSignals (s : Scene α) (k : Nat) :
    s.heedSignals.component? k = s.component? k := by
  unfold component?
  rw [heedSignals_components]

omit [Scalar α] in
/-- Where a child with a live parent is signalled, its size hint will be looked at. -/
theorem mem_announceHint (hc : s.component? c = some child) (hparent : child.parent = some p)
    (hp : s.component? p = some parent) (hlive : parent.live = true) :
    .sizeHint p c ∈ (s.announceHint c).queue.pending := by
  have hfound : s.parent? c = some p := by
    unfold parent?
    rw [hc]
    change Option.bind child.parent _ = _
    rw [hparent]
    change Option.bind (s.component? p) _ = _
    rw [hp]
    rfl
  unfold announceHint
  rw [hfound]
  dsimp only
  rw [hp]
  dsimp only
  rw [if_pos hlive, Queue.pending_push]
  exact List.mem_append_right _ (List.mem_singleton_self _)

omit [Scalar α] in
theorem mem_heedSignals (hsignal : c ∈ s.network.signals) (hc : s.component? c = some child)
    (hparent : child.parent = some p) (hp : s.component? p = some parent)
    (hlive : parent.live = true) : .sizeHint p c ∈ s.heedSignals.queue.pending := by
  have hall (cs : List Nat) (u : Scene α) (hu : u.components = s.components) (hcs : c ∈ cs) :
      .sizeHint p c ∈ (cs.foldl announceHint u).queue.pending := by
    induction cs generalizing u with
    | nil => cases hcs
    | cons d rest ih =>
      rcases List.mem_cons.1 hcs with rfl | hrest
      · have hkept : (u.announceHint c).Stirs ∅ ∅ (rest.foldl announceHint (u.announceHint c)) :=
          List.foldlRecOn rest _ (Std.Refl.refl _) fun t ht k _ =>
            IsTrans.trans _ _ _ ht (stirs_announceHint t k)
        have hsame (k : Nat) : u.component? k = s.component? k := by
          unfold component?
          rw [hu]
        refine hkept.kept _ (mem_announceHint ?_ hparent ?_ hlive)
        · exact (hsame c).trans hc
        · exact (hsame p).trans hp
      · exact ih _ ((announceHint_components u d).trans hu) hrest
  exact hall s.network.signals _ rfl hsignal

/-! ### What a host does -/

/-- A size hint stays current where the attributes that it and the policy depend on do. -/
theorem Current.congr (h : s.Current k) (hsame : t.component? k = s.component? k)
    (hhonest : s.HonestAt k) (hattrs : ∀ comp, s.component? k = some comp →
      ∀ attr ∈ WidgetClass.policyAttributes ++ comp.widgetClass.hintAttributes,
        t.network.store.get? comp.object attr = s.network.store.get? comp.object attr) :
    t.Current k := by
  obtain ⟨comp, first, hcomp, hhints⟩ := h
  have hcomp' : t.component? k = some comp := hsame.trans hcomp
  have hget : ∀ attr ∈ WidgetClass.policyAttributes ++ comp.widgetClass.hintAttributes,
      (t.attrs k).get? attr = (s.attrs k).get? attr := by
    intro attr hattr
    rw [attrs_eq hcomp', attrs_eq hcomp]
    exact hattrs comp hcomp attr hattr
  refine ⟨comp, first, hcomp', ?_⟩
  rw [hhints, nativeHint_eq hcomp, nativeHint_eq hcomp',
    policyAt_congr fun attr hattr => hget attr (List.mem_append_left _ hattr),
    (hhonest comp hcomp).hint_congr fun attr hattr => hget attr (List.mem_append_right _ hattr)]

/-- The components of before are the same, and those that are new have no solver. Size hints that are
no longer current will be renewed. -/
theorem Faithful.relate (h : s.Faithful [] failed) (hs : s.Sound [] [])
    (hold : ∀ k comp, s.component? k = some comp → t.component? k = some comp)
    (hnew : ∀ k comp, t.component? k = some comp → comp.layout.isInitialized = true →
      s.component? k = some comp)
    (hcurrent : ∀ p parent k, s.component? p = some parent → parent.layout.isInitialized = true →
      k ∈ parent.children → s.HonestAt k → .sizeHint p k ∈ s.queue.pending ∨ s.Current k →
      .sizeHint p k ∈ t.queue.pending ∨ t.Current k) : t.Faithful [] failed := by
  intro p parent hp' hinit
  have hp := hnew p parent hp' hinit
  obtain ⟨hneat, ⟨first, hwithin⟩, hshows⟩ := h p parent hp hinit
  have hkid : ∀ k ∈ parent.children, t.component? k = s.component? k := by
    intro k hk
    obtain ⟨child, hchild⟩ := hs.exists_child (children_eq hp ▸ hk)
    rw [hchild]
    exact hold k child hchild
  refine ⟨hneat, ⟨first, ?_⟩, fun k hk hlate hnot => ?_⟩
  · rw [expected_congr ⟨rfl, rfl, rfl, rfl, rfl⟩ rfl (fun _ _ => .rfl) (fun j hj _ => ?_) first]
    · exact hwithin
    · unfold contributions
      rw [hkid j hj]
  · have hsame := hkid k hk
    obtain ⟨hgiven, hshown⟩ := hshows k hk hlate hnot
    refine ⟨fun child hchild => hgiven child (hsame ▸ hchild), fun hleaf hhonest => ?_⟩
    have hhonest' : s.HonestAt k := fun child hchild => hhonest child (hsame ▸ hchild)
    refine hcurrent p parent k hp hinit hk hhonest' (hshown ?_ hhonest')
    unfold Leaf children at hleaf ⊢
    rwa [hsame] at hleaf

/-- What is changed about a component is not in its solver. -/
theorem Faithful.update (h : s.Faithful late failed) {f : Component α → Component α}
    (hf : ∀ a : Component α, a.SameTree (f a) ∧ a.SameGifts (f a) ∧ (f a).layout = a.layout ∧
      (f a).appliedConstraints = a.appliedConstraints) : (s.update c f).Faithful late failed := by
  have hst : s.Stirs Set.univ ∅ (s.update c f) := Spares.stirs (spares_update fun a _ =>
    ⟨(hf a).1, fun hnot => absurd (Set.mem_univ c) hnot, fun _ => (hf a).2.1⟩)
  intro p b hb hinit
  have hkept (a : Component α) (ha : s.component? p = some a) (htree : a.SameTree b)
      (hlayout : b.layout = a.layout) (happlied : b.appliedConstraints = a.appliedConstraints) :
      (s.update c f).Reflects late failed p b :=
    (h p a ha (hlayout ▸ hinit)).step hst htree (hlayout ▸ a.layout.sameStock_refl) happlied
      (fun j _ => ⟨.rfl, fun _ => Set.notMem_empty j⟩) (List.Subset.refl late) fun _ _ hj => hj
  rw [component?_update] at hb
  split at hb
  · obtain ⟨a, ha, rfl⟩ := Option.map_eq_some_iff.1 hb
    obtain ⟨htree, -, hlayout, happlied⟩ := hf a
    exact hkept a ha htree hlayout happlied
  · exact hkept b hb ⟨rfl, rfl, rfl, rfl, rfl⟩ rfl rfl

theorem Faithful.invalidateConstraints (h : s.Faithful late failed) (c : Nat) :
    (s.invalidateConstraints c).Faithful late failed := by
  have hdue : (s.update c fun comp => { comp with needsConstraints := true }).Faithful late failed :=
    h.update fun _ => ⟨⟨rfl, rfl, rfl, rfl, rfl⟩, ⟨rfl, rfl⟩, rfl, rfl⟩
  exact hdue.stirs (stirs_schedule _ c nofun)

theorem Faithful.constrain (h : s.Faithful late failed) (c : Nat) (cs : List (Constraint α)) :
    (s.constrain c cs).Faithful late failed := by
  have hgiven : (s.update c fun comp => { comp with userConstraints := cs }).Faithful late failed :=
    h.update fun _ => ⟨⟨rfl, rfl, rfl, rfl, rfl⟩, ⟨rfl, rfl⟩, rfl, rfl⟩
  unfold Scene.constrain
  dsimp only
  split
  · split
    · exact (hgiven.invalidateConstraints c).stirs (stirs_invalidateLayout _ c)
    · exact hgiven
  · exact hgiven

theorem Faithful.newComponent (h : s.Faithful [] failed) (hs : s.Sound [] []) (ha : s.Attended)
    (widgetClass : WidgetClass) (identifier : Option String) :
    (s.newComponent widgetClass identifier).2.Faithful [] failed := by
  obtain ⟨object, watchers, hnew⟩ := s.exists_component?_newComponent widgetClass identifier
  obtain ⟨news, next, hnetwork⟩ := s.network_newComponent widgetClass identifier
  have hold {k : Nat} {comp : Component α} (hk : s.component? k = some comp) :
      (s.newComponent widgetClass identifier).2.component? k = some comp := by
    rw [hnew, if_neg (lt_size_of_component? hk).ne, hk]
  refine h.relate hs (fun _ _ => hold) (fun k comp hk hinit => ?_)
    fun p parent k hp _ hk hhonest => Or.imp_right fun hcurrent => ?_
  · rw [hnew] at hk
    split at hk
    · cases hk
      cases hinit
    · exact hk
  · obtain ⟨child, hchild⟩ := hs.exists_child (children_eq hp ▸ hk)
    refine hcurrent.congr ((hold hchild).trans hchild.symm) hhonest fun comp hcomp attr _ => ?_
    rw [hnetwork]
    exact ha.get?_furnished hcomp widgetClass attr

theorem Faithful.furnished (h : s.Faithful [] failed) (hs : s.Sound [] []) (ha : s.Attended)
    (widgetClass : WidgetClass) :
    Faithful [] failed { s with network := s.network.furnished widgetClass } :=
  h.relate hs (fun _ _ hk => hk) (fun _ _ hk _ => hk) fun _ _ _ _ _ _ hhonest =>
    Or.imp_right fun hcurrent => hcurrent.congr rfl hhonest fun _ hcomp attr _ =>
      ha.get?_furnished hcomp widgetClass attr

/-- Whatever happens on the network. -/
theorem Faithful.change {network : Network} (h : s.Faithful [] failed) (hs : s.Sound [] [])
    (ha : s.Attended) (hmoves : s.network.Moves network) :
    Faithful [] failed { s with network }.heedSignals := by
  have hst : Stirs ∅ ∅ { s with network } { s with network }.heedSignals := stirs_heedSignals _
  have hsame (k : Nat) : Scene.component? { s with network }.heedSignals k = s.component? k :=
    component?_heedSignals _ k
  refine h.relate hs (fun k _ hk => (hsame k).trans hk) (fun k _ hk _ => (hsame k).symm.trans hk)
    fun p parent k hp hinit hk hhonest hshown => ?_
  obtain ⟨child, hchild, hparent⟩ := (hs.family p k).1 (children_eq hp ▸ hk)
  rcases hshown with hpending | hcurrent
  · exact .inl (hst.kept _ hpending)
  · by_cases hattrs : ∀ attr ∈ WidgetClass.policyAttributes ++ child.widgetClass.hintAttributes,
        network.store.get? child.object attr = s.network.store.get? child.object attr
    · refine .inr (hcurrent.congr (hsame k) hhonest fun comp hcomp attr hattr => ?_)
      cases hchild.symm.trans hcomp
      rw [hst.store]
      exact hattrs attr hattr
    · push Not at hattrs
      obtain ⟨attr, hattr, hne⟩ := hattrs
      exact .inl (mem_heedSignals (ha.signalled hmoves hchild hattr hne) hchild hparent hp
        (hs.fits p parent hp hinit).live)

theorem Named.newComponent (h : s.Named host) (widgetClass : WidgetClass)
    (identifier : Option String) : (s.newComponent widgetClass identifier).2.Named host := by
  obtain ⟨object, watchers, hnew⟩ := s.exists_component?_newComponent widgetClass identifier
  have hcases (k : Nat) (b : Component α)
      (hb : (s.newComponent widgetClass identifier).2.component? k = some b) :
      s.component? k = some b ∨ b.hints = [] ∧ b.userConstraints ++ b.appliedConstraints = [] := by
    rw [hnew] at hb
    split at hb
    · cases hb
      exact .inr ⟨rfl, rfl⟩
    · exact .inl hb
  refine ⟨h.drawn, fun k b hb x hx => ?_, fun k b hb x hx => ?_,
    fun j k a b ha hb hne x hx y hy => ?_⟩
  · rcases hcases k b hb with hb | ⟨-, hnone⟩
    · exact h.asked k b hb x hx
    · rw [hnone] at hx
      cases hx
  · rcases hcases k b hb with hb | ⟨hnone, -⟩
    · exact h.hints k b hb x hx
    · rw [hnone] at hx
      cases hx
  · rcases hcases j a ha with ha | ⟨hnone, -⟩
    · rcases hcases k b hb with hb | ⟨hnone, -⟩
      · exact h.apart j k a b ha hb hne x hx y hy
      · rw [hnone] at hy
        cases hy
    · rw [hnone] at hx
      cases hx

omit [Scalar α] in
theorem names_invalidateConstraints (s : Scene α) (c : Nat) :
    s.Names host (s.invalidateConstraints c) := by
  have hdue : s.Names host (s.update c fun comp => { comp with needsConstraints := true }) :=
    names_update fun _ => ⟨rfl, rfl, rfl⟩
  have hqueued : Stirs ∅ ∅ _ (s.invalidateConstraints c) := stirs_schedule _ c nofun
  exact IsTrans.trans _ _ _ hdue hqueued.names

omit [Scalar α] in
theorem Named.constrain (h : s.Named host) (c : Nat) {cs : List (Constraint α)}
    (hids : ∀ x ∈ cs, x.id ∈ host) : (s.constrain c cs).Named host := by
  have hgiven : (s.update c fun comp => { comp with userConstraints := cs }).Named host := by
    refine h.update (fun a => List.Subset.refl a.hints) fun a ha x hx => ?_
    refine (List.mem_append.1 hx).elim (hids x) fun hx => ?_
    exact h.asked c a ha x (List.mem_append_right _ hx)
  unfold Scene.constrain
  dsimp only
  split
  · split
    · exact (stirs_invalidateLayout _ c).names.named ((names_invalidateConstraints _ c).named hgiven)
    · exact hgiven
  · exact hgiven

omit [Scalar α] in
/-- A host draws names that nobody has. -/
theorem Named.draw (h : s.Named host) (n : Nat) :
    Named (host ∪ {id | s.nextConstraint ≤ id ∧ id < s.nextConstraint + n})
      { s with nextConstraint := s.nextConstraint + n } where
  drawn id hid := hid.elim (fun hid => (h.drawn id hid).trans_le (Nat.le_add_right ..)) And.right
  asked k comp hcomp x hx := .inl (h.asked k comp hcomp x hx)
  hints k comp hcomp x hx := by
    obtain ⟨hlt, hnot⟩ := h.hints k comp hcomp x hx
    exact ⟨hlt.trans_le (Nat.le_add_right ..), fun hid => hid.elim hnot fun hid => hlt.not_ge hid.1⟩
  apart := h.apart

/-! ### Runs -/

/-- The scenes that runs come to, from one without components, observers and tasks, with the names that
the host has drawn for its constraints, and the children whose size hint could not be renewed last
time. -/
inductive Lived : Set Nat → Set Nat → Scene α → Prop
  | start {s : Scene α} (hcomponents : s.components = #[]) (hqueue : s.queue.pending = [])
      (hobservers : s.network.observers = []) (hlinks : s.network.links = #[])
      (hnamed : ∀ name o, s.network.desk.objects.get? name = some o →
        o.id < s.network.store.objects.size) : Lived ∅ ∅ s
  /-- Make a component. -/
  | create {host failed : Set Nat} {s : Scene α} (h : Lived host failed s)
      (widgetClass : WidgetClass) (identifier : Option String) :
      Lived host failed (s.newComponent widgetClass identifier).2
  /-- Make a note on a component. -/
  | annotate {host failed : Set Nat} {s : Scene α} (h : Lived host failed s) (c : Nat)
      (widgetClass : WidgetClass) : Lived host failed (s.newNote c widgetClass).2
  /-- Attach a component that has no parent. -/
  | adopt {host failed : Set Nat} {s : Scene α} {p c : Nat} {parent child : Component α}
      (h : Lived host failed s) (hp : s.component? p = some parent)
      (hc : s.component? c = some child) (hdetached : child.parent = none) :
      Lived host failed ((adopt p c).run.run s).2
  /-- Make a component and all below it live. -/
  | activate {host failed : Set Nat} {s : Scene α} (h : Lived host failed s) (c : Nat) :
      Lived host failed ((activate c).run.run s).2
  /-- Draw names for constraints. -/
  | draw {host failed : Set Nat} {s : Scene α} (h : Lived host failed s) (n : Nat) :
      Lived (host ∪ {id | s.nextConstraint ≤ id ∧ id < s.nextConstraint + n}) failed
        { s with nextConstraint := s.nextConstraint + n }
  /-- Give a component other constraints, under names that were drawn. -/
  | constrain {host failed : Set Nat} {s : Scene α} (h : Lived host failed s) (c : Nat)
      (cs : List (Constraint α)) (hdrawn : ∀ x ∈ cs, x.id ∈ host) :
      Lived host failed (s.constrain c cs)
  /-- Give a component a size. -/
  | resize {host failed : Set Nat} {s : Scene α} (h : Lived host failed s) (c : Nat)
      (size : Size α) : Lived host failed (s.resize c size)
  /-- Change attributes or tie code to them, and turn the signals into tasks. -/
  | change {host failed : Set Nat} {s : Scene α} {network : Network} (h : Lived host failed s)
      (hmoves : s.network.Moves network) : Lived host failed { s with network }.heedSignals
  /-- A component keeps a binding alive. -/
  | keep {host failed : Set Nat} {s : Scene α} (h : Lived host failed s) (c link : Nat) :
      Lived host failed (s.update c fun comp => { comp with links := comp.links ++ [link] })
  /-- Run the task that has waited longest. -/
  | task {host failed : Set Nat} {s : Scene α} {task : Task} {queue : Queue Task}
      (h : Lived host failed s) (hpop : s.queue.pop? = some (task, queue)) :
      Lived host (failedBy { s with queue } failed task) ((runTask task).run { s with queue }).2

/-- What all runs keep: solvers have what belongs there, under names of its own, they reflect the size
hints, and components attend to their objects. -/
structure Fresh (host failed : Set Nat) (s : Scene α) : Prop where
  sound : s.Sound [] []
  named : s.Named host
  faithful : s.Faithful [] failed
  attended : s.Attended

/-- A step that changes neither what components are asked for nor their objects. -/
theorem Fresh.stirs (h : s.Fresh host failed) (hst : s.Stirs ∅ ∅ t) (ht : t.Attended) :
    t.Fresh host failed :=
  ⟨h.sound.stirs hst, hst.names.named h.named, h.faithful.stirs hst, ht⟩

theorem Lived.fresh (h : Lived host failed s) : s.Fresh host failed := by
  induction h with
  | start hcomponents hqueue hobservers hlinks hnamed =>
    have hnone := component?_of_empty hcomponents
    refine ⟨sound_start hcomponents hqueue, ⟨nofun, fun k comp hk => ?_, fun k comp hk => ?_,
      fun j k a b ha => ?_⟩, fun p comp hp => ?_,
      attended_start hcomponents hobservers hlinks hnamed⟩
    · cases (hnone k).symm.trans hk
    · cases (hnone k).symm.trans hk
    · cases (hnone j).symm.trans ha
    · cases (hnone p).symm.trans hp
  | create _ widgetClass identifier ih =>
    exact ⟨ih.sound.newComponent widgetClass identifier, ih.named.newComponent widgetClass identifier,
      ih.faithful.newComponent ih.sound ih.attended widgetClass identifier,
      ih.attended.newComponent widgetClass identifier⟩
  | @annotate _ _ s _ c widgetClass ih =>
    have hnamed : Named _ { s with network := s.network.furnished widgetClass } :=
      ⟨ih.named.drawn, ih.named.asked, ih.named.hints, ih.named.apart⟩
    have hnoted : Stirs ∅ ∅ { s with network := s.network.furnished widgetClass }
        (s.newNote c widgetClass).2 :=
      Spares.stirs (spares_update fun _ _ => Component.follows_shown ..)
    exact ⟨(ih.sound.renet _).stirs hnoted, hnoted.names.named hnamed,
      (ih.faithful.furnished ih.sound ih.attended widgetClass).stirs hnoted,
      ih.attended.newNote c widgetClass⟩
  | @adopt _ _ s p c _ _ _ hp hc hdetached ih =>
    exact ⟨leads_adopt ih.sound hc hdetached hp, (names_adopt p c s).named ih.named,
      faithful_adopt ih.faithful ih.sound hc hdetached hp, (aloof_adopt p c s).attended ih.attended⟩
  | @activate _ _ s _ c ih =>
    have hlate : s.LateLive [] := fun _ hj => absurd hj List.not_mem_nil
    exact ⟨(leads_activate ih.sound hlate c).sound, (names_activate c s).named ih.named,
      faithful_activate ih.faithful ih.sound hlate c, (wakes_activate c s).aloof.attended ih.attended⟩
  | @draw _ _ s _ n ih =>
    have hdrawn : s.Stirs ∅ ∅ { s with nextConstraint := s.nextConstraint + n } :=
      Spares.stirs ⟨⟨rfl, Nat.le_add_right ..⟩, agree_of_components_eq rfl, rfl⟩
    exact ⟨ih.sound.stirs hdrawn, ih.named.draw n, ih.faithful.stirs hdrawn,
      ih.attended.echo (.refl _) rfl⟩
  | constrain _ c cs hdrawn ih =>
    exact ⟨ih.sound.constrain c cs, ih.named.constrain c hdrawn, ih.faithful.constrain c cs,
      (aloof_constrain _ c cs).attended ih.attended⟩
  | resize _ c size ih =>
    exact ih.stirs (stirs_resize _ c size) ((aloof_resize _ c size).attended ih.attended)
  | @change _ _ s network _ hmoves ih =>
    have hheeds : Stirs ∅ ∅ { s with network } { s with network }.heedSignals := stirs_heedSignals _
    have hnamed : Named _ { s with network } :=
      ⟨ih.named.drawn, ih.named.asked, ih.named.hints, ih.named.apart⟩
    exact ⟨(ih.sound.renet network).stirs hheeds, hheeds.names.named hnamed,
      ih.faithful.change ih.sound ih.attended hmoves,
      (aloof_heedSignals _).attended (ih.attended.moves hmoves)⟩
  | keep _ c link ih =>
    exact ih.stirs (Spares.stirs (spares_update fun _ _ => Component.follows_shown ..))
      (ih.attended.echo (.refl _) (subject?_update _ c fun _ => rfl))
  | @task _ _ s task queue _ hpop ih =>
    have hnamed : Named _ { s with queue } :=
      ⟨ih.named.drawn, ih.named.asked, ih.named.hints, ih.named.apart⟩
    have hpopped : Attended { s with queue } := ih.attended.echo (.refl _) rfl
    exact ⟨leads_runTask ih.sound hpop, (names_runTask task _).named hnamed,
      faithful_runTask ih.faithful ih.sound ih.named hpop, (aloof_runTask task _).attended hpopped⟩

/-- Running all tasks is a run. -/
theorem Lived.runUpTo (h : Lived host failed s) {limit ran : Nat}
    (hrun : s.runUpTo limit ran = some (n, t)) :
    ∃ failed', Lived host failed' t ∧ t.queue.pending = [] := by
  induction limit generalizing s failed ran with
  | zero =>
    unfold Scene.runUpTo at hrun
    split at hrun
    · next hpop =>
      cases hrun
      exact ⟨failed, h, (Queue.pop?_eq_none_iff _).1 hpop⟩
    · cases hrun
    · next hlimit => cases hlimit
  | succ limit ih =>
    unfold Scene.runUpTo at hrun
    split at hrun
    · next hpop =>
      cases hrun
      exact ⟨failed, h, (Queue.pop?_eq_none_iff _).1 hpop⟩
    · next hlimit => cases hlimit
    · next task queue limit' hpop hlimit =>
      cases hlimit
      exact ih (h.task hpop) hrun

/-! ### What solvers have -/

end Scene

end ReactiveView
