import ReactiveView.Proofs.Component.Hints
import ReactiveView.Proofs.Component.Listing

/-!
This module contains that the passes over components keep a scene sound, also when a solver refuses
what it is handed half way. A pass goes through one layout after the other, and a layout that it has
come to either lists what now belongs there or what belonged there before.
-/

namespace ReactiveView

namespace Scene

variable {α : Type} {s t : Scene α} {S T : Set Nat} {late owed : List Nat}
  {c k p first : Nat} {comp : Component α} {old new rest cs : List (Constraint α)}

/-! ### Asking a layout for other constraints -/

/-- When it is the turn of a component, what it gives to its parent stays. -/
theorem spares_turn {f : Component α → Component α} (c : Nat)
    (htree : ∀ a : Component α, a.SameTree (f a))
    (hgifts : ∀ a : Component α, a.SameGifts (f a)) : s.Spares {c} ∅ (s.update c f) :=
  spares_update fun a _ => ⟨htree a, fun hown => absurd rfl hown, fun _ => hgifts a⟩

theorem spares_answered {β : Type} (c : Nat) (outcome : Except LayoutError β) (layout : Layout α)
    (log : List LogRecord) :
    s.Spares {c} ∅ ((s.update c fun a => a.answered outcome layout).logAll log) :=
  have hturn : s.Spares {c} ∅ (s.update c fun a => a.answered outcome layout) :=
    spares_turn c (fun a => a.answered_sameTree ..) fun _ => ⟨rfl, rfl⟩
  IsTrans.trans _ _ _ hturn ⟨⟨rfl, le_rfl⟩, agree_of_components_eq rfl, rfl⟩

theorem component?_answered {β : Type} (hc : s.component? c = some comp)
    (outcome : Except LayoutError β) (layout : Layout α) (log : List LogRecord) :
    ((s.update c fun a => a.answered outcome layout).logAll log).component? c
      = some (comp.answered outcome layout) :=
  component?_update_self hc _

/-- However a layout answers, it was the turn of its component only. -/
theorem spares_tryLogged (c : Nat)
    (f : Layout α → Except LayoutError Unit × List LogRecord × Layout α) :
    Through (Spares {c} ∅) (tryLogged c f).run := by
  intro s
  rw [leads_tryLogged]
  cases s.component? c with
  | none => exact Std.Refl.refl s
  | some comp => exact spares_answered ..

variable [Scalar α]

theorem leads_setUp (hc : s.component? c = some comp) (hnew : comp.layout.solver = none)
    (cs : List (Constraint α)) :
    Leads (tryLogged c fun l => l.setUp cs).run s fun r t => s.Spares {c} ∅ t ∧
      ∃ layout, t.component? c = some (comp.answered r layout) ∧
        (r = .ok () ∧ layout.Lists cs ∧ layout.Has cs ∨ r ≠ .ok () ∧ layout.solver = none) := by
  rw [leads_tryLogged, hc]
  refine ⟨spares_answered .., _, component?_answered hc .., ?_⟩
  rcases Layout.setUp_spec hnew cs with ⟨hok, s', hs', hholding⟩ | herror
  · refine .inl ⟨hok, fun u hu => ?_, Layout.setUp_has hnew hok⟩
    cases hs'.symm.trans hu
    exact hholding
  · exact .inr herror

theorem leads_replace (hc : s.component? c = some comp) (h : comp.Lists (old ++ rest))
    (new : List (Constraint α)) :
    Leads (tryLogged c fun l => l.replace old new).run s fun r t => s.Spares {c} ∅ t ∧
      ∃ layout, t.component? c = some (comp.answered r layout) ∧
        (r = .ok () ∧ (comp.answered r layout).Lists (rest ++ new) ∨
          r ≠ .ok () ∧ (comp.answered r layout).Lists (old ++ rest)) := by
  rw [leads_tryLogged, hc]
  refine ⟨spares_answered .., _, component?_answered hc .., ?_⟩
  by_cases hok : (comp.layout.replace old new).1 = .ok ()
  · refine .inl ⟨hok, fun hbreakdowns => ?_⟩
    obtain ⟨hzero, hintact⟩ := Component.answered_intact hbreakdowns
    rcases Layout.replace_spec (h hzero) hintact with hswapped | hundone
    · exact hswapped.2.2
    · exact absurd hok hundone.1
  · refine .inr ⟨hok, fun hbreakdowns => ?_⟩
    obtain ⟨hzero, hintact⟩ := Component.answered_intact hbreakdowns
    rcases Layout.replace_spec (h hzero) hintact with hswapped | hundone
    · exact absurd hswapped.1 hok
    · exact hundone.2

theorem leads_supplant (hc : s.component? c = some comp) (old new : List (Constraint α)) :
    Leads (tryLogged c fun l => l.replace old new).run s fun r t => s.Spares {c} ∅ t ∧
      ∃ layout, t.component? c = some (comp.answered r layout) ∧
        comp.layout.Supplants old new r layout := by
  rw [leads_tryLogged, hc]
  exact ⟨spares_answered .., _, component?_answered hc .., comp.layout.supplants_replace old new⟩

/-! ### What children give -/

/-- A child has given to the solver of a parent of a box what it has to give now. -/
structure Offered (s : Scene α) (parent : Box) (k : Nat) (child : Component α) : Prop where
  contained : s.Contained parent k
  current : child.layout.isInitialized = false → s.Current k

theorem Agree.offered {parent : Box} {child : Component α} (h : s.Agree S T t) (hcalm : s.Calm t)
    (hk : k ∉ T) (hoffered : s.Offered parent k child) : t.Offered parent k child :=
  ⟨h.contained hk hoffered.contained, fun hnew => h.current hcalm hk (hoffered.current hnew)⟩

theorem leads_contributed (c : Nat) (parent : Box) (s : Scene α) :
    Leads (contributed c parent) s fun added t =>
      s.Spares ∅ {c} t ∧ added = t.contributions c ∧
        ∀ child, s.component? c = some child → t.Offered parent c child := by
  unfold contributed
  refine leads_bind.2 (leads_get.2 ?_)
  split
  · next hnone =>
    have hgone := Option.map_eq_none_iff.1 hnone
    refine leads_pure.2 ⟨Std.Refl.refl s, ?_, fun child hchild => nomatch hgone.symm.trans hchild⟩
    unfold contributions
    rw [hgone]
  · next box hbox =>
    obtain ⟨comp, hcomp, rfl⟩ := Option.map_eq_some_iff.1 hbox
    have hu : s.Spares ∅ ∅ (s.fresh (parent.insideConstraints comp.box)).2 := through_fresh _ s
    refine leads_bind.2 (leads_modifyGet.2 ?_)
    generalize hcontainment : (s.fresh (parent.insideConstraints comp.box)).1 = containment
    generalize (s.fresh (parent.insideConstraints comp.box)).2 = u at hu
    refine leads_bind.2 ((leads_hintConstraints c u).mono fun hints v hv => ?_)
    have hboth : s.Spares ∅ ∅ v := IsTrans.trans _ _ _ hu hv.spares
    obtain ⟨comp', hcomp', hfollows⟩ := hboth.agree.exists_after hcomp
    set f : Component α → Component α := fun a => { a with containment, hints }
    have hafter := component?_update_self hcomp' f
    have hgiven : v.Spares ∅ {c} (v.update c f) :=
      spares_update fun a _ => a.follows_told containment hints rfl
    have hdone : u.Spares ∅ {c} (v.update c f) := IsTrans.trans _ _ _ hv.spares.widen hgiven
    refine leads_bind.2 (leads_modify.2 (leads_pure.2 ⟨IsTrans.trans _ _ _ hu.widen hdone,
      (contributions_eq hafter).symm, fun child hchild => ⟨⟨_, s.nextConstraint, hafter, ?_⟩,
        fun hnew => ?_⟩⟩))
    · exact hcontainment.symm.trans (congrArg (parent.insideConstraints · _) hfollows.box.symm)
    · cases hcomp.symm.trans hchild
      obtain ⟨a, ha, hkept⟩ := hu.agree.exists_after hcomp
      obtain ⟨first, hfirst⟩ := hv.current a ha
        ((hkept.state (Set.notMem_empty c)).isInitialized.trans hnew)
      refine ⟨_, first, hafter, ?_⟩
      rw [hdone.agree.nativeHint hdone.toCalm, hdone.agree.policyAt hdone.toCalm]
      exact hfirst.trans (congrArg (fun box => Box.hintConstraints box _ _ _)
        (hkept.box.trans hfollows.box.symm))

theorem leads_contributedAll (parent : Box) {cs : List Nat} (hnodup : cs.Nodup) (s : Scene α) :
    Leads (contributedAll parent cs) s fun added t =>
      s.Spares ∅ {k | k ∈ cs} t ∧ added = cs.flatMap t.contributions ∧
        ∀ k ∈ cs, ∀ child, s.component? k = some child → t.Offered parent k child := by
  induction cs generalizing s with
  | nil => exact leads_pure.2 ⟨Std.Refl.refl s, rfl, nofun⟩
  | cons c rest ih =>
    obtain ⟨hc, hrest⟩ := List.nodup_cons.1 hnodup
    unfold contributedAll
    refine leads_bind.2 ((leads_contributed c parent s).mono fun first t ht => ?_)
    refine leads_bind.2 ((ih hrest t).mono fun more u hu => leads_pure.2 ⟨?_, ?_, ?_⟩)
    · refine IsTrans.trans _ _ _ (ht.1.mono subset_rfl ?_) (hu.1.mono subset_rfl ?_)
      · exact Set.singleton_subset_iff.2 (List.mem_cons_self ..)
      · exact fun k hk => List.mem_cons_of_mem _ hk
    · rw [List.flatMap_cons, ht.2.1, hu.2.1, hu.1.agree.contributions hc]
    · intro k hk child hchild
      rcases List.mem_cons.1 hk with rfl | hk'
      · exact hu.1.agree.offered hu.1.toCalm hc (ht.2.2 child hchild)
      · obtain ⟨child', hchild', hfollows⟩ := ht.1.agree.exists_after hchild
        have hoffered := hu.2.2 k hk' child' hchild'
        exact ⟨hoffered.contained, fun hnew => hoffered.current
          ((hfollows.state (Set.notMem_empty k)).isInitialized.trans hnew)⟩

/-! ### Setting a layout up -/

/-- What setting up the layout of a component comes to. -/
structure SetsUp (s : Scene α) (c : Nat) (comp : Component α) (r : Except LayoutError Unit)
    (t : Scene α) : Prop where
  spares : s.Spares {c} {k | k ∈ comp.children} t
  live : ∀ a, t.component? c = some a → a.live = comp.live
  offered : ∀ k ∈ comp.children, ∀ child, s.component? k = some child →
    t.Offered comp.box k child
  ok : r = .ok () → ∀ a, t.component? c = some a →
    (∃ first, a.Lists (t.expected [] a first) ∧ a.layout.Has (t.expected [] a first)) ∧
      a.appliedConstraints = a.userConstraints
  error : r ≠ .ok () → ∀ a, t.component? c = some a → a.layout.isInitialized = false

/-- What is set up is what belongs there, because what comes after it only probes. -/
theorem SetsUp.of_lists {u v w : Scene α} {a : Component α} {added : List (Constraint α)}
    (hgiven : s.Spares ∅ {k | k ∈ comp.children} u)
    (hadded : added = comp.children.flatMap u.contributions)
    (hoffered : ∀ k ∈ comp.children, ∀ child, s.component? k = some child →
      u.Offered comp.box k child)
    (hv : u.Spares {c} ∅ v) (hcv : v.component? c = some a) (htree : comp.SameTree a)
    (hlive : a.live = comp.live) (huser : a.userConstraints = comp.userConstraints)
    (happlied : a.appliedConstraints = comp.userConstraints)
    (hlists : a.Lists (comp.box.ownConstraints first ++ added ++ comp.userConstraints))
    (hhas : a.layout.Has (comp.box.ownConstraints first ++ added ++ comp.userConstraints))
    (hw : v.Spares ∅ ∅ w) : s.SetsUp c comp (.ok ()) w := by
  have huw : u.Spares {c} ∅ w := IsTrans.trans _ _ _ hv hw.widen
  refine ⟨IsTrans.trans _ _ _ (hgiven.mono (Set.empty_subset _) subset_rfl)
    (huw.mono subset_rfl (Set.empty_subset _)), fun b hb => ?_, fun k hk child hchild =>
      huw.agree.offered huw.toCalm (Set.notMem_empty k) (hoffered k hk child hchild),
    fun _ b hb => ?_, fun hr => absurd rfl hr⟩
  · obtain ⟨b', hb', hkept⟩ := hw.agree.exists_before hb
    cases hcv.symm.trans hb'
    exact (hkept.state (Set.notMem_empty c)).live.trans hlive
  · obtain ⟨b', hb', hkept⟩ := hw.agree.exists_before hb
    cases hcv.symm.trans hb'
    have hstate := hkept.state (Set.notMem_empty c)
    have hsame := htree.trans hkept.toSameTree
    have hexpected : w.expected [] b first
        = comp.box.ownConstraints first ++ added ++ comp.userConstraints := by
      have hgifts : w.contributions = u.contributions :=
        funext fun j => huw.agree.contributions (Set.notMem_empty j)
      rw [expected_nil, hsame.box, hsame.children, hstate.appliedConstraints, happlied, hgifts,
        ← hadded]
    refine ⟨⟨first, ?_, ?_⟩, ?_⟩
    · rw [hexpected]
      exact hstate.lists _ hlists
    · rw [hexpected]
      exact hhas.sameStock hstate.stock
    · rw [hstate.appliedConstraints, happlied, hstate.userConstraints, huser]

theorem leads_setUpLayout (hc : s.component? c = some comp)
    (hnew : comp.layout.isInitialized = false) (hnodup : comp.children.Nodup) :
    Leads (setUpLayout c).run s (s.SetsUp c comp) := by
  unfold setUpLayout
  refine leads_run_get_bind.2 ?_
  rw [hc]
  have hfresh : s.Spares ∅ ∅ (s.fresh comp.box.ownConstraints).2 := through_fresh _ s
  obtain ⟨first, hown⟩ : ∃ first, (s.fresh comp.box.ownConstraints).1
      = comp.box.ownConstraints first := ⟨_, rfl⟩
  refine leads_run_lift_bind.2 (leads_modifyGet.2 ?_)
  rw [hown]
  refine leads_run_lift_bind.2 ((leads_contributedAll _ hnodup _).mono fun added u hu => ?_)
  have hgiven : s.Spares ∅ {k | k ∈ comp.children} u := IsTrans.trans _ _ _ hfresh.widen hu.1
  have hoffered : ∀ k ∈ comp.children, ∀ child, s.component? k = some child →
      u.Offered comp.box k child := hu.2.2
  obtain ⟨a, ha, hfollows⟩ := hgiven.agree.exists_after hc
  have hstate := hfollows.state (Set.notMem_empty c)
  have hnone := Layout.isInitialized_eq_false_iff.1 (hstate.isInitialized.trans hnew)
  refine (leads_setUp ha hnone _).run_bind (fun _ v hv => ?_) fun e v hv => ?_
  · obtain ⟨hspares, layout, hv, hlists⟩ := hv
    obtain ⟨-, hlayout, hhas⟩ := hlists.resolve_right fun h => h.1 rfl
    have happlied : v.Spares {c} ∅ (v.update c fun b =>
        { b with appliedConstraints := comp.userConstraints }) :=
      spares_turn c (fun _ => ⟨rfl, rfl, rfl, rfl, rfl⟩) fun _ => ⟨rfl, rfl⟩
    have htree := hfollows.toSameTree
    refine leads_run_modify_bind.2 (leads_run_lift.2 ?_)
    refine (through_tellBounds c _).mono fun _ w hw => .of_lists hgiven hu.2.1 hoffered
      (IsTrans.trans _ _ _ hspares (IsTrans.trans _ _ _ happlied (spares_note ..)))
      ((component?_note ..).trans (component?_update_self hv _))
      ⟨htree.widgetClass, htree.object, htree.box, htree.parent, htree.children⟩ hstate.live
      hstate.userConstraints rfl (fun _ => hlayout) hhas hw
  · obtain ⟨hspares, layout, hv, hrefused⟩ := hv
    refine ⟨IsTrans.trans _ _ _ (hgiven.mono (Set.empty_subset _) subset_rfl)
      (hspares.mono subset_rfl (Set.empty_subset _)), fun b hb => ?_, fun k hk child hchild =>
        hspares.agree.offered hspares.toCalm (Set.notMem_empty k) (hoffered k hk child hchild),
      nofun, fun _ b hb => ?_⟩
    · cases hv.symm.trans hb
      exact hstate.live
    · cases hv.symm.trans hb
      exact Layout.isInitialized_eq_false_iff.2 (hrefused.resolve_left fun h => nomatch h.1).2

/-! ### Making components live -/

omit [Scalar α] in
/-- A component is live, if there is one. -/
def IsLive (s : Scene α) (k : Nat) : Prop := ∀ comp, s.component? k = some comp → comp.live = true

/-- A scene that is still sound, with the same tree and the same tasks, and in which no component has
ceased to be live. -/
structure Rises (late owed : List Nat) (s t : Scene α) : Prop where
  spares : s.Spares Set.univ Set.univ t
  sound : t.Sound late owed
  live : ∀ k, s.IsLive k → t.IsLive k

theorem Rises.refl (h : s.Sound late owed) : s.Rises late owed s :=
  ⟨Std.Refl.refl s, h, fun _ hk => hk⟩

theorem Rises.trans {u : Scene α} (h : s.Rises late owed t) (h' : t.Rises late owed u) :
    s.Rises late owed u :=
  ⟨IsTrans.trans _ _ _ h.spares h'.spares, h'.sound, fun k hk => h'.live k (h.live k hk)⟩

/-- Late children are those of live components. -/
def LateLive (s : Scene α) (late : List Nat) : Prop :=
  ∀ j ∈ late, ∀ p, j ∈ s.children p → s.IsLive p

theorem LateLive.rises (h : s.LateLive late) (ht : s.Rises late owed t) : t.LateLive late := by
  intro j hj p hp
  rw [ht.spares.agree.children] at hp
  exact ht.live p (h j hj p hp)

theorem Sound.children_nodup (h : s.Sound late owed) (hc : s.component? c = some comp) :
    comp.children.Nodup :=
  children_eq hc ▸ h.nodup c

theorem Sound.exists_child (h : s.Sound late owed) (hk : k ∈ s.children p) :
    ∃ child, s.component? k = some child :=
  let ⟨child, hchild, _⟩ := (h.family p k).1 hk
  ⟨child, hchild⟩

theorem Sound.not_isInitialized (h : s.Sound late owed) (hc : s.component? c = some comp)
    (hlive : comp.live = false) : comp.layout.isInitialized = false := by
  by_contra hinit
  have hfits := h.fits c comp hc (Bool.eq_true_of_not_eq_false hinit)
  cases hlive.symm.trans hfits.live

/-- When it was the turn of a component that is not live, others are as live as before. -/
theorem Rises.of_turn (h : s.Sound late owed) (hc : s.component? c = some comp)
    (hdormant : comp.live = false) (hspares : s.Spares {c} T t)
    (hT : ∀ k ∈ T, k ∈ s.children c)
    (hfits : ∀ a, t.component? c = some a → a.layout.isInitialized = true →
      t.Fits late owed c a) : s.Rises late owed t where
  spares := hspares.mono (Set.subset_univ _) (Set.subset_univ _)
  sound := h.step_one hspares.stirs hT (fun _ hk => .inr hk) hfits
  live k hk b hb := by
    obtain ⟨a, ha, hfollows⟩ := hspares.agree.exists_before hb
    by_cases hkc : k = c
    · subst hkc
      cases hc.symm.trans ha
      cases hdormant.symm.trans (hk comp hc)
    · exact (hfollows.state hkc).live.trans (hk a ha)

/-- A component that has been set up fits once it is live. -/
theorem SetsUp.fits {u : Scene α} (hu : s.SetsUp c comp (.ok ()) u)
    (hc : s.component? c = some comp)
    (hkids : ∀ j ∈ comp.children, ∃ child, s.component? j = some child)
    (hlate : ∀ j ∈ comp.children, j ∉ late)
    (hchildren : comp.children ≠ []) (ht : u.Spares {c} ∅ t) {a b : Component α}
    (hb : u.component? c = some b) (htree : b.SameTree a) (hlists : ∀ cs, b.Lists cs → a.Lists cs)
    (happlied : a.appliedConstraints = b.appliedConstraints)
    (huser : a.userConstraints = b.userConstraints) (hlive : a.live = true) :
    t.Fits late owed c a := by
  obtain ⟨comp', hcomp', hfollows⟩ := hu.spares.agree.exists_before hb
  cases hc.symm.trans hcomp'
  obtain ⟨⟨first, hfirst, -⟩, hasked⟩ := hu.ok rfl b hb
  refine ⟨hlive, ?_, ⟨first, ?_⟩, fun j hj _ => ?_, .inl ?_⟩
  · rw [htree.children, hfollows.children]
    rwa [List.filter_eq_self.2 fun j hj => decide_eq_true (hlate j hj)]
  · rw [expected_congr htree happlied
      (fun j hj => iff_of_false List.not_mem_nil (hlate j (hfollows.children ▸ hj)))
      (fun j _ _ => ht.agree.contributions (Set.notMem_empty j)) first]
    exact hlists _ hfirst
  · rw [htree.children, hfollows.children] at hj
    rw [htree.box, hfollows.box]
    obtain ⟨child, hchild⟩ := hkids j hj
    exact ht.agree.contained (Set.notMem_empty j) (hu.offered j hj child hchild).contained
  · rw [happlied, hasked, huser]

theorem leads_activateOne (h : s.Sound late owed) (hlate : s.LateLive late) (c : Nat) :
    Leads (activateOne c).run s fun _ t => s.Rises late owed t := by
  unfold activateOne
  refine leads_run_get_bind.2 ?_
  split
  · exact leads_run_pure.2 (.refl h)
  · next comp hc =>
    split
    · exact leads_run_pure.2 (.refl h)
    · next hlive =>
      have hdormant := Bool.eq_false_of_not_eq_true hlive
      have hnew := h.not_isInitialized hc hdormant
      have hfinish (u : Scene α) : u.Spares {c} ∅ (u.update c fun a =>
          { a with needsConstraints := false, needsLayout := false, live := true }) :=
        spares_turn c (fun _ => ⟨rfl, rfl, rfl, rfl, rfl⟩) fun _ => ⟨rfl, rfl⟩
      have hgiven : ∀ k ∈ {k | k ∈ comp.children}, k ∈ s.children c :=
        fun k hk => children_eq hc ▸ hk
      split
      · next hparent =>
        refine (leads_setUpLayout hc hnew (h.children_nodup hc)).run_bind (fun _ u hu => ?_)
          fun e u hu => ?_
        · refine leads_run_modify.2 (.of_turn h hc hdormant (IsTrans.trans _ _ _ hu.spares
            ((hfinish u).mono subset_rfl (Set.empty_subset _))) hgiven fun b hb _ => ?_)
          obtain ⟨a, ha, rfl⟩ := exists_of_component?_update hb
          have hapart : ∀ j ∈ comp.children, j ∉ late := fun j hj hjlate =>
            hlive (hlate j hjlate c (hgiven j hj) comp hc)
          have hsome : comp.children ≠ [] := by
            rintro hnone
            unfold Component.hasChildren at hparent
            rw [hnone] at hparent
            cases hparent
          exact hu.fits hc (fun j hj => h.exists_child (hgiven j hj)) hapart hsome (hfinish u) ha
            ⟨rfl, rfl, rfl, rfl, rfl⟩ (fun _ h => h) rfl rfl rfl
        · refine .of_turn h hc hdormant hu.spares hgiven fun a ha hinit => ?_
          cases (hu.error nofun a ha).symm.trans hinit
      · refine leads_run_modify.2 (.of_turn h hc hdormant (hfinish s) nofun fun b hb hinit => ?_)
        obtain ⟨a, ha, rfl⟩ := exists_of_component?_update hb
        cases hc.symm.trans ha
        cases hnew.symm.trans hinit

/-- However far the pass down a tree comes. -/
theorem leads_activate (h : s.Sound late owed) (hlate : s.LateLive late) (c : Nat) :
    Leads (activate c).run s fun _ t => s.Rises late owed t := by
  refine leads_run_get_bind.2 ?_
  generalize s.dormant s.components.size c = cs
  induction cs generalizing s with
  | nil => exact leads_run_pure.2 (.refl h)
  | cons c rest ih =>
    refine (leads_activateOne h hlate c).run_bind (fun _ t ht => ?_) fun _ _ ht => ht
    exact (ih ht.sound (hlate.rises ht)).mono fun _ _ => ht.trans

end Scene

end ReactiveView
