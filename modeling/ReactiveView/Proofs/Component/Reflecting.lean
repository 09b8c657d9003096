import ReactiveView.Proofs.Component.Adoption
import ReactiveView.Proofs.Component.Naming

/-!
This module contains that solvers reflect the size hints of children. Whatever a solver has been given
belongs there, also after it has broken down in the middle of a batch; the constraints of a child's
size hint are in it, unless they were refused when they were last renewed; and where a child has no
children itself, they are those of its present size hint, unless the task that renews them still waits.
-/

namespace ReactiveView

namespace Scene

variable {α : Type} [Scalar α] {s t : Scene α} {S T failed failed' host : Set Nat}
  {late late' owed : List Nat} {c k p : Nat} {comp comp' child parent : Component α}

/-- As long as its children are late, a component counts as one without children. -/
def Leaf (s : Scene α) (late : List Nat) (k : Nat) : Prop := s.children k ⊆ late

/-- The class of a component is honest. -/
def HonestAt (s : Scene α) (k : Nat) : Prop :=
  ∀ child, s.component? k = some child → child.widgetClass.Honest

/-- A solver shows the size hint of a child: it has the constraints that the child is remembered by,
and if the child is a leaf these are current or about to be renewed. -/
structure Shows (s : Scene α) (late : List Nat) (p : Nat) (comp : Component α) (k : Nat) :
    Prop where
  given : ∀ child, s.component? k = some child →
    ∀ x ∈ child.hints, comp.layout.given? x.id = some x
  current : s.Leaf late k → s.HonestAt k → .sizeHint p k ∈ s.queue.pending ∨ s.Current k

/-- A solver has nothing that does not belong there, and it shows the size hints of the children,
unless they are late or have failed. -/
structure Reflects (s : Scene α) (late : List Nat) (failed : Set Nat) (p : Nat)
    (comp : Component α) : Prop where
  neat : comp.layout.Neat
  within : ∃ first, comp.layout.Within (s.expected late comp first)
  shows : ∀ k ∈ comp.children, k ∉ late → k ∉ failed → s.Shows late p comp k

/-- All solvers reflect the size hints. -/
def Faithful (late : List Nat) (failed : Set Nat) (s : Scene α) : Prop :=
  ∀ p comp, s.component? p = some comp → comp.layout.isInitialized = true →
    s.Reflects late failed p comp

/-! ### Steps -/

omit [Scalar α] in
theorem Stirs.honestAt (h : s.Stirs S T t) (hk : t.HonestAt k) : s.HonestAt k := by
  intro child hchild
  obtain ⟨child', hchild', hfollows⟩ := h.agree.exists_after hchild
  rw [← hfollows.widgetClass]
  exact hk child' hchild'

omit [Scalar α] in
theorem Stirs.leaf (h : s.Stirs S T t) (hsub : late' ⊆ late) (hk : t.Leaf late' k) :
    s.Leaf late k := by
  unfold Leaf at hk ⊢
  rw [h.agree.children] at hk
  exact List.Subset.trans hk hsub

/-- A child is shown as before if it gives the same as before and the solver still has that. -/
theorem Shows.step (h : s.Shows late p comp k) (hst : s.Stirs S T t) (hk : k ∉ T)
    (hsub : late' ⊆ late)
    (hgiven : ∀ child, s.component? k = some child → ∀ x ∈ child.hints,
      comp.layout.given? x.id = some x → comp'.layout.given? x.id = some x) :
    t.Shows late' p comp' k where
  given child hchild x hx := by
    obtain ⟨child', hchild', hfollows⟩ := hst.agree.exists_before hchild
    rw [(hfollows.gifts hk).hints] at hx
    exact hgiven child' hchild' x hx (h.given child' hchild' x hx)
  current hleaf hhonest :=
    (h.current (hst.leaf hsub hleaf) (hst.honestAt hhonest)).imp (hst.kept _)
      (hst.agree.current hst.toCalm hk)

/-- Where it was not the turn of a component, it reflects what it reflected. -/
theorem Reflects.step (h : s.Reflects late failed p comp) (hst : s.Stirs S T t)
    (htree : comp.SameTree comp') (hstock : comp.layout.SameStock comp'.layout)
    (happlied : comp'.appliedConstraints = comp.appliedConstraints)
    (hkids : ∀ j ∈ comp.children, (j ∈ late ↔ j ∈ late') ∧ (j ∉ late → j ∉ T))
    (hsub : late' ⊆ late) (hfailed : ∀ j ∈ comp.children, j ∈ failed → j ∈ failed') :
    t.Reflects late' failed' p comp' := by
  obtain ⟨hneat, hgiven⟩ := hstock h.neat
  obtain ⟨first, hwithin⟩ := h.within
  refine ⟨hneat, ⟨first, ?_⟩, fun k hk hlate hnot => ?_⟩
  · rw [expected_congr htree happlied (fun j hj => (hkids j hj).1) (fun j hj hjlate =>
      hst.agree.contributions ((hkids j hj).2 hjlate)) first]
    exact hwithin.congr hgiven (List.Subset.refl _)
  · rw [htree.children] at hk
    have hold : k ∉ late := fun h => hlate ((hkids k hk).1.1 h)
    refine (h.shows k hk hold fun h => hnot (hfailed k hk h)).step hst ((hkids k hk).2 hold) hsub ?_
    intro child _ x _ hx
    rw [hgiven, hx]

theorem Faithful.step (h : s.Faithful late failed) (hs : s.Sound late owed) (hst : s.Stirs S T t)
    (hT : ∀ k ∈ T, ∃ p ∈ S, k ∈ s.children p) (hsub : late' ⊆ late)
    (hlate : ∀ k ∈ late, k ∉ late' → ∃ p ∈ S, k ∈ s.children p)
    (hfailed : ∀ k ∈ failed, k ∉ failed' → ∃ p ∈ S, k ∈ s.children p)
    (hS : ∀ p ∈ S, ∀ comp, t.component? p = some comp → comp.layout.isInitialized = true →
      t.Reflects late' failed' p comp) : t.Faithful late' failed' := by
  intro p comp' hcomp' hinit
  by_cases hp : p ∈ S
  · exact hS p hp comp' hcomp' hinit
  · obtain ⟨comp, hcomp, hfollows⟩ := hst.agree.exists_before hcomp'
    have hstate := hfollows.state hp
    have hapart : ∀ j ∈ comp.children, ¬∃ q ∈ S, j ∈ s.children q := by
      rintro j hj ⟨q, hq, hjq⟩
      rw [← children_eq hcomp] at hj
      exact hp (hs.parent_eq hjq hj ▸ hq)
    refine (h p comp hcomp (hstate.isInitialized.symm.trans hinit)).step hst hfollows.toSameTree
      hstate.stock hstate.appliedConstraints (fun j hj => ⟨⟨fun hjlate => ?_, fun hjlate => ?_⟩,
        fun _ hjT => hapart j hj (hT j hjT)⟩) hsub fun j hj hjfailed => ?_
    · exact by_contra fun hnot => hapart j hj (hlate j hjlate hnot)
    · exact hsub hjlate
    · exact by_contra fun hnot => hapart j hj (hfailed j hjfailed hnot)

theorem Faithful.stirs (h : s.Faithful late failed) (hst : s.Stirs ∅ ∅ t) :
    t.Faithful late failed := by
  intro p comp' hcomp' hinit
  obtain ⟨comp, hcomp, hfollows⟩ := hst.agree.exists_before hcomp'
  have hstate := hfollows.state (Set.notMem_empty p)
  exact (h p comp hcomp (hstate.isInitialized.symm.trans hinit)).step hst hfollows.toSameTree
    hstate.stock hstate.appliedConstraints (fun j _ => ⟨.rfl, fun _ => Set.notMem_empty j⟩)
    (List.Subset.refl late) fun _ _ hj => hj

/-- When it was the turn of one component and of its children. -/
theorem Faithful.step_one (h : s.Faithful late failed) (hs : s.Sound late owed)
    (hst : s.Stirs {p} T t) (hT : ∀ k ∈ T, k ∈ s.children p)
    (hp : ∀ comp, t.component? p = some comp → comp.layout.isInitialized = true →
      t.Reflects late failed p comp) : t.Faithful late failed :=
  h.step hs hst (fun k hk => ⟨p, rfl, hT k hk⟩) (List.Subset.refl late)
    (fun _ hk hnot => absurd hk hnot) (fun _ hk hnot => absurd hk hnot) fun q hq => by
      cases hq
      exact hp

/-! ### Becoming live -/

/-- A component with no children in time has no solver. -/
theorem Sound.not_isInitialized_of_leaf (h : s.Sound late owed) (hleaf : s.Leaf late k)
    (hk : s.component? k = some child) : child.layout.isInitialized = false := by
  by_contra hinit
  refine (h.fits k child hk (Bool.eq_true_of_not_eq_false hinit)).children ?_
  refine List.filter_eq_nil_iff.2 fun j hj => ?_
  rw [decide_eq_true_eq]
  exact fun hjlate => hjlate (hleaf (children_eq hk ▸ hj))

/-- What has been set up reflects all children. -/
theorem SetsUp.reflects {u : Scene α} (hu : s.SetsUp c comp (.ok ()) u) (hs : s.Sound late owed)
    (hc : s.component? c = some comp) (hsub : late' ⊆ late) (hlate : ∀ j ∈ comp.children, j ∉ late')
    (ht : u.Spares {c} ∅ t) {a b : Component α} (hb : u.component? c = some b)
    (htree : b.SameTree a) (hlayout : a.layout = b.layout)
    (happlied : a.appliedConstraints = b.appliedConstraints) : t.Reflects late' failed c a := by
  obtain ⟨comp', hcomp', hfollows⟩ := hu.spares.agree.exists_before hb
  cases hc.symm.trans hcomp'
  obtain ⟨⟨first, -, hhas⟩, -⟩ := hu.ok rfl b hb
  have hgifts (j : Nat) : t.contributions j = u.contributions j :=
    ht.agree.contributions (Set.notMem_empty j)
  refine ⟨hlayout ▸ hhas.neat, ⟨first, ?_⟩, fun k hk _ _ => ⟨fun child' hchild' x hx => ?_,
    fun hleaf _ => .inr ?_⟩⟩
  · rw [expected_congr htree happlied (fun j hj => iff_of_false List.not_mem_nil
      (hlate j (hfollows.children ▸ hj))) (fun j _ _ => hgifts j) first, hlayout]
    exact hhas.within
  · rw [htree.children] at hk
    have hmem : x ∈ u.expected [] b first := by
      rw [expected_nil]
      refine List.mem_append_left _ (List.mem_append_right _ (List.mem_flatMap.2 ⟨k, hk, ?_⟩))
      rw [← hgifts, contributions_eq hchild']
      exact List.mem_append_right _ hx
    rw [hlayout]
    exact (hhas.given?_eq_some_iff x.id x).2 ⟨hmem, rfl⟩
  · rw [htree.children, hfollows.children] at hk
    obtain ⟨child, hchild⟩ := hs.exists_child (children_eq hc ▸ hk)
    have hst := IsTrans.trans _ _ _ (hu.spares.mono subset_rfl (Set.subset_univ _)).stirs
      (ht.mono subset_rfl (Set.empty_subset Set.univ)).stirs
    have hnew := hs.not_isInitialized_of_leaf (hst.leaf hsub hleaf) hchild
    exact ht.agree.current ht.toCalm (Set.notMem_empty k) ((hu.offered k hk child hchild).current hnew)

theorem faithful_activateOne (h : s.Faithful late failed) (hs : s.Sound late owed)
    (hlate : s.LateLive late) (c : Nat) :
    Leads (activateOne c).run s fun _ t => t.Faithful late failed := by
  unfold activateOne
  refine leads_run_get_bind.2 ?_
  split
  · exact leads_run_pure.2 h
  · next comp hc =>
    split
    · exact leads_run_pure.2 h
    · next hlive =>
      have hnew := hs.not_isInitialized hc (Bool.eq_false_of_not_eq_true hlive)
      have hfinish (u : Scene α) : u.Spares {c} ∅ (u.update c fun a =>
          { a with needsConstraints := false, needsLayout := false, live := true }) :=
        spares_turn c (fun _ => ⟨rfl, rfl, rfl, rfl, rfl⟩) fun _ => ⟨rfl, rfl⟩
      have hgiven : ∀ k ∈ {k | k ∈ comp.children}, k ∈ s.children c :=
        fun k hk => children_eq hc ▸ hk
      split
      · refine (leads_setUpLayout hc hnew (hs.children_nodup hc)).run_bind (fun _ u hu => ?_)
          fun e u hu => ?_
        · have hst : s.Spares {c} {k | k ∈ comp.children} (u.update c fun a =>
              { a with needsConstraints := false, needsLayout := false, live := true }) :=
            IsTrans.trans _ _ _ hu.spares ((hfinish u).mono subset_rfl (Set.empty_subset _))
          refine leads_run_modify.2 (h.step_one hs hst.stirs hgiven fun b hb _ => ?_)
          obtain ⟨a, ha, rfl⟩ := exists_of_component?_update hb
          have hapart : ∀ j ∈ comp.children, j ∉ late := fun j hj hjlate =>
            hlive (hlate j hjlate c (hgiven j hj) comp hc)
          exact hu.reflects hs hc (List.Subset.refl late) hapart (hfinish u) ha
            ⟨rfl, rfl, rfl, rfl, rfl⟩ rfl rfl
        · refine h.step_one hs hu.spares.stirs hgiven fun a ha hinit => ?_
          cases (hu.error nofun a ha).symm.trans hinit
      · refine leads_run_modify.2 (h.step_one hs (hfinish s).stirs nofun fun b hb hinit => ?_)
        obtain ⟨a, ha, rfl⟩ := exists_of_component?_update hb
        cases hc.symm.trans ha
        cases hnew.symm.trans hinit

/-- However far the pass down a tree comes. -/
theorem faithful_activate (h : s.Faithful late failed) (hs : s.Sound late owed)
    (hlate : s.LateLive late) (c : Nat) :
    Leads (activate c).run s fun _ t => t.Faithful late failed := by
  refine leads_run_get_bind.2 ?_
  generalize s.dormant s.components.size c = cs
  induction cs generalizing s with
  | nil => exact leads_run_pure.2 h
  | cons c rest ih =>
    refine ((leads_activateOne hs hlate c).and (faithful_activateOne h hs hlate c)).run_bind
      (fun _ t ht => ?_) fun _ _ ht => ht.2
    exact ih ht.2 ht.1.sound (hlate.rises ht.1)

/-! ### Taking a child in -/

/-- A child that came in is shown, one that did not is still late. -/
structure ShowsIn (failed : Set Nat) (c : Nat) (r : Except LayoutError Unit) (t : Scene α) :
    Prop where
  ok : r = .ok () → t.Faithful [] failed
  error : r ≠ .ok () → t.Faithful [c] failed

/-- A running solver is handed what the child gives. -/
theorem faithful_handIn (h : s.Faithful [c] failed) (hs : s.Sound [c] owed)
    (hchild : c ∈ s.children p) (hp : s.component? p = some parent)
    (hinit : parent.layout.isInitialized = true) :
    Leads (do
      let added ← Laying.sure (contributed c parent.box)
      tryLogged p fun l => l.replace [] added).run s (ShowsIn failed c) := by
  have hreflects := h p parent hp hinit
  obtain ⟨first, hwithin⟩ := hreflects.within
  have hkids : c ∈ parent.children := children_eq hp ▸ hchild
  refine leads_run_lift_bind.2 ((leads_contributed c parent.box s).mono fun added t ht => ?_)
  obtain ⟨hgive, hadded, hoffered⟩ := ht
  obtain ⟨a, ha, hfollows⟩ := hgive.agree.exists_after hp
  have hstate := hfollows.state (Set.notMem_empty p)
  obtain ⟨hneat, hgiven⟩ := hstate.stock hreflects.neat
  refine (leads_supplant ha [] added).mono fun r u hu => ?_
  obtain ⟨hspares, layout, hu, hsupplants⟩ := hu
  have hturn : s.Spares {p} {c} u :=
    IsTrans.trans _ _ _ (hgive.mono (Set.empty_subset _) subset_rfl)
      (hspares.mono subset_rfl (Set.empty_subset _))
  have htree := hfollows.toSameTree.trans (a.answered_sameTree r layout)
  -- What the child gives does not count yet, so that the same is expected as before.
  have hbefore : a.layout.Within (t.expected [c] a first) := by
    rw [expected_congr hfollows.toSameTree hstate.appliedConstraints (fun _ _ => .rfl)
      (fun j _ hj => hgive.agree.contributions fun heq => hj (List.mem_singleton.2 heq)) first]
    exact hwithin.congr hgiven (List.Subset.refl _)
  have hexpected (late : List Nat) :
      u.expected late (a.answered r layout) first = t.expected late a first :=
    expected_congr (a.answered_sameTree r layout) rfl (fun _ _ => .rfl)
      (fun j _ _ => hspares.agree.contributions (Set.notMem_empty j)) first
  have hothers {late : List Nat} (hsub : late ⊆ [c])
      (hinit' : (a.answered r layout).layout.isInitialized = true) :
      ∀ k ∈ (a.answered r layout).children, k ≠ c → k ∉ failed →
        u.Shows late p (a.answered r layout) k := by
    intro k hk hne hnot
    rw [htree.children] at hk
    refine (hreflects.shows k hk (fun hkc => hne (List.mem_singleton.1 hkc)) hnot).step
      hturn.stirs hne hsub fun child _ x _ hx => ?_
    exact hsupplants.kept hinit' x.id x List.not_mem_nil ((congrFun hgiven x.id).trans hx)
  refine ⟨fun hok => ?_, fun hr => ?_⟩
  · refine h.step hs hturn.stirs ?_ (List.nil_subset _) ?_ (fun _ hk hnot => absurd hk hnot) ?_
    · rintro k rfl
      exact ⟨p, rfl, hchild⟩
    · intro k hk _
      exact ⟨p, rfl, List.mem_singleton.1 hk ▸ hchild⟩
    · rintro q rfl b hb hinit'
      cases hu.symm.trans hb
      refine ⟨hsupplants.neat hneat, ⟨first, hsupplants.within hbefore (fun _ => ?_)
        fun hr => absurd hok hr⟩, fun k hk _ hnot => ?_⟩
      · rw [hexpected]
        have hperm := expected_perm (s := t) (hfollows.children ▸ hs.children_nodup hp)
          (hfollows.children ▸ hkids) first
        exact ⟨fun x hx _ => hperm.subset (List.mem_append_left _ hx), fun x hx =>
          hperm.subset (List.mem_append_right _ (hadded ▸ hx))⟩
      · rcases eq_or_ne k c with rfl | hne
        · obtain ⟨child, hc⟩ := hs.exists_child hchild
          refine ⟨fun child' hchild' x hx => hsupplants.brought hok x ?_, fun hleaf _ => .inr ?_⟩
          · have hgifts := hspares.agree.contributions (Set.notMem_empty k)
            rw [hadded, ← hgifts, contributions_eq hchild']
            exact List.mem_append_right _ hx
          · have hnew := hs.not_isInitialized_of_leaf
              (hturn.stirs.leaf (List.nil_subset [k]) hleaf) hc
            exact hspares.agree.current hspares.toCalm (Set.notMem_empty k)
              ((hoffered child hc).current hnew)
        · exact hothers (List.nil_subset _) hinit' k hk hne hnot
  · refine h.step_one hs hturn.stirs ?_ fun b hb hinit' => ?_
    · rintro k rfl
      exact hchild
    · cases hu.symm.trans hb
      refine ⟨hsupplants.neat hneat, ⟨first, hsupplants.within hbefore (fun hok => absurd hok hr)
        fun _ => ?_⟩, fun k hk hlate hnot => hothers (List.Subset.refl _) hinit' k hk (fun heq =>
          hlate (List.mem_singleton.2 heq)) hnot⟩
      rw [hexpected]
      exact ⟨List.Subset.refl _, List.nil_subset _⟩

/-- Without a running solver the layout of the parent is set up. -/
theorem faithful_setIn (h : s.Faithful [c] failed) (hs : s.Sound [c] owed)
    (hchild : c ∈ s.children p) (hp : s.component? p = some parent)
    (hnew : parent.layout.isInitialized = false) :
    Leads (setUpLayout p).run s (ShowsIn failed c) := by
  have hgiven : ∀ k ∈ {k | k ∈ parent.children}, k ∈ s.children p := fun k hk =>
    children_eq hp ▸ hk
  refine (leads_setUpLayout hp hnew (hs.children_nodup hp)).mono fun r t ht => ?_
  refine ⟨fun hok => ?_, fun hr => ?_⟩
  · subst hok
    refine h.step hs ht.spares.stirs (fun k hk => ⟨p, rfl, hgiven k hk⟩) (List.nil_subset _)
      (fun k hk _ => ⟨p, rfl, List.mem_singleton.1 hk ▸ hchild⟩)
      (fun _ hk hnot => absurd hk hnot) ?_
    rintro q rfl a ha -
    exact ht.reflects hs hp (List.nil_subset _) (fun _ _ => List.not_mem_nil) (Std.Refl.refl t) ha
      ⟨rfl, rfl, rfl, rfl, rfl⟩ rfl rfl
  · refine h.step_one hs ht.spares.stirs hgiven fun a ha hinit => ?_
    cases (ht.error hr a ha).symm.trans hinit

theorem faithful_takeIn (h : s.Faithful [c] failed) (hs : s.Sound [c] owed)
    (hchild : c ∈ s.children p) (hlive : s.IsLive p) :
    Leads (takeIn p c).run s (ShowsIn failed c) := by
  have hlate : s.LateLive [c] := by
    intro j hj q hq
    cases List.mem_singleton.1 hj
    exact hs.parent_eq hchild hq ▸ hlive
  unfold takeIn
  refine ((leads_activate hs hlate c).and (faithful_activate h hs hlate c)).run_bind
    (fun _ t ht => ?_) fun e t ht => ⟨nofun, fun _ => ht.2⟩
  obtain ⟨hrises, ht⟩ := ht
  have hchild' : c ∈ t.children p := by rwa [hrises.spares.agree.children]
  refine leads_run_get_bind.2 ?_
  split
  · next hnone =>
    unfold children at hchild'
    rw [hnone] at hchild'
    cases hchild'
  · next parent hp =>
    split
    · next hinit => exact faithful_handIn ht hrises.sound hchild' hp hinit
    · next hinit =>
      exact faithful_setIn ht hrises.sound hchild' hp (Bool.eq_false_of_not_eq_true hinit)

/-! ### Changes of the tree -/

section Tree

variable {up : Nat → Component α → Option Nat} {kids : Nat → Component α → List Nat}
  (hcomp : ∀ k, t.component? k
    = (s.component? k).map fun a => { a with parent := up k a, children := kids k a })
  (hnetwork : t.network = s.network)

include hcomp hnetwork

/-- The place in the tree has nothing to do with a size hint. -/
theorem current_retree (h : s.Current k) : t.Current k := by
  obtain ⟨comp, first, hk, hhints⟩ := h
  have hattrs : t.attrs k = s.attrs k := by
    unfold attrs
    rw [hcomp, hk, hnetwork]
    rfl
  refine ⟨_, first, (hcomp k).trans (congrArg _ hk), hhints.trans ?_⟩
  rw [nativeHint_eq hk, nativeHint_eq ((hcomp k).trans (congrArg _ hk)), hattrs,
    policyAt_congr fun attr _ => congrArg (·.get? attr) hattrs]

/-- Only the children that are not late count. -/
theorem Reflects.retree (h : s.Reflects late failed p comp) (hqueue : t.queue = s.queue)
    (hkids : ((kids p comp).filter fun k => decide (k ∉ late'))
      = comp.children.filter fun k => decide (k ∉ late))
    (hleaf : ∀ k, t.Leaf late' k → s.Leaf late k) :
    t.Reflects late' failed p { comp with parent := up p comp, children := kids p comp } := by
  have hgifts : t.contributions = s.contributions := by
    funext k
    unfold contributions
    rw [hcomp]
    rcases s.component? k with _ | a <;> rfl
  obtain ⟨first, hwithin⟩ := h.within
  refine ⟨h.neat, ⟨first, ?_⟩, fun k hk hlate hnot => ?_⟩
  · have hsame : t.expected late' { comp with parent := up p comp, children := kids p comp } first
        = s.expected late comp first := by
      unfold expected
      rw [hkids, hgifts]
    rw [hsame]
    exact hwithin
  · have hmem : k ∈ (kids p comp).filter fun k => decide (k ∉ late') :=
      List.mem_filter.2 ⟨hk, decide_eq_true hlate⟩
    rw [hkids, List.mem_filter, decide_eq_true_eq] at hmem
    have hshows := h.shows k hmem.1 hmem.2 hnot
    refine ⟨fun child hchild => ?_, fun hk hhonest => ?_⟩
    · rw [hcomp] at hchild
      obtain ⟨a, ha, rfl⟩ := Option.map_eq_some_iff.1 hchild
      exact hshows.given a ha
    · rw [hqueue]
      refine (hshows.current (hleaf k hk) fun child hchild => ?_).imp_right
        (current_retree hcomp hnetwork)
      have hclass := hhonest _ ((hcomp k).trans (congrArg (Option.map _) hchild))
      exact hclass

end Tree

theorem Faithful.attach (h : s.Faithful [] failed) (hs : s.Sound [] owed)
    (hc : s.component? c = some child) (hdetached : child.parent = none)
    (hp : s.component? p = some parent) : (s.attach p c).Faithful [c] failed := by
  have hfree (q : Nat) : c ∉ s.children q := by
    intro hcq
    obtain ⟨child', hchild', hparent'⟩ := (hs.family q c).1 hcq
    cases hc.symm.trans hchild'
    cases hdetached.symm.trans hparent'
  intro k comp' hcomp' hinit
  rw [component?_attach] at hcomp'
  obtain ⟨a, ha, rfl⟩ := Option.map_eq_some_iff.1 hcomp'
  refine (h k a ha hinit).retree (component?_attach s p c) rfl rfl ?_ fun j hj => ?_
  · have hapart : ∀ j ∈ a.children, j ∈ [] ↔ j ∈ [c] := by
      intro j hj
      rw [List.mem_singleton]
      refine iff_of_false List.not_mem_nil fun hjc => hfree k ?_
      rw [children_eq ha, ← hjc]
      exact hj
    rw [← filter_late_congr hapart]
    split
    · rw [List.filter_append]
      simp
    · rfl
  · intro i hi
    have hic : i ∈ (s.attach p c).children j := by
      rw [children_attach hp]
      split
      · exact List.mem_append_left _ hi
      · exact hi
    exact absurd (List.mem_singleton.1 (hj hic) ▸ hi) (hfree j)

theorem Faithful.detach (h : s.Faithful [c] failed) (hs : s.Sound [c] owed)
    (hchild : c ∈ s.children p) : (s.detach p c).Faithful [] failed := by
  intro k comp' hcomp' hinit
  rw [component?_detach] at hcomp'
  obtain ⟨a, ha, rfl⟩ := Option.map_eq_some_iff.1 hcomp'
  refine (h k a ha hinit).retree (component?_detach s p c) rfl rfl ?_ fun j hj i hi => ?_
  · split
    · rw [List.filter_filter]
      exact List.filter_congr fun j _ => by rw [Bool.eq_iff_iff]; simp
    · next hk =>
      refine filter_late_congr fun j hj => ?_
      rw [List.mem_singleton]
      refine iff_of_false (fun hjc => hk ?_) List.not_mem_nil
      exact hs.parent_eq (children_eq ha ▸ hjc ▸ hj) hchild
  · refine List.mem_singleton.2 (by_contra fun hne => ?_)
    refine List.not_mem_nil (hj (?_ : i ∈ (s.detach p c).children j))
    rw [children_detach]
    split
    · exact List.mem_filter.2 ⟨hi, bne_iff_ne.2 hne⟩
    · exact hi

/-- A child that is attached is shown, or it is detached again. -/
theorem faithful_adopt (h : s.Faithful [] failed) (hs : s.Sound [] owed)
    (hc : s.component? c = some child) (hdetached : child.parent = none)
    (hp : s.component? p = some parent) :
    Leads (adopt p c).run s fun _ t => t.Faithful [] failed := by
  have hattached := hs.attach hc hdetached hp
  have hfaithful := h.attach hs hc hdetached hp
  have hchild : c ∈ (s.attach p c).children p := mem_children_attach hp c
  unfold adopt
  refine leads_run_get_bind.2 ?_
  rw [hp]
  refine leads_run_modify_bind.2 ?_
  dsimp only
  split
  · next hparent =>
    have hup : (s.attach p c).IsLive p := fun a ha => (live_attach hp ha).trans hparent
    refine leads_run_lift_bind.2 (((leads_takeIn hattached hchild hup).and
      (faithful_takeIn hfaithful hattached hchild hup)).mono fun r t ht => ?_)
    obtain ⟨hsound, ht⟩ := ht
    split
    · refine leads_run_modify_bind.2 (leads_run_throw.2 ?_)
      exact (ht.error nofun).detach (hsound.error nofun)
        (hsound.spares.agree.children p ▸ hchild)
    · refine leads_run_lift_bind.2 ((through_tellBounds p t).mono fun _ u
        (hu : t.Spares ∅ ∅ u) => ?_)
      exact leads_run_modify.2 ((ht.ok rfl).stirs (IsTrans.trans _ _ _ hu.stirs
        (IsTrans.trans _ _ _ (stirs_invalidateLayout u p) (stirs_announceHint _ p))))
  · next hdormant =>
    refine leads_run_pure.2 (hfaithful.step hattached (Std.Refl.refl _ : Stirs {p} ∅ _ _) nofun
      (List.nil_subset _) (fun k hk _ => ⟨p, rfl, List.mem_singleton.1 hk ▸ hchild⟩)
      (fun _ hk hnot => absurd hk hnot) ?_)
    rintro q rfl a ha hinit
    exact absurd ((live_attach hp ha).symm.trans (hattached.fits q a ha hinit).live) hdormant

end Scene

end ReactiveView
