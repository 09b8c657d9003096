import ReactiveView.Proofs.Component.Passes

/-!
This module contains that a scene stays sound when a child is attached. From then on the child is late
until its parent's solver lists what it gives; if that cannot be, it is detached again, and no task
has been queued for it.
-/

namespace ReactiveView

namespace Scene

variable {α : Type} {s t : Scene α} {S T : Set Nat} {late late' owed : List Nat}
  {c k p first : Nat} {comp child parent : Component α}

/-! ### Changes of the tree -/

theorem component?_attach (s : Scene α) (p c k : Nat) :
    (s.attach p c).component? k = (s.component? k).map fun a => { a with
      parent := if k = c then some p else a.parent
      children := if k = p then a.children ++ [c] else a.children } := by
  unfold attach
  rw [component?_update, component?_update]
  rcases s.component? k with _ | a
  · split <;> split <;> rfl
  · split <;> split <;> rfl

theorem component?_detach (s : Scene α) (p c k : Nat) :
    (s.detach p c).component? k = (s.component? k).map fun a => { a with
      parent := if k = c then none else a.parent
      children := if k = p then a.children.filter fun j => j != c else a.children } := by
  unfold detach
  rw [component?_update, component?_update]
  rcases s.component? k with _ | a
  · split <;> split <;> rfl
  · split <;> split <;> rfl

theorem children_attach (hp : s.component? p = some parent) (c k : Nat) :
    (s.attach p c).children k = if k = p then s.children k ++ [c] else s.children k := by
  unfold children
  rw [component?_attach]
  rcases eq_or_ne k p with rfl | hne
  · rw [if_pos rfl, hp, Option.map_some]
    exact if_pos rfl
  · rw [if_neg hne]
    rcases s.component? k with _ | a
    · rfl
    · exact if_neg hne

theorem mem_children_attach (hp : s.component? p = some parent) (c : Nat) :
    c ∈ (s.attach p c).children p := by
  rw [children_attach hp, if_pos rfl]
  exact List.mem_append_right _ (List.mem_singleton_self c)

theorem live_attach (hp : s.component? p = some parent)
    (ha : (s.attach p c).component? p = some a) : a.live = parent.live := by
  rw [component?_attach, hp, Option.map_some] at ha
  cases ha
  rfl

theorem children_detach (s : Scene α) (p c k : Nat) :
    (s.detach p c).children k
      = if k = p then (s.children k).filter fun j => j != c else s.children k := by
  unfold children
  rw [component?_detach]
  rcases s.component? k with _ | a
  · exact (ite_self _).symm
  · rfl

theorem contributions_attach (s : Scene α) (p c : Nat) :
    (s.attach p c).contributions = s.contributions := by
  funext k
  unfold contributions
  rw [component?_attach]
  rcases s.component? k with _ | a <;> rfl

theorem contributions_detach (s : Scene α) (p c : Nat) :
    (s.detach p c).contributions = s.contributions := by
  funext k
  unfold contributions
  rw [component?_detach]
  rcases s.component? k with _ | a <;> rfl

variable [Scalar α]

theorem contained_attach {box : Box} (p c : Nat) (h : s.Contained box k) :
    (s.attach p c).Contained box k := by
  obtain ⟨child, first, hchild, hcontainment⟩ := h
  exact ⟨_, first, (component?_attach s p c k).trans (congrArg _ hchild), hcontainment⟩

theorem contained_detach {box : Box} (p c : Nat) (h : s.Contained box k) :
    (s.detach p c).Contained box k := by
  obtain ⟨child, first, hchild, hcontainment⟩ := h
  exact ⟨_, first, (component?_detach s p c k).trans (congrArg _ hchild), hcontainment⟩

/-- Only the children that are not late count. -/
theorem Fits.retree (h : s.Fits late owed k comp) {up : Option Nat} {kids : List Nat}
    (hkids : (kids.filter fun k => decide (k ∉ late'))
      = comp.children.filter fun k => decide (k ∉ late))
    (hgifts : t.contributions = s.contributions)
    (hinside : ∀ box j, s.Contained box j → t.Contained box j) (hqueue : t.queue = s.queue) :
    t.Fits late' owed k { comp with parent := up, children := kids } where
  live := h.live
  children := by
    rw [hkids]
    exact h.children
  lists := by
    obtain ⟨first, hfirst⟩ := h.lists
    refine ⟨first, ?_⟩
    have hsame : t.expected late' { comp with parent := up, children := kids } first
        = s.expected late comp first := by
      unfold expected
      rw [hkids, hgifts]
    rw [hsame]
    exact hfirst
  inside j hj hlate := by
    have hmem : j ∈ kids.filter fun k => decide (k ∉ late') :=
      List.mem_filter.2 ⟨hj, decide_eq_true hlate⟩
    rw [hkids, List.mem_filter, decide_eq_true_eq] at hmem
    exact hinside _ j (h.inside j hmem.1 hmem.2)
  applied := by
    rw [hqueue]
    exact h.applied

theorem Sound.attach (h : s.Sound [] owed) (hc : s.component? c = some child)
    (hdetached : child.parent = none) (hp : s.component? p = some parent) :
    (s.attach p c).Sound [c] owed := by
  have hfree (q : Nat) : c ∉ s.children q := by
    intro hcq
    obtain ⟨child', hchild', hparent'⟩ := (h.family q c).1 hcq
    cases hc.symm.trans hchild'
    cases hdetached.symm.trans hparent'
  have hmem (q k : Nat) : k ∈ (s.attach p c).children q ↔ k ∈ s.children q ∨ q = p ∧ k = c := by
    rw [children_attach hp]
    split
    · next hq => rw [List.mem_append, List.mem_singleton, and_iff_right hq]
    · next hq => exact (or_iff_left fun h => hq h.1).symm
  refine ⟨fun q k => ?_, fun q => ?_, fun q k htask => ?_, fun k comp' hcomp' hinit => ?_⟩
  · rw [hmem, component?_attach]
    rcases eq_or_ne k c with rfl | hne
    · rw [hc, or_iff_right (hfree q)]
      constructor
      · rintro ⟨rfl, -⟩
        exact ⟨_, rfl, if_pos rfl⟩
      · rintro ⟨child', hchild', hparent'⟩
        cases hchild'
        have hup : some p = some q := (if_pos rfl).symm.trans hparent'
        exact ⟨(Option.some_inj.1 hup).symm, rfl⟩
    · rw [or_iff_left fun h => hne h.2, h.family]
      constructor
      · rintro ⟨a, ha, hparent⟩
        exact ⟨_, by rw [ha, Option.map_some], by rw [if_neg hne, hparent]⟩
      · rintro ⟨a', ha', hparent⟩
        obtain ⟨a, ha, rfl⟩ := Option.map_eq_some_iff.1 ha'
        rw [if_neg hne] at hparent
        exact ⟨a, ha, hparent⟩
  · rw [children_attach hp]
    split
    · exact List.nodup_append.2 ⟨h.nodup q, List.nodup_singleton c, fun a ha b hb heq =>
        hfree q (List.mem_singleton.1 hb ▸ heq ▸ ha)⟩
    · exact h.nodup q
  · exact (hmem q k).2 (.inl (h.hints q k htask))
  · rw [component?_attach] at hcomp'
    obtain ⟨a, ha, rfl⟩ := Option.map_eq_some_iff.1 hcomp'
    refine (h.fits k a ha hinit).retree ?_ (contributions_attach s p c)
      (fun _ _ => contained_attach p c) rfl
    have hapart : ∀ j ∈ a.children, j ∈ [] ↔ j ∈ [c] := by
      intro j hj
      rw [List.mem_singleton]
      refine iff_of_false List.not_mem_nil fun hjc => hfree k ?_
      rw [children_eq ha, ← hjc]
      exact hj
    rw [← filter_late_congr hapart]
    split
    · rw [List.filter_append]
      simp
    · rfl

theorem Sound.detach (h : s.Sound [c] owed) (hchild : c ∈ s.children p)
    (hfree : ∀ q, .sizeHint q c ∉ s.queue.pending) : (s.detach p c).Sound [] owed := by
  have hapart (q : Nat) (hq : q ≠ p) : c ∉ s.children q := fun hcq => hq (h.parent_eq hcq hchild)
  have hmem (q k : Nat) : k ∈ (s.detach p c).children q ↔ k ∈ s.children q ∧ k ≠ c := by
    rw [children_detach]
    split
    · rw [List.mem_filter, bne_iff_ne]
    · next hq =>
      refine (and_iff_left_of_imp ?_).symm
      rintro hk rfl
      exact hapart q hq hk
  refine ⟨fun q k => ?_, fun q => ?_, fun q k htask => ?_, fun k comp' hcomp' hinit => ?_⟩
  · rw [hmem, h.family, component?_detach]
    constructor
    · rintro ⟨⟨a, ha, hparent⟩, hne⟩
      exact ⟨_, by rw [ha, Option.map_some], by rw [if_neg hne, hparent]⟩
    · rintro ⟨a', ha', hparent⟩
      obtain ⟨a, ha, rfl⟩ := Option.map_eq_some_iff.1 ha'
      split at hparent
      · cases hparent
      · next hne => exact ⟨⟨a, ha, hparent⟩, hne⟩
  · rw [children_detach]
    split
    · exact (h.nodup q).filter _
    · exact h.nodup q
  · refine (hmem q k).2 ⟨h.hints q k htask, ?_⟩
    rintro rfl
    exact hfree q htask
  · rw [component?_detach] at hcomp'
    obtain ⟨a, ha, rfl⟩ := Option.map_eq_some_iff.1 hcomp'
    refine (h.fits k a ha hinit).retree ?_ (contributions_detach s p c)
      (fun _ _ => contained_detach p c) rfl
    split
    · rw [List.filter_filter]
      exact List.filter_congr fun j _ => by rw [Bool.eq_iff_iff]; simp
    · next hk =>
      exact (filter_late_congr fun j hj => by
        rw [List.mem_singleton]
        exact iff_of_false (fun hjc => hapart k hk (children_eq ha ▸ hjc ▸ hj)) List.not_mem_nil)

/-! ### Taking a child in -/

/-- A late child is not late any more once it counts for its parent. -/
theorem Sound.included (h : s.Sound [c] owed) (hchild : c ∈ s.children p) (hst : s.Stirs {p} T t)
    (hT : ∀ k ∈ T, k ∈ s.children p)
    (hfits : ∀ comp, t.component? p = some comp → comp.layout.isInitialized = true →
      t.Fits [] owed p comp) : t.Sound [] owed := by
  refine h.step hst (fun k hk => ⟨p, rfl, hT k hk⟩) (fun k hk => ?_) (fun _ hk => .inr hk)
    fun k hk => ?_
  · rw [List.mem_singleton]
    refine iff_of_false ?_ List.not_mem_nil
    rintro rfl
    exact hk p rfl hchild
  · cases hk
    exact hfits

/-- A child comes in, or it is still late. Nothing is queued. -/
structure TakesIn (owed : List Nat) (c : Nat) (s : Scene α) (r : Except LayoutError Unit)
    (t : Scene α) : Prop where
  spares : s.Spares Set.univ Set.univ t
  ok : r = .ok () → t.Sound [] owed
  error : r ≠ .ok () → t.Sound [c] owed

theorem TakesIn.of_rises {u : Scene α} {r : Except LayoutError Unit} (h : s.Rises [c] owed t)
    (h' : t.TakesIn owed c r u) : s.TakesIn owed c r u :=
  ⟨IsTrans.trans _ _ _ h.spares h'.spares, h'.ok, h'.error⟩

/-- A running solver is handed what the child gives. -/
theorem leads_handIn (h : s.Sound [c] owed) (hchild : c ∈ s.children p)
    (hp : s.component? p = some parent) (hinit : parent.layout.isInitialized = true) :
    Leads (do
      let added ← Laying.sure (contributed c parent.box)
      tryLogged p fun l => l.replace [] added).run s (s.TakesIn owed c) := by
  have hfits := h.fits p parent hp hinit
  obtain ⟨first, hfirst⟩ := hfits.lists
  have hkids : c ∈ parent.children := children_eq hp ▸ hchild
  refine leads_run_lift_bind.2 ((leads_contributed c parent.box s).mono fun added t ht => ?_)
  obtain ⟨a, ha, hfollows⟩ := ht.1.agree.exists_after hp
  have hstate := hfollows.state (Set.notMem_empty p)
  -- What the child gives does not count yet, so that the same is expected as before.
  have hlists : a.Lists ([] ++ t.expected [c] a first) := by
    rw [List.nil_append, expected_congr hfollows.toSameTree hstate.appliedConstraints
      (fun _ _ => .rfl) (fun j _ hj => ht.1.agree.contributions fun heq => hj ?_) first]
    · exact hstate.lists _ hfirst
    · exact List.mem_singleton.2 heq
  refine (leads_replace ha hlists added).mono fun r u hu => ?_
  obtain ⟨hspares, layout, hu, hlisted⟩ := hu
  have hturn : s.Spares {p} {c} u :=
    IsTrans.trans _ _ _ (ht.1.mono (Set.empty_subset _) subset_rfl)
      (hspares.mono subset_rfl (Set.empty_subset _))
  have hgiven : ∀ k ∈ ({c} : Set Nat), k ∈ s.children p := by
    rintro k rfl
    exact hchild
  have htree := hfollows.toSameTree.trans (a.answered_sameTree r layout)
  have hrecord := hstate.toSameRecord.trans (a.answered_sameRecord r layout)
  have hdue : p ∈ owed ∨ .constraints p ∈ s.queue.pending →
      p ∈ owed ∨ .constraints p ∈ u.queue.pending := by
    rw [hturn.queue]
    exact id
  have hexpected (late : List Nat) :
      u.expected late (a.answered r layout) first = t.expected late a first :=
    expected_congr (a.answered_sameTree r layout) rfl (fun _ _ => .rfl)
      (fun j _ _ => hspares.agree.contributions (Set.notMem_empty j)) first
  have hothers : ∀ j ∈ parent.children, j ≠ c → u.Contained parent.box j := fun j hj hne =>
    hturn.agree.contained hne (hfits.inside j hj fun hjc => hne (List.mem_singleton.1 hjc))
  refine ⟨hturn.mono (Set.subset_univ _) (Set.subset_univ _), fun hok => ?_, fun hr => ?_⟩
  · refine h.included hchild hturn.stirs hgiven fun b hb _ => ?_
    cases hu.symm.trans hb
    refine hfits.relist hrecord hdue ?_ ⟨first, ?_⟩ fun j hj _ => ?_
    · rw [htree.children]
      exact List.ne_nil_of_mem (List.mem_filter.2 ⟨hkids, decide_eq_true List.not_mem_nil⟩)
    · rw [hexpected]
      have hswapped := (hlisted.resolve_right fun hr => hr.1 hok).2
      rw [ht.2.1] at hswapped
      exact hswapped.perm (expected_perm (hfollows.children ▸ h.children_nodup hp)
        (hfollows.children ▸ hkids) first)
    · rw [htree.children] at hj
      rw [htree.box]
      rcases eq_or_ne j c with rfl | hne
      · obtain ⟨child, hc⟩ := h.exists_child hchild
        exact hspares.agree.contained (Set.notMem_empty j) (ht.2.2 child hc).contained
      · exact hothers j hj hne
  · refine h.step_one hturn.stirs hgiven (fun _ hk => .inr hk) fun b hb _ => ?_
    cases hu.symm.trans hb
    refine hfits.relist hrecord hdue ?_ ⟨first, ?_⟩ fun j hj hjlate => ?_
    · rw [htree.children]
      exact hfits.children
    · rw [hexpected]
      exact (hlisted.resolve_left fun hok => hr hok.1).2
    · rw [htree.children] at hj
      rw [htree.box]
      exact hothers j hj fun hjc => hjlate (List.mem_singleton.2 hjc)

/-- Without a running solver the layout of the parent is set up. -/
theorem leads_setIn (h : s.Sound [c] owed) (hchild : c ∈ s.children p)
    (hp : s.component? p = some parent) (hnew : parent.layout.isInitialized = false)
    (hlive : parent.live = true) : Leads (setUpLayout p).run s (s.TakesIn owed c) := by
  have hkids : c ∈ parent.children := children_eq hp ▸ hchild
  have hgiven : ∀ k ∈ {k | k ∈ parent.children}, k ∈ s.children p := fun k hk =>
    children_eq hp ▸ hk
  refine (leads_setUpLayout hp hnew (h.children_nodup hp)).mono fun r t ht => ?_
  refine ⟨ht.spares.mono (Set.subset_univ _) (Set.subset_univ _), fun hok => ?_, fun hr => ?_⟩
  · subst hok
    refine h.included hchild ht.spares.stirs hgiven fun a ha _ => ?_
    exact ht.fits hp (fun j hj => h.exists_child (hgiven j hj)) (fun _ _ => List.not_mem_nil)
      (List.ne_nil_of_mem hkids) (Std.Refl.refl t) ha ⟨rfl, rfl, rfl, rfl, rfl⟩ (fun _ h => h) rfl
      rfl ((ht.live a ha).trans hlive)
  · refine h.step_one ht.spares.stirs hgiven (fun _ hk => .inr hk) fun a ha hinit => ?_
    cases (ht.error hr a ha).symm.trans hinit

theorem leads_takeIn (h : s.Sound [c] owed) (hchild : c ∈ s.children p) (hlive : s.IsLive p) :
    Leads (takeIn p c).run s (s.TakesIn owed c) := by
  have hlate : s.LateLive [c] := by
    intro j hj q hq
    cases List.mem_singleton.1 hj
    exact h.parent_eq hchild hq ▸ hlive
  unfold takeIn
  refine (leads_activate h hlate c).run_bind (fun _ t ht => ?_) fun e t ht => ?_
  · refine leads_run_get_bind.2 ?_
    have hchild' : c ∈ t.children p := by rwa [ht.spares.agree.children]
    split
    · next hnone =>
      unfold children at hchild'
      rw [hnone] at hchild'
      cases hchild'
    · next parent hp =>
      split
      · next hinit =>
        exact (leads_handIn ht.sound hchild' hp hinit).mono fun _ _ => .of_rises ht
      · next hinit =>
        have hnew := Bool.eq_false_of_not_eq_true hinit
        exact (leads_setIn ht.sound hchild' hp hnew (ht.live p hlive parent hp)).mono
          fun _ _ => .of_rises ht
  · exact ⟨ht.spares, nofun, fun _ => ht.sound⟩

/-- A detached component is attached for good, or it is detached again. -/
theorem leads_adopt (h : s.Sound [] owed) (hc : s.component? c = some child)
    (hdetached : child.parent = none) (hp : s.component? p = some parent) :
    Leads (adopt p c).run s fun _ t => t.Sound [] owed := by
  have hattached := h.attach hc hdetached hp
  have hchild : c ∈ (s.attach p c).children p := mem_children_attach hp c
  unfold adopt
  refine leads_run_get_bind.2 ?_
  rw [hp]
  refine leads_run_modify_bind.2 ?_
  dsimp only
  split
  · next hparent =>
    refine leads_run_lift_bind.2 ((leads_takeIn hattached hchild fun a ha =>
      (live_attach hp ha).trans hparent).mono fun r t ht => ?_)
    split
    · have hfree : ∀ q, .sizeHint q c ∉ t.queue.pending := by
        intro q hq
        rw [ht.spares.queue] at hq
        obtain ⟨child', hchild', hparent'⟩ := (h.family q c).1 (h.hints q c hq)
        cases hc.symm.trans hchild'
        cases hdetached.symm.trans hparent'
      refine leads_run_modify_bind.2 (leads_run_throw.2 ?_)
      exact (ht.error nofun).detach (ht.spares.agree.children p ▸ hchild) hfree
    · refine leads_run_lift_bind.2 ((through_tellBounds p t).mono fun _ u
        (hu : t.Spares ∅ ∅ u) => ?_)
      exact leads_run_modify.2 ((ht.ok rfl).stirs (IsTrans.trans _ _ _ hu.stirs
        (IsTrans.trans _ _ _ (stirs_invalidateLayout u p) (stirs_announceHint _ p))))
  · next hdormant =>
    refine leads_run_pure.2 (hattached.included hchild (Std.Refl.refl _ : Stirs {p} ∅ _ _) nofun ?_)
    intro a ha hinit
    exact absurd ((live_attach hp ha).symm.trans (hattached.fits p a ha hinit).live) hdormant

end Scene

end ReactiveView
