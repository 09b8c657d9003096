import ReactiveView.Proofs.Component.Passes

/-!
This module contains that the tasks that wait, and what makes them wait, keep a scene sound. When other
constraints are asked of a component, a task is due. That task swaps the applied constraints for those
that were asked for last, or they count as refused. When a size hint has changed, the parent's solver
and the child's record of it are brought up to date together.
-/

namespace ReactiveView

namespace Scene

variable {α : Type} {s t : Scene α} {S T : Set Nat} {late owed : List Nat}
  {c k p first : Nat} {comp child parent : Component α} {rest hints cs : List (Constraint α)}

/-! ### Asking for constraints -/

theorem mem_schedule {task : Task} (hc : s.component? c = some comp) (hlive : comp.live = true)
    (hchildren : comp.children ≠ []) : task ∈ (s.schedule c task).queue.pending := by
  have hparent : comp.hasChildren = true := by
    unfold Component.hasChildren
    rw [List.isEmpty_eq_false_iff.2 hchildren]
    rfl
  unfold schedule
  rw [hc]
  dsimp only
  rw [hlive, hparent, Bool.and_true, if_pos rfl, Queue.pending_push]
  exact List.mem_append_right _ (List.mem_singleton_self task)

theorem component?_schedule (s : Scene α) (c : Nat) (task : Task) (k : Nat) :
    (s.schedule c task).component? k = s.component? k := by
  unfold schedule
  split
  · split <;> rfl
  · rfl

theorem stirs_invalidateConstraints (s : Scene α) (c : Nat) :
    s.Stirs {c} T (s.invalidateConstraints c) :=
  have hdue : s.Spares {c} T (s.update c fun comp => { comp with needsConstraints := true }) :=
    spares_update fun _ _ =>
      ⟨⟨rfl, rfl, rfl, rfl, rfl⟩, fun hown => absurd rfl hown, fun _ => ⟨rfl, rfl⟩⟩
  IsTrans.trans _ _ _ hdue.stirs (stirs_schedule _ c nofun)

variable [Scalar α]

/-- Other constraints are due from then on. -/
theorem Sound.constrain (h : s.Sound [] owed) (c : Nat) (cs : List (Constraint α)) :
    (s.constrain c cs).Sound [] owed := by
  set f : Component α → Component α := fun comp => { comp with userConstraints := cs }
  have hasked : s.Spares {c} ∅ (s.update c f) :=
    spares_turn c (fun _ => ⟨rfl, rfl, rfl, rfl, rfl⟩) fun _ => ⟨rfl, rfl⟩
  unfold Scene.constrain
  dsimp only
  split
  · next b hb =>
    obtain ⟨a, ha, rfl⟩ := exists_of_component?_update hb
    split
    · next hlive =>
      have hst : s.Stirs {c} ∅ ((s.update c f).invalidateConstraints c) :=
        IsTrans.trans _ _ _ hasked.stirs (stirs_invalidateConstraints _ c)
      refine Sound.stirs (h.step_one hst nofun (fun _ hk => .inr hk) fun b hb' hinit => ?_)
        (stirs_invalidateLayout _ c)
      have hdue := component?_update_self hb fun comp => { comp with needsConstraints := true }
      cases ((component?_schedule _ c (.constraints c) c).trans hdue).symm.trans hb'
      have hfits := h.fits c a ha hinit
      obtain ⟨first, hfirst⟩ := hfits.lists
      refine ⟨hfits.live, hfits.children, ⟨first, ?_⟩, fun j hj hlate =>
        hst.agree.contained (Set.notMem_empty j) (hfits.inside j hj hlate), .inr (.inr ⟨rfl, .inr ?_⟩)⟩
      · rw [expected_congr ⟨rfl, rfl, rfl, rfl, rfl⟩ rfl (fun _ _ => .rfl) (fun _ _ _ =>
          hst.agree.contributions (Set.notMem_empty _)) first]
        exact hfirst
      · exact mem_schedule hdue hlive fun hnone => hfits.children (by rw [hnone]; rfl)
    · next hdormant =>
      refine h.step_one hasked.stirs nofun (fun _ hk => .inr hk) fun b hb' hinit => ?_
      cases hb.symm.trans hb'
      exact absurd (h.fits c a ha hinit).live hdormant
  · next hnone =>
    refine h.step_one hasked.stirs nofun (fun _ hk => .inr hk) fun comp hcomp => ?_
    cases hnone.symm.trans hcomp

/-! ### Handing constraints over -/

/-- Whatever was still due before, nothing is afterwards. -/
theorem leads_handConstraintsOne (h : s.Sound [] owed) (howed : ∀ k ∈ owed, k = c) :
    Leads (handConstraintsOne c).run s fun _ t => t.Sound [] [] := by
  unfold handConstraintsOne
  refine leads_run_modify_bind.2 (leads_run_get_bind.2 ?_)
  set f : Component α → Component α := fun comp =>
    { comp with
      needsConstraints := false
      constraintPasses := comp.constraintPasses + 1
      refused := comp.layout.isInitialized }
  have hturn : s.Spares {c} ∅ (s.update c f) :=
    spares_turn c (fun _ => ⟨rfl, rfl, rfl, rfl, rfl⟩) fun _ => ⟨rfl, rfl⟩
  split
  · next hnone =>
    refine h.step_one hturn.stirs nofun (fun k hk => .inl (howed k hk)) fun comp hcomp => ?_
    cases hnone.symm.trans hcomp
  · next b hb =>
    obtain ⟨a, ha, rfl⟩ := exists_of_component?_update hb
    split
    · next hinit =>
      have hfits := h.fits c a ha hinit
      obtain ⟨first, hfirst⟩ := hfits.lists
      rw [expected_nil] at hfirst
      have hlists : (f a).Lists (a.appliedConstraints ++ (a.box.ownConstraints first
          ++ a.children.flatMap s.contributions)) := hfirst.perm List.perm_append_comm
      refine (leads_replace hb hlists a.userConstraints).run_bind (fun _ t ht => ?_) fun e t ht => ?_
      · obtain ⟨hspares, layout, ht, hlisted⟩ := ht
        have hswapped := (hlisted.resolve_right fun hr => hr.1 rfl).2
        set g : Component α → Component α := fun comp =>
          { comp with appliedConstraints := a.userConstraints, refused := false }
        have hdone : s.Spares {c} ∅ (t.update c g) := IsTrans.trans _ _ _ hturn
          (IsTrans.trans _ _ _ hspares
            (spares_turn c (fun _ => ⟨rfl, rfl, rfl, rfl, rfl⟩) fun _ => ⟨rfl, rfl⟩))
        have hsound : (t.update c g).Sound [] [] := by
          refine h.step_one hdone.stirs nofun (fun k hk => .inl (howed k hk)) fun b hb _ => ?_
          cases (component?_update_self ht g).symm.trans hb
          refine ⟨hfits.live, hfits.children, ⟨first, ?_⟩, fun j hj hlate =>
            hdone.agree.contained (Set.notMem_empty j) (hfits.inside j hj hlate), .inl rfl⟩
          rw [expected_nil, hdone.contributions]
          exact hswapped
        refine leads_run_modify_bind.2 (leads_run_lift_bind.2 ?_)
        refine (through_tellBounds c _).mono fun _ u (hu : Spares ∅ ∅ _ u) => leads_run_modify.2 ?_
        exact hsound.stirs (IsTrans.trans _ _ _ hu.stirs (stirs_announceHint u c))
      · obtain ⟨hspares, layout, ht, hlisted⟩ := ht
        have hkept := (hlisted.resolve_left fun hr => nomatch hr.1).2
        have hdone : s.Spares {c} ∅ t := IsTrans.trans _ _ _ hturn hspares
        refine h.step_one hdone.stirs nofun (fun k hk => .inl (howed k hk)) fun b hb _ => ?_
        cases ht.symm.trans hb
        refine ⟨hfits.live, hfits.children, ⟨first, ?_⟩, fun j hj hlate =>
          hdone.agree.contained (Set.notMem_empty j) (hfits.inside j hj hlate), .inr (.inl hinit)⟩
        rw [expected_nil, hdone.contributions]
        exact hkept.perm List.perm_append_comm
    · next hdormant =>
      refine leads_run_pure.2 (h.step_one hturn.stirs nofun (fun k hk => .inl (howed k hk))
        fun b hb' hinit => ?_)
      cases hb.symm.trans hb'
      exact absurd hinit hdormant

/-- Once nothing is due any more the pass goes on. -/
theorem leads_handConstraintsOnes (h : s.Sound [] []) (cs : List Nat) :
    Leads (cs.forM handConstraintsOne : Laying α Unit).run s fun _ t => t.Sound [] [] := by
  induction cs generalizing s with
  | nil => exact leads_run_pure.2 h
  | cons c rest ih =>
    exact (leads_handConstraintsOne h nofun).run_bind (fun _ t ht => ih ht) fun _ _ ht => ht

omit [Scalar α] in
theorem lt_size_of_component? (hc : s.component? c = some comp) : c < s.components.size := by
  by_contra hlarge
  unfold component? at hc
  rw [Array.getElem?_eq_none (Nat.le_of_not_lt hlarge)] at hc
  cases hc

/-- The pass goes down from the component that it is due for. -/
theorem leads_handConstraints (h : s.Sound [] owed) (howed : ∀ k ∈ owed, k = c)
    (hc : s.component? c = some comp) :
    Leads (handConstraints c).run s fun _ t => t.Sound [] [] := by
  obtain ⟨n, hn⟩ := Nat.exists_eq_add_one_of_ne_zero (Nat.ne_zero_of_lt (lt_size_of_component? hc))
  unfold handConstraints subtree
  refine leads_run_get_bind.2 ?_
  rw [hn]
  exact (leads_handConstraintsOne h howed).run_bind
    (fun _ t ht => leads_handConstraintsOnes ht _) fun _ _ ht => ht

/-! ### Size hints -/

omit [Scalar α] in
theorem exists_of_hasLayout (h : s.hasLayout k = true) :
    ∃ comp, s.component? k = some comp ∧ comp.layout.isInitialized = true := by
  unfold hasLayout at h
  split at h
  · next comp hcomp => exact ⟨comp, hcomp, h⟩
  · cases h

omit [Scalar α] in
theorem spares_gifts (c : Nat) (hints : List (Constraint α)) :
    s.Spares ∅ {c} (s.update c fun comp => { comp with hints }) :=
  spares_update fun a _ => a.follows_told a.containment hints rfl

/-- What a parent lists and what its child gives have changed together. -/
theorem Sound.regive (h : s.Sound [] owed) (hchild : c ∈ s.children p)
    (hp : s.component? p = some parent) (hinit : parent.layout.isInitialized = true)
    (hst : s.Stirs {p} {c} t) {a : Component α} (ha : t.component? p = some a)
    (hrecord : parent.SameRecord a) (front : List (Constraint α))
    (hgives : t.contributions c = front ++ hints) (hinside : t.Contained parent.box c)
    (hlists : a.Lists (hints ++ (front ++ s.expected [c] parent first))) : t.Sound [] owed := by
  have hgiven : ∀ k ∈ ({c} : Set Nat), k ∈ s.children p := by
    rintro k rfl
    exact hchild
  refine h.step_one hst hgiven (fun _ hk => .inr hk) fun b hb _ => ?_
  cases ha.symm.trans hb
  obtain ⟨parent', hparent', hfollows⟩ := hst.agree.exists_before ha
  cases hp.symm.trans hparent'
  have hfits := h.fits p parent hp hinit
  refine hfits.relist hrecord (Or.imp_right (hst.kept _)) ?_ ⟨first, ?_⟩ fun j hj hlate => ?_
  · rw [hfollows.children]
    exact hfits.children
  · have hothers : t.expected [c] a first = s.expected [c] parent first :=
      expected_congr hfollows.toSameTree hrecord.appliedConstraints (fun _ _ => .rfl)
        (fun j _ hj => hst.agree.contributions fun heq => hj (List.mem_singleton.2 heq)) first
    rw [← hothers] at hlists
    refine hlists.perm (expected_perm_hints ?_ ?_ hgives first).symm
    · exact hfollows.children ▸ h.children_nodup hp
    · exact hfollows.children ▸ children_eq hp ▸ hchild
  · rw [hfollows.children] at hj
    rw [hfollows.box]
    rcases eq_or_ne j c with rfl | hne
    · exact hinside
    · exact hst.agree.contained hne (hfits.inside j hj hlate)

theorem leads_renewHint (h : s.Sound [] owed) (hchild : c ∈ s.children p) :
    Leads (renewHint p c).run s fun _ t => t.Sound [] owed := by
  unfold renewHint
  refine leads_run_get_bind.2 ?_
  split
  · exact leads_run_pure.2 h
  · next child hc =>
    split
    · next hlayout =>
      obtain ⟨parent, hp, hinit⟩ := exists_of_hasLayout hlayout
      have hfits := h.fits p parent hp hinit
      obtain ⟨first, hfirst⟩ := hfits.lists
      refine leads_run_modify_bind.2 (leads_run_lift_bind.2 ?_)
      set f : Component α → Component α := fun comp => { comp with hints := [] }
      have htaken : s.Spares ∅ {c} (s.update c f) := spares_gifts c []
      refine (through_hintConstraints c _).mono fun hints u (hu : Spares ∅ ∅ _ u) => ?_
      have hsu : s.Spares ∅ {c} u := IsTrans.trans _ _ _ htaken hu.widen
      obtain ⟨a, ha, hfollows⟩ := hsu.agree.exists_after hp
      have hstate := hfollows.state (Set.notMem_empty p)
      have hlists : a.Lists (child.hints ++ (child.containment ++ s.expected [c] parent first)) :=
        hstate.lists _ (hfirst.perm (expected_perm_hints (h.children_nodup hp)
          (children_eq hp ▸ hchild) (contributions_eq hc) first))
      refine leads_run_lift_bind.2 ((leads_replace ha hlists hints).mono fun r v hv => ?_)
      obtain ⟨hspares, layout, hv, hlisted⟩ := hv
      have hmiddle : (s.update c f).Spares {p} ∅ v := IsTrans.trans _ _ _ hu.widen hspares
      obtain ⟨b, hb, hkept⟩ := hmiddle.agree.exists_after (component?_update_self hc f)
      -- Whichever hints the child is left with, it is those that the solver has.
      have hend : ∀ hints, (a.answered r layout).Lists
          (hints ++ (child.containment ++ s.expected [c] parent first)) →
            (v.update c fun comp => { comp with hints }).Sound [] owed := by
        intro hints hlists
        have hgiven : v.Spares ∅ {c} (v.update c fun comp => { comp with hints }) :=
          spares_gifts c _
        obtain ⟨a', ha', hfollows'⟩ := hgiven.agree.exists_after hv
        have hstate' := hfollows'.state (Set.notMem_empty p)
        have hafter := component?_update_self hb fun comp => { comp with hints }
        have hcontainment := (hkept.gifts (Set.notMem_empty c)).containment
        refine h.regive hchild hp hinit ?_ ha' ?_ child.containment ?_ ?_
          (hstate'.lists _ hlists)
        · exact IsTrans.trans _ _ _ (hsu.mono (Set.empty_subset _) subset_rfl).stirs
            (IsTrans.trans _ _ _ (hspares.mono subset_rfl (Set.empty_subset _)).stirs
              (hgiven.mono (Set.empty_subset _) subset_rfl).stirs)
        · exact (hstate.toSameRecord.trans (a.answered_sameRecord r layout)).trans
            hstate'.toSameRecord
        · rw [contributions_eq hafter, hcontainment]
        · obtain ⟨child', first', hchild', hheld⟩ :=
            hfits.inside c (children_eq hp ▸ hchild) List.not_mem_nil
          cases hc.symm.trans hchild'
          exact ⟨_, first', hafter, by rw [hcontainment, hheld, hkept.box]⟩
      split
      · next hr =>
        refine leads_run_modify_bind.2 (leads_run_throw.2 (hend _ ?_))
        exact (hlisted.resolve_left fun hok => nomatch hok.1).2
      · next hr =>
        refine leads_run_modify_bind.2 (leads_run_lift_bind.2 ?_)
        refine (through_tellBounds p _).mono fun _ w (hw : Spares ∅ ∅ _ w) => leads_run_modify.2 ?_
        refine (hend hints ?_).stirs (IsTrans.trans _ _ _ hw.stirs
          (IsTrans.trans _ _ _ (stirs_invalidateLayout w p) (stirs_announceHint _ p)))
        exact (hlisted.resolve_right fun hr => hr.1 rfl).2.perm List.perm_append_comm
    · exact leads_run_pure.2 h

end Scene

end ReactiveView
