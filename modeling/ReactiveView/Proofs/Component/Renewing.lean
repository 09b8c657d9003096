import ReactiveView.Proofs.Component.Reflecting
import ReactiveView.Proofs.Component.Runs

/-!
This module contains that the tasks that wait keep solvers faithful to the size hints of children. A
task that hands constraints over leaves the hints alone, since their names are apart. A task that
renews the hint of a child ends with the child shown, or with the child among those that failed.
-/

namespace ReactiveView

namespace Scene

variable {α : Type} [Scalar α] {s t : Scene α} {T failed host : Set Nat} {owed : List Nat}
  {c k p : Nat} {comp child parent : Component α}

/-! ### Handing constraints over -/

omit [Scalar α] in
theorem Named.id_not_mem_applied (h : s.Named host) (hc : s.component? c = some comp)
    (hk : s.component? k = some child) {x : Constraint α} (hx : x ∈ child.hints) :
    x.id ∉ comp.appliedConstraints.map Constraint.id := by
  intro hid
  obtain ⟨y, hy, hsame⟩ := List.mem_map.1 hid
  refine (h.hints k child hk x hx).2 (hsame ▸ h.asked c comp hc y ?_)
  exact List.mem_append_right _ hy

/-- A component whose constraints have been handed over, or refused, shows the hints as before. -/
theorem Reflects.hand (h : s.Reflects [] failed c comp) (hn : s.Named host)
    (hc : s.component? c = some comp) (hst : s.Spares {c} ∅ t) {a : Component α}
    (htree : comp.SameTree a) {new : List (Constraint α)} {r : Except LayoutError Unit}
    (hsupplants : comp.layout.Supplants comp.appliedConstraints new r a.layout)
    (hok : r = .ok () → a.appliedConstraints = new)
    (herror : r ≠ .ok () → a.appliedConstraints = comp.appliedConstraints)
    (hinit : a.layout.isInitialized = true) : t.Reflects [] failed c a := by
  obtain ⟨first, hwithin⟩ := h.within
  refine ⟨hsupplants.neat h.neat, ⟨first, ?_⟩, fun k hk _ hnot => ?_⟩
  · rw [expected_nil, hst.contributions, htree.box, htree.children]
    rw [expected_nil] at hwithin
    refine hsupplants.within hwithin (fun hr => ?_) fun hr => ?_
    · rw [hok hr]
      refine ⟨fun x hx hgone => ?_, List.subset_append_right ..⟩
      exact List.mem_append_left _ ((List.mem_append.1 hx).resolve_right hgone)
    · rw [herror hr]
      exact ⟨List.Subset.refl _, List.subset_append_right ..⟩
  · rw [htree.children] at hk
    refine (h.shows k hk List.not_mem_nil hnot).step hst.stirs (Set.notMem_empty k)
      (List.Subset.refl []) fun child hchild x hx hgiven => ?_
    exact hsupplants.kept hinit x.id x (hn.id_not_mem_applied hc hchild hx) hgiven

theorem faithful_handConstraintsOne (h : s.Faithful [] failed) (hs : s.Sound [] owed)
    (hn : s.Named host) (c : Nat) :
    Leads (handConstraintsOne c).run s fun _ t => t.Faithful [] failed := by
  unfold handConstraintsOne
  refine leads_run_modify_bind.2 (leads_run_get_bind.2 ?_)
  set f : Component α → Component α := fun comp =>
    { comp with
      needsConstraints := false
      constraintPasses := comp.constraintPasses + 1
      refused := comp.layout.isInitialized }
  have hturn : s.Spares {c} ∅ (s.update c f) :=
    spares_turn c (fun _ => ⟨rfl, rfl, rfl, rfl, rfl⟩) fun _ => ⟨rfl, rfl⟩
  split
  · next hnone =>
    refine h.step_one hs hturn.stirs nofun fun comp hcomp => ?_
    cases hnone.symm.trans hcomp
  · next b hb =>
    obtain ⟨a, ha, rfl⟩ := exists_of_component?_update hb
    split
    · next hinit =>
      have hreflects := h c a ha hinit
      refine (leads_supplant hb a.appliedConstraints a.userConstraints).run_bind
        (fun _ t ht => ?_) fun e t ht => ?_
      · obtain ⟨hspares, layout, ht, hsupplants⟩ := ht
        set g : Component α → Component α := fun comp =>
          { comp with appliedConstraints := a.userConstraints, refused := false }
        have hdone : s.Spares {c} ∅ (t.update c g) := IsTrans.trans _ _ _ hturn
          (IsTrans.trans _ _ _ hspares
            (spares_turn c (fun _ => ⟨rfl, rfl, rfl, rfl, rfl⟩) fun _ => ⟨rfl, rfl⟩))
        have hfaithful : (t.update c g).Faithful [] failed := by
          refine h.step_one hs hdone.stirs nofun fun b hb hinit => ?_
          cases (component?_update_self ht g).symm.trans hb
          exact hreflects.hand hn ha hdone ⟨rfl, rfl, rfl, rfl, rfl⟩ hsupplants (fun _ => rfl)
            (fun hr => absurd rfl hr) hinit
        refine leads_run_modify_bind.2 (leads_run_lift_bind.2 ?_)
        refine (through_tellBounds c _).mono fun _ u (hu : Spares ∅ ∅ _ u) => leads_run_modify.2 ?_
        exact hfaithful.stirs (IsTrans.trans _ _ _ hu.stirs (stirs_announceHint u c))
      · obtain ⟨hspares, layout, ht, hsupplants⟩ := ht
        have hdone : s.Spares {c} ∅ t := IsTrans.trans _ _ _ hturn hspares
        refine h.step_one hs hdone.stirs nofun fun b hb hinit => ?_
        cases ht.symm.trans hb
        exact hreflects.hand hn ha hdone ⟨rfl, rfl, rfl, rfl, rfl⟩ hsupplants nofun (fun _ => rfl)
          hinit
    · next hdormant =>
      refine leads_run_pure.2 (h.step_one hs hturn.stirs nofun fun b hb' hinit => ?_)
      cases hb.symm.trans hb'
      exact absurd hinit hdormant

/-- The pass goes down from the component that it is due for. -/
theorem faithful_handConstraints (h : s.Faithful [] failed) (hs : s.Sound [] owed)
    (hn : s.Named host) (howed : ∀ k ∈ owed, k = c) (hc : s.component? c = some comp) :
    Leads (handConstraints c).run s fun _ t => t.Faithful [] failed := by
  have hone {owed : List Nat} {s : Scene α} (h : s.Faithful [] failed) (hs : s.Sound [] owed)
      (hn : s.Named host) {d : Nat} (howed : ∀ k ∈ owed, k = d) :
      Leads (handConstraintsOne d).run s fun _ t =>
        t.Faithful [] failed ∧ t.Sound [] [] ∧ t.Named host :=
    ⟨faithful_handConstraintsOne h hs hn d, leads_handConstraintsOne hs howed,
      (names_handConstraintsOne d s).named hn⟩
  obtain ⟨n, hn'⟩ := Nat.exists_eq_add_one_of_ne_zero (Nat.ne_zero_of_lt (lt_size_of_component? hc))
  unfold handConstraints subtree
  refine leads_run_get_bind.2 ?_
  rw [hn']
  refine (hone h hs hn howed).run_bind (fun _ t ht => ?_) fun _ _ ht => ht.1
  generalize (s.children c).flatMap (s.descendants n) = cs
  induction cs generalizing t with
  | nil => exact leads_run_pure.2 ht.1
  | cons d rest ih =>
    exact (hone ht.1 ht.2.1 ht.2.2 nofun).run_bind (fun _ u hu => ih u hu) fun _ _ hu => hu.1

/-! ### Size hints -/

/-- Whose hints are not in the parent's solver after that of a child was renewed. -/
def failedAfter (failed : Set Nat) (c : Nat) : Except LayoutError Unit → Set Nat
  | .ok _ => failed \ {c}
  | .error _ => insert c failed

omit [Scalar α] in
theorem not_mem_of_not_mem_failedAfter {r : Except LayoutError Unit} (hne : k ≠ c)
    (h : k ∉ failedAfter failed c r) : k ∉ insert c failed := by
  rintro (rfl | hk)
  · exact hne rfl
  · cases r with
    | ok => exact h ⟨hk, hne⟩
    | error => exact h (.inr hk)

theorem mem_expected_nil_iff {first : Nat} {x : Constraint α} : x ∈ s.expected [] comp first ↔
    x ∈ comp.box.ownConstraints first ∨ (∃ j ∈ comp.children, x ∈ s.contributions j) ∨
      x ∈ comp.appliedConstraints := by
  rw [expected_nil, List.mem_append, List.mem_append, List.mem_flatMap, or_assoc]

/-- The parent of a child whose hint was renewed, or is the old one again. -/
theorem Reflects.renew (h : s.Reflects [] (insert c failed) p parent) (hn : s.Named host)
    (hc : s.component? c = some child) (hkids : c ∈ parent.children) (hst : s.Spares {p} {c} t)
    {a child' : Component α} (htree : parent.SameTree a)
    (happlied : a.appliedConstraints = parent.appliedConstraints)
    (hc' : t.component? c = some child') (hcontainment : child'.containment = child.containment)
    {new : List (Constraint α)} {r : Except LayoutError Unit}
    (hsupplants : parent.layout.Supplants child.hints new r a.layout)
    (hok : r = .ok () → child'.hints = new ∧ (t.Leaf [] c → t.Current c))
    (herror : r ≠ .ok () → child'.hints = child.hints) (hinit : a.layout.isInitialized = true) :
    t.Reflects [] (failedAfter failed c r) p a := by
  have hgives := contributions_eq hc
  have hgives' := contributions_eq hc'
  have hothers (j : Nat) (hj : j ≠ c) : t.contributions j = s.contributions j :=
    hst.agree.contributions hj
  obtain ⟨first, hwithin⟩ := h.within
  have hstays (x : Constraint α) (hx : x ∈ s.expected [] parent first)
      (hleft : x ∈ s.contributions c → x ∈ t.contributions c) : x ∈ t.expected [] a first := by
    rw [mem_expected_nil_iff] at hx
    rw [mem_expected_nil_iff, htree.box, htree.children, happlied]
    refine hx.imp_right (Or.imp_left ?_)
    rintro ⟨j, hj, hx⟩
    refine ⟨j, hj, ?_⟩
    rcases eq_or_ne j c with rfl | hne
    · exact hleft hx
    · rwa [hothers j hne]
  have hcomes (x : Constraint α) (hx : x ∈ child'.hints) : x ∈ t.expected [] a first := by
    refine mem_expected_nil_iff.2 (.inr (.inl ⟨c, htree.children ▸ hkids, ?_⟩))
    rw [hgives']
    exact List.mem_append_right _ hx
  refine ⟨hsupplants.neat h.neat, ⟨first, ?_⟩, fun k hk _ hnot => ?_⟩
  · refine hsupplants.within hwithin (fun hr => ?_) fun hr => ?_
    · refine ⟨fun x hx hgone => hstays x hx fun hx => ?_, fun x hx => hcomes x ((hok hr).1 ▸ hx)⟩
      rw [hgives] at hx
      rw [hgives', hcontainment]
      exact List.mem_append_left _ ((List.mem_append.1 hx).resolve_right hgone)
    · refine ⟨fun x hx => hstays x hx fun hx => ?_, fun x hx => hcomes x (herror hr ▸ hx)⟩
      rwa [hgives', hcontainment, herror hr, ← hgives]
  · rcases eq_or_ne k c with rfl | hne
    · have hr : r = .ok () := by
        cases r with
        | ok => rfl
        | error => exact absurd (.inl rfl) hnot
      obtain ⟨hnew, hcurrent⟩ := hok hr
      refine ⟨fun b hb x hx => hsupplants.brought hr x ?_, fun hleaf _ => .inr (hcurrent hleaf)⟩
      cases hc'.symm.trans hb
      exact hnew ▸ hx
    · rw [htree.children] at hk
      refine (h.shows k hk List.not_mem_nil (not_mem_of_not_mem_failedAfter hne hnot)).step
        hst.stirs hne (List.Subset.refl []) fun b hb x hx hgiven => ?_
      refine hsupplants.kept hinit x.id x (fun hid => ?_) hgiven
      obtain ⟨y, hy, hsame⟩ := List.mem_map.1 hid
      exact hn.apart k c b child hb hc hne x hx y hy hsame.symm

/-- Without a solver there is nothing in which a child could be missing. -/
theorem Faithful.forgive (h : s.Faithful [] (insert c failed)) (hs : s.Sound [] owed)
    (hchild : c ∈ s.children p) (hlayout : s.hasLayout p = false) :
    s.Faithful [] (failed \ {c}) := by
  intro q comp hq hinit
  obtain ⟨hneat, hwithin, hshows⟩ := h q comp hq hinit
  refine ⟨hneat, hwithin, fun k hk hlate hnot => hshows k hk hlate ?_⟩
  refine not_mem_of_not_mem_failedAfter (r := .ok ()) ?_ hnot
  rintro rfl
  cases hs.parent_eq hchild (children_eq hq ▸ hk)
  unfold hasLayout at hlayout
  rw [hq] at hlayout
  cases hinit.symm.trans hlayout

theorem faithful_renewHint (h : s.Faithful [] (insert c failed)) (hs : s.Sound [] owed)
    (hn : s.Named host) (hchild : c ∈ s.children p) :
    Leads (renewHint p c).run s fun r t => t.Faithful [] (failedAfter failed c r) := by
  unfold renewHint
  refine leads_run_get_bind.2 ?_
  split
  · next hnone =>
    obtain ⟨child, hc⟩ := hs.exists_child hchild
    cases hnone.symm.trans hc
  · next child hc =>
    split
    · next hlayout =>
      obtain ⟨parent, hp, hinit⟩ := exists_of_hasLayout hlayout
      have hreflects := h p parent hp hinit
      refine leads_run_modify_bind.2 (leads_run_lift_bind.2 ?_)
      set f : Component α → Component α := fun comp => { comp with hints := [] }
      have htaken : s.Spares ∅ {c} (s.update c f) := spares_gifts c []
      refine (leads_hintConstraints c _).mono fun hints u hu => ?_
      have hsu : s.Spares ∅ {c} u := IsTrans.trans _ _ _ htaken hu.spares.widen
      obtain ⟨a, ha, hfollows⟩ := hsu.agree.exists_after hp
      have hstate := hfollows.state (Set.notMem_empty p)
      refine leads_run_lift_bind.2 ((leads_supplant ha child.hints hints).mono fun r v hv => ?_)
      obtain ⟨hspares, layout, hv, hsupplants⟩ := hv
      have hmiddle : (s.update c f).Spares {p} ∅ v := IsTrans.trans _ _ _ hu.spares.widen hspares
      obtain ⟨b, hb, hkept⟩ := hmiddle.agree.exists_after (component?_update_self hc f)
      -- Whichever hints the child is left with, the parent's solver has those, or the child failed.
      have hend (left : List (Constraint α)) (hok : r = .ok () → left = hints)
          (herror : r ≠ .ok () → left = child.hints) :
          (v.update c fun comp => { comp with hints := left }).Faithful []
            (failedAfter failed c r) := by
        set g : Component α → Component α := fun comp => { comp with hints := left }
        have hgiven : v.Spares ∅ {c} (v.update c g) := spares_gifts c left
        have hdone : s.Spares {p} {c} (v.update c g) :=
          IsTrans.trans _ _ _ (hsu.mono (Set.empty_subset _) subset_rfl)
            (IsTrans.trans _ _ _ (hspares.mono subset_rfl (Set.empty_subset _))
              (hgiven.mono (Set.empty_subset _) subset_rfl))
        have hafter := component?_update_self hb g
        refine h.step hs hdone.stirs (fun k hk => ⟨p, rfl, Set.mem_singleton_iff.1 hk ▸ hchild⟩)
          (List.Subset.refl []) (fun _ hk => absurd hk List.not_mem_nil) (fun k hk hnot => ?_) ?_
        · refine ⟨p, rfl, ?_⟩
          by_contra hkp
          refine not_mem_of_not_mem_failedAfter ?_ hnot hk
          rintro rfl
          exact hkp hchild
        · rintro q rfl a' ha' hinit'
          obtain ⟨a'', ha'', hfollows'⟩ := hgiven.agree.exists_before ha'
          cases hv.symm.trans ha''
          have hstate' := hfollows'.state (Set.notMem_empty q)
          refine hreflects.renew hn hc (children_eq hp ▸ hchild) hdone
            ((hfollows.toSameTree.trans (a.answered_sameTree r layout)).trans hfollows'.toSameTree)
            (hstate'.appliedConstraints.trans hstate.appliedConstraints) hafter
            (hkept.gifts (Set.notMem_empty c)).containment
            (hsupplants.congr hreflects.neat hstate.stock hstate'.stock hstate'.isInitialized)
            (fun hr => ⟨hok hr, fun hleaf => ?_⟩) herror hinit'
          have hnew := hs.not_isInitialized_of_leaf (hdone.stirs.leaf (List.Subset.refl []) hleaf) hc
          obtain ⟨first, hfirst⟩ := hu.current _ (component?_update_self hc f) hnew
          have hall : (s.update c f).Spares Set.univ Set.univ (v.update c g) :=
            IsTrans.trans _ _ _ (hmiddle.mono (Set.subset_univ _) (Set.subset_univ _))
              (hgiven.mono (Set.subset_univ _) (Set.subset_univ _))
          refine ⟨_, first, hafter, (hok hr).trans (hfirst.trans ?_)⟩
          rw [hall.agree.nativeHint hall.toCalm, hall.agree.policyAt hall.toCalm]
          exact congrArg (fun box => Box.hintConstraints box _ _ _) hkept.box.symm
      split
      · next hr =>
        exact leads_run_modify_bind.2 (leads_run_throw.2 (hend _ nofun fun _ => rfl))
      · next hr =>
        refine leads_run_modify_bind.2 (leads_run_lift_bind.2 ?_)
        refine (through_tellBounds p _).mono fun _ w (hw : Spares ∅ ∅ _ w) => leads_run_modify.2 ?_
        refine (hend hints (fun _ => rfl) fun hr => absurd rfl hr).stirs (IsTrans.trans _ _ _ hw.stirs
          (IsTrans.trans _ _ _ (stirs_invalidateLayout w p) (stirs_announceHint _ p)))
    · next hlayout =>
      exact leads_run_pure.2 (h.forgive hs hchild (Bool.eq_false_of_not_eq_true hlayout))

/-! ### Tasks -/

omit [Scalar α] in
theorem names_attempt {message : String} {fields : Scene α → List (String × String)}
    {pass : Laying α Unit} (h : Through (Names host) pass.run) :
    Through (Names host) (attempt message fields pass) := by
  refine h.bind fun r => ?_
  split
  · exact through_pure _
  · exact through_modify fun s => (spares_note ..).names

theorem names_runTask (task : Task) : Through (@Names α host) (runTask task) := by
  intro s
  refine leads_bind.2 (leads_get.2 ?_)
  cases task with
  | constraints c =>
    dsimp only
    split
    · exact through_pure _ s
    · split
      · exact names_attempt (names_handConstraints c) s
      · exact through_pure _ s
  | layout c =>
    dsimp only
    split
    · exact through_pure _ s
    · split
      · refine names_attempt (fun t => ?_) s
        exact (through_placeChildren c t).mono fun _ _ => Stirs.names
      · exact through_pure _ s
  | sizeHint p c =>
    dsimp only
    split
    · exact names_attempt (names_renewHint p c) s
    · exact through_pure _ s

theorem faithful_attempt {message : String} {fields : Scene α → List (String × String)}
    {pass : Laying α Unit} (h : Leads pass.run s fun _ t => t.Faithful [] failed) :
    Leads (attempt message fields pass) s fun _ t => t.Faithful [] failed := by
  refine leads_bind.2 (h.mono fun r t ht => ?_)
  split
  · exact leads_pure.2 ht
  · exact leads_modify.2 (ht.stirs (spares_note ..).stirs)

/-- Whose hints are not in the parent's solver after a task. -/
def failedBy (s : Scene α) (failed : Set Nat) : Task → Set Nat
  | .sizeHint p c => failedAfter failed c ((renewHint p c).run.run s).1
  | _ => failed

/-- Until its hint has been renewed, a child counts among those that failed. -/
def failedDuring (failed : Set Nat) : Task → Set Nat
  | .sizeHint _ c => insert c failed
  | _ => failed

theorem Faithful.pop (h : s.Faithful [] failed) {task : Task} {queue : Queue Task}
    (hpop : s.queue.pop? = some (task, queue)) :
    Faithful [] (failedDuring failed task) { s with queue } := by
  have hpending := (Queue.pop?_eq_some_iff ..).1 hpop
  intro p comp hcomp hinit
  obtain ⟨hneat, hwithin, hshows⟩ := h p comp hcomp hinit
  have hstill (k : Nat) (hnot : k ∉ failedDuring failed task) : k ∉ failed ∧
      (.sizeHint p k ∈ s.queue.pending → .sizeHint p k ∈ queue.pending) := by
    rw [hpending]
    cases task with
    | constraints | layout => exact ⟨hnot, fun hk => (List.mem_cons.1 hk).resolve_left nofun⟩
    | sizeHint q c =>
      refine ⟨fun hk => hnot (.inr hk), fun hk => (List.mem_cons.1 hk).resolve_left ?_⟩
      rintro ⟨⟩
      exact hnot (.inl rfl)
  refine ⟨hneat, hwithin, fun k hk hlate hnot => ?_⟩
  obtain ⟨hnot, hkept⟩ := hstill k hnot
  have hshown := hshows k hk hlate hnot
  exact ⟨hshown.given, fun hleaf hhonest => (hshown.current hleaf hhonest).imp_left hkept⟩

theorem faithful_runTask (h : s.Faithful [] failed) (hs : s.Sound [] []) (hn : s.Named host)
    {task : Task} {queue : Queue Task} (hpop : s.queue.pop? = some (task, queue)) :
    Leads (runTask task) { s with queue } fun _ t =>
      t.Faithful [] (failedBy { s with queue } failed task) := by
  have hpopped := hs.pop hpop
  have hfaithful := h.pop hpop
  have hnamed : Named host { s with queue } := ⟨hn.drawn, hn.asked, hn.hints, hn.apart⟩
  refine leads_bind.2 (leads_get.2 ?_)
  cases task with
  | constraints c =>
    dsimp only
    split
    · exact leads_pure.2 hfaithful
    · next comp hc =>
      split
      · exact faithful_attempt (faithful_handConstraints hfaithful hpopped hnamed
          (fun k hk => List.mem_singleton.1 hk) hc)
      · exact leads_pure.2 hfaithful
  | layout c =>
    dsimp only
    split
    · exact leads_pure.2 hfaithful
    · split
      · exact faithful_attempt ((through_placeChildren c _).mono fun _ t
          (ht : Stirs ∅ ∅ _ t) => hfaithful.stirs ht)
      · exact leads_pure.2 hfaithful
  | sizeHint p c =>
    have hchild : c ∈ s.children p := hs.hints p c (by
      rw [(Queue.pop?_eq_some_iff ..).1 hpop]
      exact List.mem_cons_self)
    have hrenewed := faithful_renewHint hfaithful hpopped hnamed hchild
    obtain ⟨child, hc⟩ := hs.exists_child hchild
    have hp : ∃ parent, s.component? p = some parent := by
      unfold children at hchild
      split at hchild
      · next parent hp => exact ⟨parent, hp⟩
      · cases hchild
    obtain ⟨parent, hp⟩ := hp
    have hc' : Scene.component? { s with queue } c = some child := hc
    have hp' : Scene.component? { s with queue } p = some parent := hp
    dsimp only
    rw [hc', hp']
    exact faithful_attempt hrenewed

end Scene

end ReactiveView
