import ReactiveView.Proofs.Component.Frame

/-!
This module contains which constraints belong into the solver of a component, and that those that are
in a new solver or in a swapped one do. A scene is sound if the constraints in every solver are those
that belong there, each task for a size hint is that of a child, and what was asked for last is
applied, refused or still due.
-/

namespace ReactiveView

namespace Scene

variable {α : Type} {s t : Scene α} {S T : Set Nat} {late late' owed owed' : List Nat}
  {c k p first : Nat} {comp comp' : Component α} {old new rest cs : List (Constraint α)}

/-- What a child gives to its parent's solver. -/
def contributions (s : Scene α) (k : Nat) : List (Constraint α) :=
  match s.component? k with
  | some child => child.containment ++ child.hints
  | none => []

variable [Scalar α]

/-- What a child gives to its parent's solver holds it within the parent's box. -/
def Contained (s : Scene α) (parent : Box) (k : Nat) : Prop :=
  ∃ child first, s.component? k = some child ∧
    child.containment = parent.insideConstraints child.box first

/-- What belongs into the solver of a component: its own constraints, what its children give, unless
they are late, and the constraints that were applied. -/
def expected (s : Scene α) (late : List Nat) (comp : Component α) (first : Nat) :
    List (Constraint α) :=
  comp.box.ownConstraints first
    ++ (comp.children.filter fun k => decide (k ∉ late)).flatMap s.contributions
    ++ comp.appliedConstraints

/-- An initialized layout is that of a live component with children. Its solver lists what belongs
there, and its children are held within its box. What was asked for last is applied, unless the
solver refused it or the task is still due. -/
structure Fits (s : Scene α) (late owed : List Nat) (k : Nat) (comp : Component α) : Prop where
  live : comp.live = true
  children : (comp.children.filter fun k => decide (k ∉ late)) ≠ []
  lists : ∃ first, comp.Lists (s.expected late comp first)
  inside : ∀ j ∈ comp.children, j ∉ late → s.Contained comp.box j
  applied : comp.appliedConstraints = comp.userConstraints ∨ comp.refused = true ∨
    comp.needsConstraints = true ∧ (k ∈ owed ∨ .constraints k ∈ s.queue.pending)

/--
A scene in which nothing is stale or missing. Late children have been attached, but not taken into
the solver yet; owed tasks have been taken from the queue, but not run yet.
-/
structure Sound (late owed : List Nat) (s : Scene α) : Prop where
  /-- Children and parents refer to each other. -/
  family : ∀ p k, k ∈ s.children p ↔ ∃ child, s.component? k = some child ∧ child.parent = some p
  nodup : ∀ p, (s.children p).Nodup
  hints : ∀ p c, .sizeHint p c ∈ s.queue.pending → c ∈ s.children p
  fits : ∀ k comp, s.component? k = some comp → comp.layout.isInitialized = true →
    s.Fits late owed k comp

/-! ### What belongs into a solver -/

omit [Scalar α] in
theorem children_eq (h : s.component? k = some comp) : s.children k = comp.children := by
  unfold children
  rw [h]

omit [Scalar α] in
theorem contributions_eq (h : s.component? k = some comp) :
    s.contributions k = comp.containment ++ comp.hints := by
  unfold contributions
  rw [h]

omit [Scalar α] in
theorem Agree.contributions (h : s.Agree S T t) (hk : k ∉ T) :
    t.contributions k = s.contributions k := by
  have hk' := h k
  unfold Scene.contributions
  generalize s.component? k = x, t.component? k = y at hk' ⊢
  cases hk' with
  | none => rfl
  | some hab =>
    obtain ⟨hcontainment, hhints⟩ := hab.gifts hk
    dsimp only
    rw [hcontainment, hhints]

omit [Scalar α] in
theorem Spares.contributions (h : s.Spares S ∅ t) : t.contributions = s.contributions :=
  funext fun k => h.agree.contributions (Set.notMem_empty k)

theorem Agree.contained {box : Box} (h : s.Agree S T t) (hk : k ∉ T) (hin : s.Contained box k) :
    t.Contained box k := by
  obtain ⟨child, first, hchild, hcontainment⟩ := hin
  obtain ⟨child', hchild', hfollows⟩ := h.exists_after hchild
  refine ⟨child', first, hchild', ?_⟩
  rw [(hfollows.gifts hk).containment, hcontainment, hfollows.box]

theorem expected_nil (s : Scene α) (comp : Component α) (first : Nat) :
    s.expected [] comp first = comp.box.ownConstraints first
      ++ comp.children.flatMap s.contributions ++ comp.appliedConstraints := by
  unfold expected
  simp

omit [Scalar α] in
theorem filter_late_congr {kids : List Nat} (h : ∀ j ∈ kids, j ∈ late ↔ j ∈ late') :
    (kids.filter fun k => decide (k ∉ late')) = kids.filter fun k => decide (k ∉ late) :=
  List.filter_congr fun j hj => by rw [decide_eq_decide, h j hj]

theorem expected_congr (htree : comp.SameTree comp')
    (happlied : comp'.appliedConstraints = comp.appliedConstraints)
    (hlate : ∀ j ∈ comp.children, j ∈ late ↔ j ∈ late')
    (hgifts : ∀ j ∈ comp.children, j ∉ late → t.contributions j = s.contributions j)
    (first : Nat) : t.expected late' comp' first = s.expected late comp first := by
  unfold expected
  rw [htree.box, htree.children, happlied, filter_late_congr hlate]
  congr 2
  refine List.flatMap_congr fun j hj => ?_
  rw [List.mem_filter, decide_eq_true_eq] at hj
  exact hgifts j hj.1 hj.2

/-- What a component lists after a late child came in. -/
theorem expected_perm (hnodup : comp.children.Nodup) (hc : c ∈ comp.children) (first : Nat) :
    (s.expected [c] comp first ++ s.contributions c).Perm (s.expected [] comp first) := by
  have hrest : (comp.children.filter fun k => decide (k ∉ [c])) = comp.children.erase c := by
    rw [hnodup.erase_eq_filter]
    exact List.filter_congr fun j _ => by rw [Bool.eq_iff_iff]; simp
  have hfirst : (comp.children.flatMap s.contributions).Perm
      (s.contributions c ++ (comp.children.erase c).flatMap s.contributions) := by
    rw [← List.flatMap_cons]
    exact (List.perm_cons_erase hc).flatMap_right _
  have hmoved : ((comp.children.erase c).flatMap s.contributions
      ++ (comp.appliedConstraints ++ s.contributions c)).Perm
        (comp.children.flatMap s.contributions ++ comp.appliedConstraints) := by
    rw [← List.append_assoc]
    refine List.perm_append_comm.trans ?_
    rw [← List.append_assoc]
    exact hfirst.symm.append_right _
  rw [expected_nil]
  unfold expected
  rw [hrest, List.append_assoc, List.append_assoc, List.append_assoc]
  exact hmoved.append_left _

/-- What a component lists, the hints of one child first. -/
theorem expected_perm_hints {front hints : List (Constraint α)} (hnodup : comp.children.Nodup)
    (hc : c ∈ comp.children) (hgives : s.contributions c = front ++ hints) (first : Nat) :
    (s.expected [] comp first).Perm (hints ++ (front ++ s.expected [c] comp first)) := by
  refine (expected_perm hnodup hc first).symm.trans ?_
  rw [hgives, ← List.append_assoc]
  exact List.perm_append_comm.trans (List.perm_append_comm.append_left _)

/-! ### Steps -/

/-- A child has one parent. -/
theorem Sound.parent_eq (h : s.Sound late owed) (hp : c ∈ s.children p) {q : Nat}
    (hq : c ∈ s.children q) : p = q := by
  obtain ⟨child, hchild, hparent⟩ := (h.family p c).1 hp
  obtain ⟨child', hchild', hparent'⟩ := (h.family q c).1 hq
  cases hchild.symm.trans hchild'
  exact Option.some_inj.1 (hparent.symm.trans hparent')

/-- What a component fits by, apart from what its solver lists. -/
theorem Fits.relist (h : s.Fits late owed k comp)
    (hrecord : comp.SameRecord comp')
    (hdue : k ∈ owed ∨ .constraints k ∈ s.queue.pending →
      k ∈ owed' ∨ .constraints k ∈ t.queue.pending)
    (hchildren : (comp'.children.filter fun k => decide (k ∉ late')) ≠ [])
    (hlists : ∃ first, comp'.Lists (t.expected late' comp' first))
    (hinside : ∀ j ∈ comp'.children, j ∉ late' → t.Contained comp'.box j) :
    t.Fits late' owed' k comp' where
  live := hrecord.live.trans h.live
  children := hchildren
  lists := hlists
  inside := hinside
  applied := by
    rw [hrecord.appliedConstraints, hrecord.userConstraints, hrecord.refused,
      hrecord.needsConstraints]
    exact h.applied.imp_right (Or.imp_right (And.imp_right hdue))

/-- Where it was not the turn of a component, it fits as before: what it lists comes from its own
children, and only children of those whose turn it was have given something else. -/
theorem Sound.step (h : s.Sound late owed) (hst : s.Stirs S T t)
    (hT : ∀ k ∈ T, ∃ p ∈ S, k ∈ s.children p)
    (hlate : ∀ k, (∀ p ∈ S, k ∉ s.children p) → (k ∈ late ↔ k ∈ late'))
    (howed : ∀ k ∈ owed, k ∈ S ∨ k ∈ owed')
    (hS : ∀ k ∈ S, ∀ comp, t.component? k = some comp → comp.layout.isInitialized = true →
      t.Fits late' owed' k comp) : t.Sound late' owed' where
  family p k := by
    rw [hst.agree.children, h.family]
    constructor
    · rintro ⟨child, hchild, hparent⟩
      obtain ⟨child', hchild', hfollows⟩ := hst.agree.exists_after hchild
      exact ⟨child', hchild', hfollows.parent.trans hparent⟩
    · rintro ⟨child', hchild', hparent⟩
      obtain ⟨child, hchild, hfollows⟩ := hst.agree.exists_before hchild'
      exact ⟨child, hchild, hfollows.parent.symm.trans hparent⟩
  nodup p := by
    rw [hst.agree.children]
    exact h.nodup p
  hints p c htask := by
    rw [hst.agree.children]
    rcases hst.hints p c htask with hold | hchild
    · exact h.hints p c hold
    · exact (h.family p c).2 hchild
  fits k comp' hcomp' hinit := by
    by_cases hk : k ∈ S
    · exact hS k hk comp' hcomp' hinit
    · obtain ⟨comp, hcomp, hfollows⟩ := hst.agree.exists_before hcomp'
      have hstate := hfollows.state hk
      have hold := h.fits k comp hcomp (hstate.isInitialized.symm.trans hinit)
      have hapart : ∀ j ∈ comp.children, ∀ p ∈ S, j ∉ s.children p := by
        rintro j hj p hp hjp
        rw [← children_eq hcomp] at hj
        exact hk (h.parent_eq hjp hj ▸ hp)
      have hkids : ∀ j ∈ comp.children, j ∈ late ↔ j ∈ late' :=
        fun j hj => hlate j (hapart j hj)
      have hspared : ∀ j ∈ comp.children, j ∉ T := by
        intro j hj hjT
        obtain ⟨p, hp, hjp⟩ := hT j hjT
        exact hapart j hj p hp hjp
      refine hold.relist hstate.toSameRecord ?_ ?_ ?_ fun j hj hjlate => ?_
      · rintro (howes | hpending)
        · exact .inl ((howed k howes).resolve_left hk)
        · exact .inr (hst.kept _ hpending)
      · rw [hfollows.children, filter_late_congr hkids]
        exact hold.children
      · obtain ⟨first, hfirst⟩ := hold.lists
        refine ⟨first, ?_⟩
        rw [expected_congr hfollows.toSameTree hstate.appliedConstraints hkids _ first]
        · exact hstate.lists _ hfirst
        · exact fun j hj _ => hst.agree.contributions (hspared j hj)
      · rw [hfollows.children] at hj
        rw [hfollows.box]
        exact hst.agree.contained (hspared j hj) (hold.inside j hj fun h => hjlate ((hkids j hj).1 h))

theorem Sound.stirs (h : s.Sound late owed) (hst : s.Stirs ∅ ∅ t) : t.Sound late owed :=
  h.step hst nofun (fun _ _ => .rfl) (fun _ hk => .inr hk) nofun

/-- When it was the turn of one component and of its children. -/
theorem Sound.step_one (h : s.Sound late owed) (hst : s.Stirs {p} T t)
    (hT : ∀ k ∈ T, k ∈ s.children p) (howed : ∀ k ∈ owed, k = p ∨ k ∈ owed')
    (hp : ∀ comp, t.component? p = some comp → comp.layout.isInitialized = true →
      t.Fits late owed' p comp) : t.Sound late owed' :=
  h.step hst (fun k hk => ⟨p, rfl, hT k hk⟩) (fun _ _ => .rfl) howed fun k hk => by
    cases hk
    exact hp

end Scene

end ReactiveView
