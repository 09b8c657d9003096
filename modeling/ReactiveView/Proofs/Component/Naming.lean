import ReactiveView.Proofs.Component.Handing
import ReactiveView.Proofs.Component.Hints

/-!
This module contains that the constraints of size hints have names of their own. A host draws the names
of its constraints from the same supply as the scene, so that neither the hints of two components nor a
hint and a constraint of the host are ever taken for each other.
-/

namespace ReactiveView

variable {α : Type}

namespace Scene

variable {s t : Scene α} {S : Set Nat} {c k : Nat} {host : Set Nat} {comp : Component α}

/-- The names of the host's constraints and those of the size hints are apart, and so are those of the
size hints of two components. -/
structure Named (host : Set Nat) (s : Scene α) : Prop where
  drawn : ∀ id ∈ host, id < s.nextConstraint
  asked : ∀ k comp, s.component? k = some comp →
    ∀ x ∈ comp.userConstraints ++ comp.appliedConstraints, x.id ∈ host
  hints : ∀ k comp, s.component? k = some comp →
    ∀ x ∈ comp.hints, x.id < s.nextConstraint ∧ x.id ∉ host
  apart : ∀ j k a b, s.component? j = some a → s.component? k = some b → j ≠ k →
    ∀ x ∈ a.hints, ∀ y ∈ b.hints, x.id ≠ y.id

/-- A step that leaves names apart. -/
structure Names (host : Set Nat) (s t : Scene α) : Prop where
  named : s.Named host → t.Named host

instance : Std.Refl (@Names α host) := ⟨fun _ => ⟨fun h => h⟩⟩

instance : IsTrans (Scene α) (Names host) :=
  ⟨fun _ _ _ h h' => ⟨fun hs => h'.named (h.named hs)⟩⟩

theorem through_names {β : Type} {x : Staging α β}
    (h : ∀ s : Scene α, s.Named host → Leads x s fun _ t => t.Named host) :
    Through (Names host) x :=
  fun s => Names.mk (h s)

/-- Hints that are left out are in nobody's way. -/
theorem Named.step (h : s.Named host) (hnext : s.nextConstraint ≤ t.nextConstraint)
    (hstep : ∀ k b, t.component? k = some b → ∃ a, s.component? k = some a ∧ b.hints ⊆ a.hints ∧
      ∀ x ∈ b.userConstraints ++ b.appliedConstraints, x.id ∈ host) : t.Named host where
  drawn id hid := (h.drawn id hid).trans_le hnext
  asked k b hb :=
    have ⟨_, _, _, hasked⟩ := hstep k b hb
    hasked
  hints k b hb x hx := by
    obtain ⟨a, ha, hsub, -⟩ := hstep k b hb
    exact (h.hints k a ha x (hsub hx)).imp_left fun hid => hid.trans_le hnext
  apart j k a b ha hb hne x hx y hy := by
    obtain ⟨a', ha', hsub, -⟩ := hstep j a ha
    obtain ⟨b', hb', hsub', -⟩ := hstep k b hb
    exact h.apart j k a' b' ha' hb' hne x (hsub hx) y (hsub' hy)

theorem Stirs.names (h : s.Stirs ∅ ∅ t) : s.Names host t := by
  refine ⟨fun hs => hs.step h.next fun k b hb => ?_⟩
  obtain ⟨a, ha, hfollows⟩ := h.agree.exists_before hb
  have hstate := hfollows.state (Set.notMem_empty k)
  refine ⟨a, ha, ?_, ?_⟩
  · rw [(hfollows.gifts (Set.notMem_empty k)).hints]
    exact List.Subset.refl a.hints
  · rw [hstate.userConstraints, hstate.appliedConstraints]
    exact hs.asked k a ha

theorem Spares.names (h : s.Spares ∅ ∅ t) : s.Names host t := h.stirs.names

theorem Named.update (h : s.Named host) {f : Component α → Component α}
    (hhints : ∀ a : Component α, (f a).hints ⊆ a.hints)
    (hasked : ∀ a, s.component? c = some a →
      ∀ x ∈ (f a).userConstraints ++ (f a).appliedConstraints, x.id ∈ host) :
    (s.update c f).Named host := by
  refine h.step le_rfl fun k b hb => ?_
  rw [component?_update] at hb
  split at hb
  · next hk =>
    subst hk
    obtain ⟨a, ha, rfl⟩ := Option.map_eq_some_iff.1 hb
    exact ⟨a, ha, hhints a, hasked a ha⟩
  · exact ⟨b, hb, List.Subset.refl b.hints, h.asked k b hb⟩

/-- What is changed about a component is neither what it was asked for nor its size hint. -/
theorem names_update {f : Component α → Component α}
    (hf : ∀ a : Component α, (f a).userConstraints = a.userConstraints ∧
      (f a).appliedConstraints = a.appliedConstraints ∧ (f a).hints = a.hints) :
    s.Names host (s.update c f) := by
  refine ⟨fun hs => hs.update (fun a => ?_) fun a ha => ?_⟩
  · rw [(hf a).2.2]
    exact List.Subset.refl a.hints
  · rw [(hf a).1, (hf a).2.1]
    exact hs.asked c a ha

/-- A component may give new constraints, or again those that it gave before. -/
theorem Named.give (h : s.Named host) (hints : List (Constraint α)) (hst : s.Spares S {c} t)
    (ht : t.Named host) {f : Component α → Component α}
    (hf : ∀ a : Component α, (f a).userConstraints = a.userConstraints ∧
      (f a).appliedConstraints = a.appliedConstraints ∧ (f a).hints = hints)
    (hhints : ∀ x ∈ hints, (∃ a, s.component? c = some a ∧ x ∈ a.hints) ∨
      s.nextConstraint ≤ x.id ∧ x.id < t.nextConstraint) : (t.update c f).Named host := by
  have hnamed : ∀ x ∈ hints, x.id < t.nextConstraint ∧ x.id ∉ host := by
    intro x hx
    rcases hhints x hx with ⟨a, ha, hold⟩ | ⟨hfirst, hlast⟩
    · exact (h.hints c a ha x hold).imp_left fun hid => hid.trans_le hst.next
    · exact ⟨hlast, fun hid => (h.drawn x.id hid).not_ge hfirst⟩
  -- What the others give was there before.
  have hothers : ∀ x ∈ hints, ∀ k b, t.component? k = some b → k ≠ c → ∀ y ∈ b.hints,
      x.id ≠ y.id := by
    intro x hx k b hb hne y hy
    obtain ⟨b', hb', hfollows⟩ := hst.agree.exists_before hb
    rw [(hfollows.gifts hne).hints] at hy
    rcases hhints x hx with ⟨a, ha, hold⟩ | ⟨hfirst, -⟩
    · exact h.apart c k a b' ha hb' hne.symm x hold y hy
    · exact ((h.hints k b' hb' y hy).1.trans_le hfirst).ne'
  have hcases (k : Nat) (b : Component α) (hb : (t.update c f).component? k = some b) :
      (∃ a, t.component? k = some a ∧ k = c ∧ b = f a) ∨ t.component? k = some b ∧ k ≠ c := by
    rw [component?_update] at hb
    split at hb
    · next hk =>
      obtain ⟨a, ha, rfl⟩ := Option.map_eq_some_iff.1 hb
      exact .inl ⟨a, ha, hk, rfl⟩
    · next hk => exact .inr ⟨hb, hk⟩
  refine ⟨ht.drawn, fun k b hb => ?_, fun k b hb => ?_, fun j k a b ha hb hne => ?_⟩
  · rcases hcases k b hb with ⟨a, ha, rfl, rfl⟩ | ⟨hb, -⟩
    · rw [(hf a).1, (hf a).2.1]
      exact ht.asked k a ha
    · exact ht.asked k b hb
  · rcases hcases k b hb with ⟨a, ha, rfl, rfl⟩ | ⟨hb, -⟩
    · rw [(hf a).2.2]
      exact hnamed
    · exact ht.hints k b hb
  · rcases hcases j a ha with ⟨a', ha', rfl, rfl⟩ | ⟨ha', hj⟩
    · obtain ⟨hb', hk⟩ := (hcases k b hb).resolve_left fun ⟨_, _, hk, _⟩ => hne hk.symm
      rw [(hf a').2.2]
      exact fun x hx => hothers x hx k b hb' hk
    · rcases hcases k b hb with ⟨b', hb', rfl, rfl⟩ | ⟨hb', -⟩
      · rw [(hf b').2.2]
        exact fun x hx y hy => (hothers y hy j a ha' hj x hx).symm
      · exact ht.apart j k a b ha' hb' hne

variable [Scalar α]

/-! ### Passes -/

omit [Scalar α] in
theorem names_tryLogged (c : Nat)
    (f : Layout α → Except LayoutError Unit × List LogRecord × Layout α) :
    Through (Names host) (tryLogged c f).run := by
  refine through_names fun s hs => ?_
  rw [leads_tryLogged]
  cases hc : s.component? c with
  | none => exact hs
  | some comp =>
    have hlogged (u : Scene α) (log : List LogRecord) : u.Spares ∅ ∅ (u.logAll log) :=
      ⟨⟨rfl, le_rfl⟩, agree_of_components_eq rfl, rfl⟩
    exact (hlogged _ _).names.named (hs.update (fun a => List.Subset.refl a.hints) (hs.asked c))

theorem names_tellBounds (c : Nat) : Through (@Names α host) (tellBounds c) :=
  fun s => (through_tellBounds c s).mono fun _ _ => Spares.names

theorem names_contributed (c : Nat) (parent : Box) :
    Through (@Names α host) (contributed c parent) := by
  refine through_names fun s hs => ?_
  refine leads_bind.2 (leads_get.2 ?_)
  split
  · exact hs
  · next box _ =>
    have hu : s.Spares ∅ ∅ (s.fresh (parent.insideConstraints box)).2 := through_fresh _ s
    refine leads_bind.2 (leads_modifyGet.2 ?_)
    generalize (s.fresh (parent.insideConstraints box)).1 = containment
    generalize (s.fresh (parent.insideConstraints box)).2 = u at hu
    refine leads_bind.2 ((leads_hintConstraints c u).mono fun hints v hv => ?_)
    have hnamed := hu.names.named hs
    refine leads_bind.2 (leads_modify.2 (leads_pure.2 ?_))
    exact hnamed.give hints (hv.spares.widen : u.Spares ∅ {c} v)
      (hv.spares.names.named hnamed) (fun _ => ⟨rfl, rfl, rfl⟩) fun x hx => .inr (hv.fresh x hx)

theorem names_contributedAll (parent : Box) (cs : List Nat) :
    Through (@Names α host) (contributedAll parent cs) := by
  induction cs with
  | nil => exact through_pure _
  | cons c rest ih =>
    exact (names_contributed c parent).bind fun _ => ih.bind fun _ => through_pure _

theorem names_setUpLayout (c : Nat) : Through (@Names α host) (setUpLayout c).run := by
  refine through_names fun s hs => ?_
  refine leads_run_get_bind.2 ?_
  split
  · exact hs
  · next comp hc =>
    have huser : ∀ x ∈ comp.userConstraints, x.id ∈ host := fun x hx =>
      hs.asked c comp hc x (List.mem_append_left _ hx)
    have hfresh : s.Spares ∅ ∅ (s.fresh comp.box.ownConstraints).2 := through_fresh _ s
    refine leads_run_lift_bind.2 (leads_modifyGet.2 ?_)
    refine leads_run_lift_bind.2 ((names_contributedAll comp.box comp.children _).mono
      fun added u (hu : Names host _ u) => ?_)
    have hgiven := hu.named (hfresh.names.named hs)
    refine (names_tryLogged c _ u).run_bind (fun _ v (hv : Names host u v) => ?_)
      fun _ v (hv : Names host u v) => hv.named hgiven
    refine leads_run_modify_bind.2 (leads_run_lift.2 ((names_tellBounds c _).mono
      fun _ w (hw : Names host _ w) => ?_))
    have hset := hv.named hgiven
    refine hw.named ((spares_note ..).names.named (hset.update (fun a => List.Subset.refl a.hints)
      fun a ha x hx => ?_))
    refine (List.mem_append.1 hx).elim (fun hx => ?_) (huser x)
    exact hset.asked c a ha x (List.mem_append_left _ hx)

theorem names_activateOne (c : Nat) : Through (@Names α host) (activateOne c).run := by
  have hlive : Through (Names host) (modify fun s => s.update c fun comp =>
      { comp with needsConstraints := false, needsLayout := false, live := true }
        : Laying α Unit).run :=
    through_modify fun _ => names_update fun _ => ⟨rfl, rfl, rfl⟩
  intro s
  refine leads_run_get_bind.2 ?_
  split
  · exact leads_run_pure.2 (Std.Refl.refl s)
  · split
    · exact leads_run_pure.2 (Std.Refl.refl s)
    · dsimp only
      split
      · exact (names_setUpLayout c).run_bind (fun _ => hlive) s
      · exact hlive s

theorem names_activate (c : Nat) : Through (@Names α host) (activate c).run :=
  fun s => leads_run_get_bind.2 (through_forM names_activateOne _ s)

theorem names_takeIn (p c : Nat) : Through (@Names α host) (takeIn p c).run := by
  refine (names_activate c).run_bind fun _ s => leads_run_get_bind.2 ?_
  split
  · exact leads_run_pure.2 (Std.Refl.refl s)
  · next parent _ =>
    split
    · exact (names_contributed c parent.box).run_lift_bind (fun added => names_tryLogged p _) s
    · exact names_setUpLayout p s

theorem names_adopt (p c : Nat) : Through (@Names α host) (adopt p c).run := by
  have hattach (s : Scene α) : s.Names host (s.attach p c) := by
    have hchild : s.Names host (s.update c fun comp => { comp with parent := some p }) :=
      names_update fun _ => ⟨rfl, rfl, rfl⟩
    exact IsTrans.trans _ _ _ hchild (names_update fun _ => ⟨rfl, rfl, rfl⟩)
  have hdetach (s : Scene α) : s.Names host (s.detach p c) := by
    have hparent : s.Names host (s.update p fun comp =>
        { comp with children := comp.children.filter fun k => k != c }) :=
      names_update fun _ => ⟨rfl, rfl, rfl⟩
    exact IsTrans.trans _ _ _ hparent (names_update fun _ => ⟨rfl, rfl, rfl⟩)
  unfold adopt
  intro s
  refine leads_run_get_bind.2 ?_
  refine Through.run_modify_bind hattach ?_ s
  split
  · split
    · refine (names_takeIn p c).run_lift_bind fun r => ?_
      split
      · exact Through.run_modify_bind hdetach (through_pure _)
      · refine (names_tellBounds p).run_lift_bind fun _ => through_modify fun t => Stirs.names ?_
        exact IsTrans.trans _ _ _ (stirs_invalidateLayout t p) (stirs_announceHint _ p)
    · exact through_pure _
  · exact through_pure _

theorem names_handConstraintsOne (c : Nat) :
    Through (@Names α host) (handConstraintsOne c).run := by
  refine Through.run_modify_bind (fun s => names_update fun _ => ⟨rfl, rfl, rfl⟩)
    (through_names fun s hs => leads_run_get_bind.2 ?_)
  split
  · exact hs
  · next comp hc =>
    have huser : ∀ x ∈ comp.userConstraints, x.id ∈ host := fun x hx =>
      hs.asked c comp hc x (List.mem_append_left _ hx)
    split
    · refine (names_tryLogged c _ s).run_bind (fun _ t (ht : Names host s t) => ?_)
        fun _ t (ht : Names host s t) => ht.named hs
      refine leads_run_modify_bind.2 (leads_run_lift_bind.2 ((names_tellBounds c _).mono
        fun _ u (hu : Names host _ u) => leads_run_modify.2 ?_))
      have hset := ht.named hs
      refine (stirs_announceHint u c).names.named (hu.named (hset.update
        (fun a => List.Subset.refl a.hints) fun a ha x hx => ?_))
      refine (List.mem_append.1 hx).elim (fun hx => ?_) (huser x)
      exact hset.asked c a ha x (List.mem_append_left _ hx)
    · exact hs

theorem names_handConstraints (c : Nat) : Through (@Names α host) (handConstraints c).run :=
  fun s => leads_run_get_bind.2 (through_forM names_handConstraintsOne _ s)

theorem names_renewHint (p c : Nat) : Through (@Names α host) (renewHint p c).run := by
  refine through_names fun s hs => ?_
  refine leads_run_get_bind.2 ?_
  split
  · exact hs
  · next child hc =>
    split
    · refine leads_run_modify_bind.2 (leads_run_lift_bind.2 ?_)
      set f : Component α → Component α := fun comp => { comp with hints := [] }
      have htaken : s.Spares ∅ {c} (s.update c f) := spares_gifts c []
      have hnamed : (s.update c f).Named host :=
        hs.update (fun _ => List.nil_subset _) (hs.asked c)
      refine (leads_hintConstraints c _).mono fun hints u hu => ?_
      have hnamed' := hu.spares.names.named hnamed
      have hswap : Leads (tryLogged p fun l => l.replace child.hints hints).run u
          fun _ v => u.Spares {p} ∅ v ∧ v.Named host :=
        (spares_tryLogged p _ u).and ((names_tryLogged p _ u).mono
          fun _ v (hv : Names host u v) => hv.named hnamed')
      refine leads_run_lift_bind.2 (hswap.mono fun r v hv => ?_)
      obtain ⟨hspares, hv⟩ := hv
      have hst : s.Spares {p} {c} v := IsTrans.trans _ _ _
        (htaken.mono (Set.empty_subset _) subset_rfl) (IsTrans.trans _ _ _ hu.spares.widen
          (hspares.mono subset_rfl (Set.empty_subset _)))
      split
      · refine leads_run_modify_bind.2 (leads_run_throw.2 ?_)
        exact hs.give child.hints hst hv (fun _ => ⟨rfl, rfl, rfl⟩)
          fun x hx => .inl ⟨child, hc, hx⟩
      · refine leads_run_modify_bind.2 (leads_run_lift_bind.2 ((names_tellBounds p _).mono
          fun _ w (hw : Names host _ w) => leads_run_modify.2 ?_))
        refine Stirs.names (IsTrans.trans _ _ _ (stirs_invalidateLayout w p)
          (stirs_announceHint _ p)) |>.named (hw.named ?_)
        refine hs.give hints hst hv (fun _ => ⟨rfl, rfl, rfl⟩) fun x hx => .inr ?_
        obtain ⟨hfirst, hlast⟩ := hu.fresh x hx
        exact ⟨hfirst, hlast.trans_le hspares.next⟩
    · exact hs

end Scene

end ReactiveView
