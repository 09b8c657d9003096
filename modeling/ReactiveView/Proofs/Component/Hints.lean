import ReactiveView.Proofs.Component.Frame

/-!
This module contains what the size hint of a component without a layout follows from: its class and the
attributes of its object, and nothing else. Steps that leave the attributes alone leave it alone.
-/

namespace ReactiveView

/-! ### Classes -/

/-- Extents are the same under attributes that agree where they are read. -/
theorem Extent.measure_congr {e : Extent} {a b : Table String Value}
    (h : ∀ attr ∈ e.reads, b.get? attr = a.get? attr) : e.measure b = e.measure a := by
  cases e with
  | constant => rfl
  | scaled attr | characters attr =>
    have hattr := h attr (List.mem_singleton_self attr)
    simp only [measure, hattr]

namespace WidgetClass

variable {cls : WidgetClass}

/-- The size hint is found from no attributes but those that it is said to depend on. -/
def Honest (cls : WidgetClass) : Prop :=
  ∀ attr ∈ cls.width.reads ++ cls.height.reads, attr ∈ cls.hintAttributes

theorem Honest.hint_congr (h : cls.Honest) {a b : Table String Value}
    (hsame : ∀ attr ∈ cls.hintAttributes, b.get? attr = a.get? attr) : cls.hint b = cls.hint a := by
  have hread (attr : String) (hattr : attr ∈ cls.width.reads ++ cls.height.reads) :
      b.get? attr = a.get? attr := hsame attr (h attr hattr)
  unfold hint
  rw [Extent.measure_congr fun attr hattr => hread attr (List.mem_append_left _ hattr),
    Extent.measure_congr fun attr hattr => hread attr (List.mem_append_right _ hattr)]

end WidgetClass

variable {α : Type} [Scalar α]

/-! ### Numbers -/

namespace Box

omit [Scalar α] in
/-- Numbered constraints have the numbers from the first on. -/
theorem id_of_mem_number {first : Nat} {makers : List (Nat → Constraint α)}
    (hmakers : ∀ make ∈ makers, ∀ id, (make id).id = id) {c : Constraint α}
    (hc : c ∈ number first makers) :
    first ≤ c.id ∧ c.id < first + (number first makers).length := by
  have hlength : (number first makers).length = makers.length := by simp [number]
  obtain ⟨⟨make, i⟩, hmem, rfl⟩ := List.mem_map.1 hc
  obtain ⟨hmake, hi⟩ := List.of_mem_zip hmem
  rw [hmakers make hmake, hlength]
  exact ⟨Nat.le_add_right .., Nat.add_lt_add_left (List.mem_range.1 hi) first⟩

theorem id_of_mem_hintConstraints {b : Box} {hint : Size α} {policy : SizePolicy α} {first : Nat}
    {c : Constraint α} (hc : c ∈ b.hintConstraints hint policy first) :
    first ≤ c.id ∧ c.id < first + (b.hintConstraints hint policy first).length := by
  have hmakers (x : Variable) (hint : α) (hug compress : Option (Strength α)) :
      ∀ make ∈ hintMakers x hint hug compress, ∀ id, (make id).id = id := by
    intro make hmake id
    unfold hintMakers at hmake
    split at hmake
    · cases hmake
    · rcases List.mem_append.1 hmake with hmake | hmake
      all_goals
        obtain ⟨strength, -, rfl⟩ := Option.map_eq_some_iff.1 (Option.mem_toList.1 hmake)
        rfl
  exact id_of_mem_number (fun make hmake =>
    (List.mem_append.1 hmake).elim (hmakers _ _ _ _ make) (hmakers _ _ _ _ make)) hc

end Box

namespace Scene

variable {s t : Scene α} {S T : Set Nat} {c k : Nat} {comp child : Component α}

/-! ### Size hints and policies -/

/-- How firmly a component holds its size hint in one direction. A name of no strength counts as
strong. -/
def strengthAt (s : Scene α) (c : Nat) (attr : String) : Option (Strength α) :=
  match (s.attrs c).get? attr with
  | some (.str name) =>
    match (Strength.ofName name : Strength.Named α) with
    | .strength v => some v
    | .ignore => none
    | .unknown => some .strong
  | _ => some .strong

/-- How firmly a component holds its size hint. -/
def policyAt (s : Scene α) (c : Nat) : SizePolicy α where
  hugWidth := s.strengthAt c "hug_width"
  hugHeight := s.strengthAt c "hug_height"
  compressWidth := s.strengthAt c "compress_width"
  compressHeight := s.strengthAt c "compress_height"

/-- What a component has given for its size hint is what its class and its attributes now say. -/
def Current (s : Scene α) (c : Nat) : Prop :=
  ∃ comp first, s.component? c = some comp ∧
    comp.hints = comp.box.hintConstraints (s.nativeHint c) (s.policyAt c) first

omit [Scalar α] in
theorem attrs_eq (h : s.component? c = some comp) :
    s.attrs c = s.network.store.attrs comp.object := by
  unfold attrs
  rw [h]

theorem nativeHint_eq (h : s.component? c = some comp) :
    s.nativeHint c = ⟨Scalar.ofFloat (comp.widgetClass.hint (s.attrs c)).width,
      Scalar.ofFloat (comp.widgetClass.hint (s.attrs c)).height⟩ := by
  unfold nativeHint
  rw [h]

theorem strengthAt_congr {attr : String} (h : (t.attrs c).get? attr = (s.attrs c).get? attr) :
    t.strengthAt c attr = s.strengthAt c attr := by
  unfold strengthAt
  rw [h]

theorem policyAt_congr (h : ∀ attr ∈ WidgetClass.policyAttributes,
    (t.attrs c).get? attr = (s.attrs c).get? attr) : t.policyAt c = s.policyAt c := by
  simp only [WidgetClass.policyAttributes, List.forall_mem_cons] at h
  obtain ⟨hhugWidth, hhugHeight, hcompressWidth, hcompressHeight, -⟩ := h
  unfold policyAt
  rw [strengthAt_congr hhugWidth, strengthAt_congr hhugHeight, strengthAt_congr hcompressWidth,
    strengthAt_congr hcompressHeight]

/-! ### Steps that leave the attributes alone -/

omit [Scalar α] in
theorem Agree.attrs (h : s.Agree S T t) (hcalm : s.Calm t) (c : Nat) : t.attrs c = s.attrs c := by
  have hc := h c
  unfold Scene.attrs
  rw [hcalm.store]
  generalize s.component? c = x, t.component? c = y at hc ⊢
  cases hc with
  | none => rfl
  | some hab =>
    dsimp only
    rw [hab.object]

theorem Agree.nativeHint (h : s.Agree S T t) (hcalm : s.Calm t) (c : Nat) :
    t.nativeHint c = s.nativeHint c := by
  have hc := h c
  unfold Scene.nativeHint
  rw [h.attrs hcalm]
  generalize s.component? c = x, t.component? c = y at hc ⊢
  cases hc with
  | none => rfl
  | some hab =>
    dsimp only
    rw [hab.widgetClass]

theorem Agree.policyAt (h : s.Agree S T t) (hcalm : s.Calm t) (c : Nat) :
    t.policyAt c = s.policyAt c :=
  policyAt_congr fun attr _ => congrArg (·.get? attr) (h.attrs hcalm c)

theorem Agree.current (h : s.Agree S T t) (hcalm : s.Calm t) (hk : k ∉ T)
    (hcurrent : s.Current k) : t.Current k := by
  obtain ⟨comp, first, hcomp, hhints⟩ := hcurrent
  obtain ⟨comp', hcomp', hfollows⟩ := h.exists_after hcomp
  refine ⟨comp', first, hcomp', ?_⟩
  rw [(hfollows.gifts hk).hints, hhints, hfollows.box, h.nativeHint hcalm, h.policyAt hcalm]

/-! ### Making the constraints of a size hint -/

theorem leads_namedStrength (c : Nat) (attr : String) (s : Scene α) :
    Leads (namedStrength c attr) s fun strength _ => strength = s.strengthAt c attr := by
  unfold strengthAt
  refine leads_bind.2 (leads_get.2 ?_)
  cases hvalue : (s.attrs c).get? attr with
  | none => exact leads_pure.2 rfl
  | some v =>
    cases v with
    | str name =>
      dsimp only
      cases (Strength.ofName name : Strength.Named α) with
      | strength v => exact leads_pure.2 rfl
      | ignore => exact leads_pure.2 rfl
      | unknown => exact leads_bind.2 (leads_set.2 (leads_pure.2 rfl))
    | _ => exact leads_pure.2 rfl

theorem leads_policyOf (c : Nat) (s : Scene α) :
    Leads (policyOf c) s fun policy _ => policy = s.policyAt c := by
  have hnamed {t : Scene α} (ht : s.Spares ∅ ∅ t) (attr : String) :
      Leads (namedStrength c attr) t fun strength u =>
        s.Spares ∅ ∅ u ∧ strength = s.strengthAt c attr := by
    have hspares : Leads (namedStrength c attr) t fun _ u => t.Spares ∅ ∅ u :=
      through_namedStrength c attr t
    refine (hspares.and (leads_namedStrength c attr t)).mono ?_
    rintro strength u ⟨hu, rfl⟩
    refine ⟨IsTrans.trans _ _ _ ht hu, strengthAt_congr ?_⟩
    rw [ht.agree.attrs ht.toCalm]
  refine leads_bind.2 ((hnamed (Std.Refl.refl s) "hug_width").mono fun hugWidth t ht => ?_)
  refine leads_bind.2 ((hnamed ht.1 "hug_height").mono fun hugHeight u hu => ?_)
  refine leads_bind.2 ((hnamed hu.1 "compress_width").mono fun compressWidth v hv => ?_)
  refine leads_bind.2 ((hnamed hv.1 "compress_height").mono fun compressHeight w hw => ?_)
  obtain ⟨-, rfl⟩ := ht
  obtain ⟨-, rfl⟩ := hu
  obtain ⟨-, rfl⟩ := hv
  obtain ⟨-, rfl⟩ := hw
  exact leads_pure.2 rfl

theorem leads_sizeHint (h : s.hasLayout c = false) :
    Leads (sizeHint c) s fun hint t => hint = s.nativeHint c ∧ t = s := by
  refine leads_bind.2 (leads_get.2 ?_)
  rw [if_neg (by rw [h]; exact Bool.false_ne_true)]
  exact leads_pure.2 ⟨rfl, rfl⟩

/-- What making the constraints of a component's size hint comes to. They have new names, and without
a layout they are those of the hint that the class finds. -/
structure Hinted (s : Scene α) (c : Nat) (hints : List (Constraint α)) (t : Scene α) : Prop where
  spares : s.Spares ∅ ∅ t
  fresh : ∀ x ∈ hints, s.nextConstraint ≤ x.id ∧ x.id < t.nextConstraint
  current : ∀ comp, s.component? c = some comp → comp.layout.isInitialized = false →
    ∃ first, hints = comp.box.hintConstraints (s.nativeHint c) (s.policyAt c) first

theorem leads_hintConstraints (c : Nat) (s : Scene α) :
    Leads (hintConstraints c) s (s.Hinted c) := by
  have hhint : Leads (sizeHint c) s fun hint t => s.Spares ∅ ∅ t ∧
      (s.hasLayout c = false → hint = s.nativeHint c) := by
    refine ⟨through_sizeHint c s, fun h => ?_⟩
    exact (leads_sizeHint h).1
  refine leads_bind.2 (hhint.mono fun hint t ht => ?_)
  have hspares : Leads (policyOf c) t fun _ u => t.Spares ∅ ∅ u := through_policyOf c t
  refine leads_bind.2 ((hspares.and (leads_policyOf c t)).mono ?_)
  rintro policy u ⟨hu, rfl⟩
  have hsu : s.Spares ∅ ∅ u := IsTrans.trans _ _ _ ht.1 hu
  refine leads_bind.2 (leads_get.2 ?_)
  split
  · next hnone =>
    refine leads_pure.2 ⟨hsu, nofun, fun comp hcomp => ?_⟩
    obtain ⟨comp', hcomp', -⟩ := hsu.agree.exists_after hcomp
    cases (Option.map_eq_none_iff.1 hnone).symm.trans hcomp'
  · next box hbox =>
    obtain ⟨comp', hcomp', rfl⟩ := Option.map_eq_some_iff.1 hbox
    refine leads_modifyGet.2 ⟨IsTrans.trans _ _ _ hsu (through_fresh _ u), fun x hx => ?_,
      fun comp hcomp hnew => ⟨u.nextConstraint, ?_⟩⟩
    · obtain ⟨hfirst, hlast⟩ := Box.id_of_mem_hintConstraints hx
      exact ⟨hsu.next.trans hfirst, hlast⟩
    · obtain ⟨a, ha, hfollows⟩ := hsu.agree.exists_after hcomp
      cases ha.symm.trans hcomp'
      have hlayout : s.hasLayout c = false := by
        unfold hasLayout
        rw [hcomp]
        exact hnew
      rw [ht.1.agree.policyAt ht.1.toCalm, ht.2 hlayout, ← hfollows.box]
      rfl

end Scene

end ReactiveView
