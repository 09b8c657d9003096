import ReactiveView.Proofs.Component.Steady

/-!
This module contains where children are placed: within their container, in every pass of every run.
The constraints that hold a child within its parent are in the parent's solver at every moment, they
are required inequalities, and every solution meets these.
-/

namespace ReactiveView

/-- A place and a size are within a container of a given size. -/
structure Geometry.Inside (g : Geometry ℚ) (size : Size ℚ) : Prop where
  left : 0 ≤ g.x
  top : 0 ≤ g.y
  width : 0 ≤ g.width
  height : 0 ≤ g.height
  right : g.x + g.width ≤ size.width
  bottom : g.y + g.height ≤ size.height

namespace Box

variable {parent child : Box} {first : Nat} {c : Constraint ℚ} {sol : Solution ℚ}

theorem of_mem_insideConstraints (h : c ∈ parent.insideConstraints child first) :
    c.IsRequired ∧ c.relation ≠ .equal := by
  simp only [insideConstraints, number, List.length_cons, List.length_nil, List.range_succ,
    List.range_zero, List.nil_append, List.cons_append, List.zip_cons_cons, List.zip_nil_left,
    List.map_cons, List.map_nil, List.mem_cons, List.not_mem_nil, or_false] at h
  rcases h with rfl | rfl | rfl | rfl | rfl | rfl <;>
    exact ⟨Constraint.isRequired_between .., fun h => by cases h⟩

/-- What holds a child within its parent says so. -/
theorem inside_resolve (first : Nat)
    (h : ∀ c ∈ parent.insideConstraints child first, c.Holds sol.value) :
    (child.resolve sol).Inside ⟨sol.value parent.width, sol.value parent.height⟩ := by
  simp only [insideConstraints, number, List.length_cons, List.length_nil, List.range_succ,
    List.range_zero, List.nil_append, List.cons_append, List.zip_cons_cons, List.zip_nil_left,
    List.map_cons, List.map_nil, List.forall_mem_cons, Constraint.holds_between_atLeast,
    Constraint.holds_between_atMost, right, bottom, LinearExpr.evaluate_plus,
    LinearExpr.evaluate_ofVariable, LinearExpr.evaluate_ofConstant, Scalar.zero_rat] at h
  obtain ⟨hleft, htop, hright, hbottom, hwidth, hheight, -⟩ := h
  exact ⟨hleft, htop, hwidth, hheight, hright, hbottom⟩

end Box

namespace Layout

variable {α β : Type} [Scalar α]

/-- What the receiver makes of a solution does not matter to a resize. -/
theorem resize_receive (l : Layout α) (width height : Variable) (size : Size α)
    (strength : Strength α) (receive : Solution α → β) :
    (l.resize width height size strength fun sol l => (receive sol, l)).1
      = (Option.map receive) <$> (l.resize width height size strength fun sol l => (sol, l)).1 := by
  unfold resize
  rcases l.guard.enter with ⟨_ | _, guard⟩
  · rfl
  · dsimp only
    generalize { l with guard }.solveWith "layout" _ strength = p
    rcases p with ⟨_ | _, l'⟩ <;> rfl

end Layout

namespace Scene

section Geometry

variable {α : Type} {s t : Scene α} {c j k : Nat} {g : Geometry α} {comp : Component α}

/-- The geometry of a component, if it has been placed. -/
def placed? (s : Scene α) (k : Nat) : Option (Geometry α) :=
  (s.component? k).bind Component.geometry

theorem placed?_update {f : Component α → Component α} (hf : ∀ a, (f a).geometry = a.geometry) :
    (s.update c f).placed? k = s.placed? k := by
  unfold placed?
  rw [component?_update]
  split
  · rcases s.component? k with _ | a
    · rfl
    · exact hf a
  · rfl

theorem placed?_note (level : Level) (message : String) (fields : List (String × String)) :
    (s.note level message fields).placed? k = s.placed? k := rfl

theorem placed?_invalidateLayout : (s.invalidateLayout c).placed? k = s.placed? k := by
  have hdue : (s.update c fun a => { a with needsLayout := true }).placed? k = s.placed? k :=
    placed?_update fun _ => rfl
  unfold invalidateLayout schedule
  split
  · split
    · exact hdue
    · exact hdue
  · exact hdue

variable [Scalar α]

theorem placed?_place (s : Scene α) (c : Nat) (g : Geometry α) (k : Nat) :
    (s.place c g).placed? k
      = if k = c then (s.component? k).map fun _ => g else s.placed? k := by
  have hset {f : Component α → Component α} (hf : ∀ a, (f a).geometry = some g) :
      (s.update c f).placed? k
        = if k = c then (s.component? k).map fun _ => g else s.placed? k := by
    unfold placed?
    rw [component?_update]
    split
    · rcases s.component? k with _ | a
      · rfl
      · exact hf a
    · rfl
  unfold place
  split
  · next hnone =>
    split
    · next hk =>
      subst hk
      unfold placed?
      rw [hnone]
      rfl
    · rfl
  · dsimp only
    split
    all_goals
      split
      · exact placed?_invalidateLayout.trans (hset fun _ => rfl)
      · exact hset fun _ => rfl

/-- Components that get no place stay where they are. -/
theorem placed?_places_of_forall_ne (places : List (Nat × Geometry α)) (s : Scene α)
    (h : ∀ place ∈ places, k ≠ place.1) :
    (places.foldl (fun s (k, g) => s.place k g) s).placed? k = s.placed? k := by
  induction places generalizing s with
  | nil => rfl
  | cons place rest ih =>
    obtain ⟨hne, hrest⟩ := List.forall_mem_cons.1 h
    rw [List.foldl_cons, ih _ hrest, placed?_place, if_neg hne]

/-- A component that gets one place, perhaps more than once, is there in the end. -/
theorem placed?_places (places : List (Nat × Geometry α)) (s : Scene α)
    (hk : s.component? k ≠ none) (hmem : (k, g) ∈ places)
    (hsame : ∀ place ∈ places, place.1 = k → place.2 = g) :
    (places.foldl (fun s (k, g) => s.place k g) s).placed? k = some g := by
  induction places generalizing s with
  | nil => cases hmem
  | cons place rest ih =>
    obtain ⟨hfirst, hrest⟩ := List.forall_mem_cons.1 hsame
    obtain ⟨j, g'⟩ := place
    rw [List.foldl_cons]
    by_cases hlater : (k, g) ∈ rest
    · obtain ⟨a, ha⟩ := Option.ne_none_iff_exists'.1 hk
      obtain ⟨b, hb, -⟩ := (stirs_place (S := ∅) (T := ∅) s j g').agree.exists_after ha
      exact ih _ (by rw [hb]; exact Option.some_ne_none b) hlater hrest
    · obtain ⟨rfl, rfl⟩ := Prod.mk.inj ((List.mem_cons.1 hmem).resolve_right hlater)
      rw [placed?_places_of_forall_ne, placed?_place, if_pos rfl]
      · obtain ⟨a, ha⟩ := Option.ne_none_iff_exists'.1 hk
        rw [ha]
        rfl
      · rintro ⟨i, g'⟩ hplace rfl
        obtain rfl : g' = g := hrest _ hplace rfl
        exact hlater hplace

/-! ### Passes -/

/-- The solution that a pass over a component takes the places of the children from, if it comes to
one. -/
def passSolution (s : Scene α) (comp : Component α) : Option (Solution α) :=
  (comp.layout.resize comp.box.width comp.box.height comp.size s.resizeStrength
    fun sol l => (sol, l)).1.toOption.join

theorem of_passSolution_eq_some {sol : Solution α} (h : s.passSolution comp = some sol) :
    (comp.layout.resize comp.box.width comp.box.height comp.size s.resizeStrength
      fun sol l => (sol, l)).1 = .ok (some sol) := by
  unfold passSolution at h
  generalize (comp.layout.resize _ _ _ _ fun sol l => (sol, l)).1 = found at h ⊢
  rcases found with _ | _ | _
  · cases h
  · cases h
  · cases h
    rfl

theorem passSolution_of_not_isInitialized (h : comp.layout.isInitialized = false) :
    s.passSolution comp = none := by
  unfold passSolution Layout.resize Layout.solveWith
  rcases comp.layout.guard.enter with ⟨_ | _, guard⟩
  · rfl
  · rw [Layout.isInitialized_eq_false_iff.1 h]
    rfl

/-- The layout is asked, and no component moves yet. -/
theorem leads_askPass {β : Type} (hc : s.component? c = some comp) (receive : Solution α → β) :
    Leads (tryLayout c fun l => l.resize comp.box.width comp.box.height comp.size s.resizeStrength
        fun sol l => (receive sol, l)).run s fun r t =>
      (∀ k, t.placed? k = s.placed? k) ∧ s.Spares {c} ∅ t ∧
        r.toOption.join = (s.passSolution comp).map receive := by
  rw [leads_tryLayout, hc]
  dsimp only
  refine ⟨fun k => placed?_update fun _ => rfl, spares_turn c (fun a => a.answered_sameTree ..)
    fun _ => ⟨rfl, rfl⟩, ?_⟩
  rw [Layout.resize_receive]
  unfold passSolution
  generalize (comp.layout.resize _ _ _ _ fun sol l => (sol, l)).1 = found
  rcases found with _ | _ | _ <;> rfl

omit [Scalar α] in
theorem mem_childBoxes {box : Box} (hc : s.component? c = some comp) :
    (k, box) ∈ s.childBoxes c ↔ k ∈ comp.children ∧ s.box? k = some box := by
  unfold childBoxes
  rw [List.mem_filterMap, children_eq hc]
  constructor
  · rintro ⟨j, hj, hbox⟩
    obtain ⟨box', hbox', heq⟩ := Option.map_eq_some_iff.1 hbox
    cases heq
    exact ⟨hj, hbox'⟩
  · rintro ⟨hk, hbox⟩
    exact ⟨k, hk, by rw [hbox]; rfl⟩

/-- A pass changes the places of the children only, and it takes them from one solution. -/
theorem leads_placeChildren (hc : s.component? c = some comp) :
    Leads (placeChildren c).run s fun _ t =>
      (∀ k, k ∉ comp.children ∨ s.passSolution comp = none → t.placed? k = s.placed? k) ∧
      ∀ sol, s.passSolution comp = some sol → ∀ k ∈ comp.children, ∀ child,
        s.component? k = some child → t.placed? k = some (child.box.resolve sol) := by
  unfold placeChildren
  refine leads_run_modify_bind.2 (leads_run_get_bind.2 ?_)
  have hkept (k : Nat) : (s.update c fun a => { a with needsLayout := false }).placed? k
      = s.placed? k := placed?_update fun _ => rfl
  have hfollows : s.Spares ∅ ∅ (s.update c fun a => { a with needsLayout := false }) :=
    spares_update fun _ _ => Component.follows_shown ..
  have hc' := component?_update_self hc fun a => { a with needsLayout := false }
  have hstrength : (s.update c fun a => { a with needsLayout := false }).resizeStrength
      = s.resizeStrength := rfl
  generalize s.update c (fun a => { a with needsLayout := false }) = u at *
  rw [hc']
  dsimp only
  have hpass : u.passSolution { comp with needsLayout := false } = s.passSolution comp := by
    unfold passSolution
    rw [hstrength]
  split
  · refine (leads_askPass hc' _).run_bind (fun found t ht => ?_) fun e t ht => ?_
    · obtain ⟨hstay, hspares, hfound⟩ := ht
      rw [hpass] at hfound
      split
      · next hnone =>
        have hnone := Option.map_eq_none_iff.1 hfound.symm
        exact leads_run_pure.2 ⟨fun k _ => (hstay k).trans (hkept k),
          fun sol hsol => nomatch hnone.symm.trans hsol⟩
      · next places hplaces =>
        obtain ⟨sol, hsol, rfl⟩ := Option.map_eq_some_iff.1 hfound.symm
        rw [hsol]
        refine leads_run_modify.2 ⟨fun k hk => ?_, fun sol' hsol' k hk child hchild => ?_⟩
        · rw [placed?_places_of_forall_ne]
          · refine Eq.trans ?_ ((hstay k).trans (hkept k))
            rw [placed?_note]
            exact placed?_update fun _ => rfl
          · rintro place hplace rfl
            obtain ⟨⟨j, box⟩, hbox, rfl⟩ := List.mem_map.1 hplace
            exact hk.resolve_right nofun ((mem_childBoxes hc').1 hbox).1
        · cases hsol'
          obtain ⟨child', hchild', hsame⟩ := hfollows.agree.exists_after hchild
          obtain ⟨child'', hchild'', -⟩ := hspares.agree.exists_after hchild'
          have hbox : u.box? k = some child.box := by
            unfold box?
            rw [hchild', Option.map_some, hsame.box]
          refine placed?_places _ _ ?_ ?_ ?_
          · have hcounted : t.Spares ∅ ∅ (t.update c fun a =>
                { a with layoutPasses := a.layoutPasses + 1 }) :=
              spares_update fun _ _ => Component.follows_shown ..
            obtain ⟨a, ha, -⟩ := hcounted.agree.exists_after hchild''
            rw [component?_note, ha]
            exact Option.some_ne_none a
          · exact List.mem_map.2 ⟨(k, child.box), (mem_childBoxes hc').2 ⟨hk, hbox⟩, rfl⟩
          · rintro place hplace rfl
            obtain ⟨⟨j, box⟩, hmem, rfl⟩ := List.mem_map.1 hplace
            cases hbox.symm.trans ((mem_childBoxes hc').1 hmem).2
            rfl
    · obtain ⟨hstay, -, hfound⟩ := ht
      rw [hpass] at hfound
      have hnone := Option.map_eq_none_iff.1 hfound.symm
      exact ⟨fun k _ => (hstay k).trans (hkept k), fun sol hsol => nomatch hnone.symm.trans hsol⟩
  · next hinit =>
    have hnone := passSolution_of_not_isInitialized (s := s) (Bool.eq_false_of_not_eq_true hinit)
    exact leads_run_pure.2 ⟨fun k _ => hkept k, fun sol hsol => nomatch hnone.symm.trans hsol⟩

end Geometry

/-! ### Within the container -/

variable {s : Scene ℚ} {c : Nat} {comp : Component ℚ}

/-- At every moment of a run the solver of a component that has not broken down has what holds its
children within it. -/
theorem Reached.exists_live_inside (h : Reached s) (hc : s.component? c = some comp)
    (hwhole : comp.breakdowns = 0) {solver : Solver ℚ} (hsolver : comp.layout.solver = some solver)
    {k : Nat} (hk : k ∈ comp.children) : ∃ child first, s.component? k = some child ∧
      ∀ con ∈ (comp.box.insideConstraints child.box first : List (Constraint ℚ)),
        ∃ key lv, solver.live.get? key = some lv ∧ lv.constraint = con := by
  have hinit : comp.layout.isInitialized = true := Option.isSome_iff_exists.2 ⟨solver, hsolver⟩
  have hfits := h.sound.fits c comp hc hinit
  obtain ⟨child, first, hchild, hcontainment⟩ := hfits.inside k hk List.not_mem_nil
  obtain ⟨start, hlists⟩ := hfits.lists
  have hholding := hlists hwhole solver hsolver
  refine ⟨child, first, hchild, fun con hcon => ?_⟩
  have hmem : con ∈ s.expected [] comp start := by
    rw [expected_nil]
    refine List.mem_append_left _ (List.mem_append_right _ (List.mem_flatMap.2 ⟨k, hk, ?_⟩))
    rw [contributions_eq hchild, hcontainment]
    exact List.mem_append_left _ hcon
  obtain ⟨lv, hlv, hlive⟩ := (hholding.lists.mem_iff hholding.ascending).2 ⟨hmem, rfl⟩
  exact ⟨_, lv, hlv, hlive⟩

/-- In every pass of a run over a component that has not broken down, each child gets a place within
the component's size in the same solution; a pass that comes to no solution moves nothing. What waits
besides does not matter. -/
theorem Reached.inside_of_placeChildren (h : Reached s) (hc : s.component? c = some comp)
    (hwhole : comp.breakdowns = 0) (queue : Queue Task) :
    Leads (placeChildren c).run { s with queue } fun _ t =>
      match s.passSolution comp with
      | none => ∀ k, t.placed? k = s.placed? k
      | some sol => (∀ k ∉ comp.children, t.placed? k = s.placed? k) ∧
          ∀ k ∈ comp.children, ∃ g, t.placed? k = some g ∧
            g.Inside ⟨sol.value comp.box.width, sol.value comp.box.height⟩ := by
  have hc' : Scene.component? { s with queue } c = some comp := hc
  refine (leads_placeChildren hc').mono fun _ t ht => ?_
  obtain ⟨hstay, hplaced⟩ := ht
  have hpass : Scene.passSolution { s with queue } comp = s.passSolution comp := rfl
  rw [hpass] at hstay hplaced
  cases hsol : s.passSolution comp with
  | none => exact fun k => hstay k (.inr hsol)
  | some sol =>
    refine ⟨fun k hk => hstay k (.inl hk), fun k hk => ?_⟩
    have hsteady := h.steady c comp hc
    obtain ⟨_, solver, rfl, hsolver, hconfines⟩ := ((hsteady.layout hwhole).resize hsteady.ne
      comp.size s.resizeStrength fun sol => sol).2 sol (of_passSolution_eq_some hsol)
    obtain ⟨child, first, hchild, hlive⟩ := h.exists_live_inside hc hwhole hsolver hk
    refine ⟨_, hplaced sol hsol k hk child hchild, Box.inside_resolve first ?_⟩
    intro con hcon
    obtain ⟨key, lv, hlv, rfl⟩ := hlive con hcon
    obtain ⟨hrequired, hrelation⟩ := Box.of_mem_insideConstraints hcon
    exact hconfines key lv hlv hrequired hrelation

theorem Reached.inside_of_placeChildren_sampleScene :
    ∃ n s comp sol, sampleScene.runPending = some (n, s) ∧ s.component? 0 = some comp ∧
      s.passSolution comp = some sol ∧ comp.children = [1] ∧
      Leads (placeChildren 0).run s fun _ t => ∃ g, t.placed? 1 = some g ∧
        g.Inside ⟨sol.value comp.box.width, sol.value comp.box.height⟩ := by
  have hrun : (sampleScene.runPending.bind fun (_, s) => (s.component? 0).bind fun comp =>
      (s.passSolution comp).map fun _ => (comp.breakdowns, comp.children)) = some (0, [1]) := by
    decide +kernel
  obtain ⟨⟨n, s⟩, hpending, hrun⟩ := Option.bind_eq_some_iff.1 hrun
  obtain ⟨comp, hcomp, hrun⟩ := Option.bind_eq_some_iff.1 hrun
  obtain ⟨sol, hsol, hrun⟩ := Option.map_eq_some_iff.1 hrun
  obtain ⟨hwhole, hchildren⟩ := Prod.mk.inj hrun
  obtain ⟨hreached, -⟩ := reached_sampleScene.runPending hpending
  have hplaced := hreached.inside_of_placeChildren hcomp hwhole s.queue
  rw [hsol] at hplaced
  refine ⟨n, s, comp, sol, hpending, hcomp, hsol, hchildren, hplaced.mono fun _ t ht => ?_⟩
  exact ht.2 1 (by rw [hchildren]; exact List.mem_singleton_self 1)

end Scene

end ReactiveView
