import ReactiveView.Proofs.Component.Acts
import ReactiveView.Proofs.Component.Runs

/-!
This module contains why draining comes to an end. Tasks queue tasks: layouts go down the tree, size
hints go up, and constraints do both. Each task has a cost, which it pays for itself and for all that
it queues, so that the load of the queue falls with every task that is run, whatever the solvers
answer. The load of a queue is at most the budget that draining starts with.
-/

namespace ReactiveView

namespace Scene

variable {α : Type} {s t u : Scene α} {c k p d m n : Nat} {f : Component α → Component α}
  {task : Task}

/--
Components and their children form trees: a child refers back to its parent, and the way up comes to
an end.
-/
structure Grounded (s : Scene α) : Prop where
  parent : ∀ c k, k ∈ s.children c → s.parent? k = some c
  climbs : ∃ height : Nat → Nat, ∀ c p, s.parent? c = some p → height c < height p

/-! ### The shape of the tree -/

/-- The children of a component and what it refers to as its parent. -/
def station? (s : Scene α) (k : Nat) : Option (List Nat × Option Nat) :=
  (s.component? k).map fun a => (a.children, a.parent)

theorem children_station (s : Scene α) (k : Nat) :
    s.children k = ((s.station? k).map Prod.fst).getD [] := by
  unfold children station?
  cases s.component? k <;> rfl

theorem parent?_station (s : Scene α) (k : Nat) : s.parent? k
    = (s.station? k).bind fun a => a.2.bind fun p => (s.station? p).map fun _ => p := by
  unfold parent? station?
  cases s.component? k with
  | none => rfl
  | some a =>
    refine congrArg a.parent.bind (funext fun p => ?_)
    cases s.component? p <;> rfl

/-- The same components with the same parents and children. -/
structure SameShape (s t : Scene α) : Prop where
  station : ∀ k, t.station? k = s.station? k
  count : t.components.size = s.components.size

theorem SameShape.refl (s : Scene α) : s.SameShape s := ⟨fun _ => rfl, rfl⟩

theorem SameShape.trans (h : s.SameShape t) (h' : t.SameShape u) : s.SameShape u :=
  ⟨fun k => (h'.station k).trans (h.station k), h'.count.trans h.count⟩

theorem SameShape.children (h : s.SameShape t) : t.children = s.children := by
  funext k
  rw [children_station, children_station, h.station]

theorem SameShape.parent (h : s.SameShape t) : t.parent? = s.parent? := by
  funext k
  simp only [parent?_station, h.station]

theorem SameShape.of_components (h : t.components = s.components) : s.SameShape t := by
  refine ⟨fun k => ?_, congrArg Array.size h⟩
  unfold station? component?
  rw [h]

theorem Inner.sameShape (h : s.Inner t) : s.SameShape t := by
  have hface (u : Scene α) (k : Nat) :
      u.station? k = (u.face? k).map fun a => (a.children, a.parent) := by
    unfold station? face?
    cases u.component? k <;> rfl
  refine ⟨fun k => ?_, h.count⟩
  rw [hface, hface, h.faces]

theorem sameShape_update (s : Scene α) (c : Nat)
    (h : ∀ a, ((f a).children, (f a).parent) = (a.children, a.parent)) :
    s.SameShape (s.update c f) := by
  refine ⟨fun k => ?_, size_update ..⟩
  unfold station?
  rw [component?_update]
  split
  · cases s.component? k with
    | none => rfl
    | some a => exact congrArg some (h a)
  · rfl

theorem Grounded.congr (h : s.Grounded) (hst : s.SameShape t) : t.Grounded := by
  obtain ⟨hparent, hclimbs⟩ := h
  rw [← hst.children, ← hst.parent] at hparent
  rw [← hst.parent] at hclimbs
  exact ⟨hparent, hclimbs⟩

/-! ### Weights -/

theorem descendants_congr (h : s.SameShape t) (n c : Nat) :
    t.descendants n c = s.descendants n c := by
  induction n generalizing c with
  | zero => rfl
  | succ n ih =>
    rw [descendants, descendants, h.children]
    exact congrArg (c :: ·) (List.flatMap_congr fun k _ => ih k)

theorem subtree_congr (h : s.SameShape t) (c : Nat) : t.subtree c = s.subtree c := by
  unfold subtree
  rw [h.count, descendants_congr h]

theorem layoutWeight_congr (h : s.SameShape t) : t.layoutWeight = s.layoutWeight :=
  funext fun c => congrArg List.length (subtree_congr h c)

theorem hintWeight_congr (h : s.SameShape t) (n c : Nat) :
    t.hintWeight n c = s.hintWeight n c := by
  induction n generalizing c with
  | zero => rfl
  | succ n ih =>
    rw [hintWeight, hintWeight, h.parent, layoutWeight_congr h]
    cases s.parent? c with
    | none => rfl
    | some p => exact congrArg (1 + s.layoutWeight p + ·) (ih p)

/-- What a changed size hint comes to. -/
def hintCost (s : Scene α) (c : Nat) : Nat := s.hintWeight s.components.size c

/-- What a task comes to, itself included. -/
def cost (s : Scene α) : Task → Nat
  | .constraints c => 1 + ((s.subtree c).map s.hintCost).sum
  | .layout c => 1 + ((s.children c).map s.layoutWeight).sum
  | .sizeHint p _ => 1 + s.layoutWeight p + s.hintCost p

/-- What all tasks that wait come to. -/
def load (s : Scene α) : Nat := (s.queue.pending.map s.cost).sum

theorem hintCost_congr (h : s.SameShape t) : t.hintCost = s.hintCost := by
  funext c
  unfold hintCost
  rw [h.count, hintWeight_congr h]

theorem cost_congr (h : s.SameShape t) : t.cost = s.cost := by
  funext task
  cases task with
  | constraints c => rw [cost, cost, subtree_congr h, hintCost_congr h]
  | layout c => rw [cost, cost, h.children, layoutWeight_congr h]
  | sizeHint p c => rw [cost, cost, layoutWeight_congr h, hintCost_congr h]

theorem cost_pos (s : Scene α) (task : Task) : 0 < s.cost task := by
  cases task with
  | constraints c => exact Nat.le_add_right ..
  | layout c => exact Nat.le_add_right ..
  | sizeHint p c =>
    rw [cost, Nat.add_assoc]
    exact Nat.le_add_right ..

/-! ### Weights that do not depend on a depth -/

theorem lt_size_of_parent? (h : s.parent? c = some p) : c < s.components.size := by
  unfold parent? at h
  obtain ⟨comp, hcomp, -⟩ := Option.bind_eq_some_iff.1 h
  exact lt_size_of_component? hcomp

/-- Where the way up comes to an end, no component is higher than there are components. -/
theorem Grounded.exists_height (h : s.Grounded) : ∃ height : Nat → Nat,
    (∀ c p, s.parent? c = some p → height c < height p) ∧
      ∀ c < s.components.size, height c < s.components.size := by
  obtain ⟨height, hclimbs⟩ := h.climbs
  -- The height of a component is counted anew, as the number of components below it.
  let below (c : Nat) := (Finset.range s.components.size).filter fun d => height d < height c
  refine ⟨fun c => (below c).card, fun c p hp => Finset.card_lt_card ?_, fun c hc => ?_⟩
  · have hlt := hclimbs c p hp
    refine Finset.ssubset_iff_subset_ne.2 ⟨fun d hd => ?_, fun heq => ?_⟩
    · obtain ⟨hd, hdc⟩ := Finset.mem_filter.1 hd
      exact Finset.mem_filter.2 ⟨hd, hdc.trans hlt⟩
    · have hmem : c ∈ below p :=
        Finset.mem_filter.2 ⟨Finset.mem_range.2 (lt_size_of_parent? hp), hlt⟩
      rw [← heq] at hmem
      exact lt_irrefl _ (Finset.mem_filter.1 hmem).2
  · have hsubset : below c ⊂ Finset.range s.components.size := by
      refine Finset.ssubset_iff_subset_ne.2 ⟨Finset.filter_subset .., fun heq => ?_⟩
      have hmem := Finset.mem_range.2 hc
      rw [← heq] at hmem
      exact lt_irrefl _ (Finset.mem_filter.1 hmem).2
    exact (Finset.card_lt_card hsubset).trans_eq (Finset.card_range _)

variable {height : Nat → Nat}

theorem descendants_stable (hparent : ∀ c k, k ∈ s.children c → s.parent? k = some c)
    (hclimbs : ∀ c p, s.parent? c = some p → height c < height p) (hn : height c < n) (hm : n ≤ m) :
    s.descendants m c = s.descendants n c := by
  induction n generalizing c m with
  | zero => cases hn
  | succ n ih =>
    obtain ⟨m, rfl⟩ := Nat.exists_eq_add_one_of_ne_zero (Nat.ne_of_gt (Nat.lt_of_lt_of_le n.succ_pos hm))
    rw [descendants, descendants]
    refine congrArg (c :: ·) (List.flatMap_congr fun k hk => ?_)
    have hlower := hclimbs k c (hparent c k hk)
    exact ih (by omega) (by omega)

theorem hintWeight_stable (hclimbs : ∀ c p, s.parent? c = some p → height c < height p)
    (hbound : ∀ c < s.components.size, height c < s.components.size)
    (hn : s.components.size ≤ height c + n) (hm : n ≤ m) :
    s.hintWeight m c = s.hintWeight n c := by
  induction n generalizing c m with
  | zero =>
    have hroot : s.parent? c = none := by
      cases hp : s.parent? c with
      | none => rfl
      | some p =>
        have := hbound c (lt_size_of_parent? hp)
        omega
    cases m with
    | zero => rfl
    | succ m =>
      unfold hintWeight
      rw [hroot]
  | succ n ih =>
    obtain ⟨m, rfl⟩ := Nat.exists_eq_add_one_of_ne_zero (Nat.ne_of_gt (Nat.lt_of_lt_of_le n.succ_pos hm))
    rw [hintWeight, hintWeight]
    cases hp : s.parent? c with
    | none => rfl
    | some p =>
      have hhigher := hclimbs c p hp
      exact congrArg (1 + s.layoutWeight p + ·) (ih (by omega) (by omega))

/-- A component costs as much as itself and its children. -/
theorem Grounded.cost_layout (h : s.Grounded) (hc : c < s.components.size) :
    s.cost (.layout c) = s.layoutWeight c := by
  obtain ⟨height, hclimbs, hbound⟩ := h.exists_height
  have hheight := hbound c hc
  have hchild (k : Nat) (hk : k ∈ s.children c) :
      s.layoutWeight k = (s.descendants (s.components.size - 1) k).length := by
    have hlower := hclimbs k c (h.parent c k hk)
    exact congrArg List.length (descendants_stable h.parent hclimbs (by omega) (by omega))
  have hsubtree : s.subtree c
      = c :: (s.children c).flatMap (s.descendants (s.components.size - 1)) := by
    unfold subtree
    obtain ⟨m, hm⟩ := Nat.exists_eq_add_one_of_ne_zero (Nat.ne_of_gt (Nat.lt_of_le_of_lt c.zero_le hc))
    rw [hm]
    rfl
  rw [cost, layoutWeight, hsubtree, List.length_cons, List.length_flatMap,
    List.map_congr_left hchild, Nat.add_comm]

/-- A size hint costs what its parent has to do, and what the parent's own size hint costs. -/
theorem Grounded.hintCost_eq (h : s.Grounded) (hp : s.parent? c = some p) :
    s.hintCost c = s.cost (.sizeHint p c) := by
  obtain ⟨height, hclimbs, hbound⟩ := h.exists_height
  have hstable : s.hintCost c = s.hintWeight (s.components.size + 1) c :=
    (hintWeight_stable hclimbs hbound (by omega) (by omega)).symm
  rw [hstable, hintWeight, hp]
  rfl

/-! ### What steps add to the load -/

/-- A step within the tree that queues tasks of a bounded cost. -/
structure Adds (n : Nat) (s t : Scene α) : Prop extends SameShape s t where
  load : t.load ≤ s.load + n

theorem Adds.trans (h : Adds m s t) (h' : Adds n t u) : Adds (m + n) s u :=
  ⟨h.toSameShape.trans h'.toSameShape, by
    have := h.load
    have := h'.load
    omega⟩

theorem Adds.mono (h : Adds m s t) (hmn : m ≤ n) : Adds n s t :=
  ⟨h.toSameShape, h.load.trans (Nat.add_le_add_left hmn _)⟩

theorem SameShape.adds (h : s.SameShape t) (hqueue : t.queue = s.queue) : Adds 0 s t :=
  ⟨h, by rw [Scene.load, Scene.load, cost_congr h, hqueue, Nat.add_zero]⟩

theorem Inner.adds (h : s.Inner t) : Adds 0 s t := h.sameShape.adds h.queue

theorem Adds.of_queued {queued : List Task} (h : s.SameShape t)
    (hqueue : t.queue.pending = s.queue.pending ++ queued) :
    Adds (queued.map s.cost).sum s t :=
  ⟨h, by rw [Scene.load, Scene.load, cost_congr h, hqueue, List.map_append, List.sum_append]⟩

theorem adds_invalidateLayout (h : s.Grounded) (c : Nat) :
    Adds (s.layoutWeight c) s (s.invalidateLayout c) := by
  have hshape : s.SameShape (s.invalidateLayout c) := by
    have hmarked := sameShape_update s c (f := fun comp => { comp with needsLayout := true })
      fun _ => rfl
    refine hmarked.trans (SameShape.of_components ?_)
    unfold invalidateLayout schedule
    split
    · split <;> rfl
    · rfl
  refine (Adds.of_queued hshape (pending_invalidateLayout s c)).mono ?_
  split
  · next hdue =>
    obtain ⟨comp, hcomp, -⟩ := liveAt_eq_true_iff.1 (Bool.and_eq_true_iff.1 hdue).1
    rw [List.map_singleton, List.sum_singleton, h.cost_layout (lt_size_of_component? hcomp)]
  · exact Nat.zero_le _

theorem adds_announceHint (h : s.Grounded) (c : Nat) :
    Adds (s.hintCost c) s (s.announceHint c) := by
  have hstay : Adds (s.hintCost c) s s := ((SameShape.refl s).adds rfl).mono (Nat.zero_le _)
  unfold announceHint
  split
  · exact hstay
  · next p hp =>
    split
    · split
      · have hqueued : Adds ([Task.sizeHint p c].map s.cost).sum s
            { s with queue := s.queue.push (.sizeHint p c) } :=
          Adds.of_queued (SameShape.of_components rfl) (Queue.pending_push ..)
        refine hqueued.mono ?_
        rw [List.map_singleton, List.sum_singleton, h.hintCost_eq hp]
      · exact hstay
    · exact hstay

variable [Scalar α]

theorem adds_handConstraintsOne (h : s.Grounded) (c : Nat) :
    Leads (handConstraintsOne c).run s fun _ t => Adds (s.hintCost c) s t := by
  refine leads_run_modify_bind.2 (leads_run_get_bind.2 ?_)
  have hopened := (sameShape_update s c (f := fun comp =>
    { comp with
      needsConstraints := false
      constraintPasses := comp.constraintPasses + 1
      refused := comp.layout.isInitialized }) fun _ => rfl).adds rfl
  generalize s.update c _ = t at hopened ⊢
  have hstay {u : Scene α} (hu : t.Inner u) : Adds (s.hintCost c) s u :=
    (hopened.trans hu.adds).mono (Nat.zero_le _)
  split
  · exact leads_run_pure.2 (hstay (Std.Refl.refl t))
  · next comp _ =>
    split
    · refine (inner_tryLogged c _ t).run_bind (fun _ u hu => ?_) fun _ _ hu => hstay hu
      refine leads_run_modify_bind.2 (leads_run_lift_bind.2 ?_)
      have happlied := (sameShape_update u c (f := fun comp' =>
        { comp' with appliedConstraints := comp.userConstraints, refused := false })
        fun _ => rfl).adds rfl
      refine (inner_tellBounds c _).mono fun _ v hv => leads_run_modify.2 ?_
      have hbefore := ((hopened.trans hu.adds).trans happlied).trans hv.adds
      refine (hbefore.trans (adds_announceHint (h.congr hbefore.toSameShape) c)).mono ?_
      rw [hintCost_congr hbefore.toSameShape]
      exact (Nat.zero_add _).le
    · exact leads_run_pure.2 (hstay (Std.Refl.refl t))

theorem adds_handConstraintsOnes (h : s.Grounded) (cs : List Nat) :
    Leads (cs.forM handConstraintsOne).run s fun _ t => Adds (cs.map s.hintCost).sum s t := by
  induction cs generalizing s with
  | nil => exact leads_run_pure.2 ((SameShape.refl s).adds rfl)
  | cons c rest ih =>
    rw [List.map_cons, List.sum_cons]
    refine (adds_handConstraintsOne h c).run_bind (fun _ t ht => ?_) fun _ _ ht =>
      ht.mono (Nat.le_add_right ..)
    refine (ih (h.congr ht.toSameShape)).mono fun _ u hu => ht.trans ?_
    rwa [hintCost_congr ht.toSameShape] at hu

theorem adds_handConstraints (h : s.Grounded) (c : Nat) :
    Leads (handConstraints c).run s fun _ t => Adds ((s.subtree c).map s.hintCost).sum s t :=
  leads_run_get_bind.2 (adds_handConstraintsOnes h (s.subtree c))

theorem adds_place (h : s.Grounded) (c : Nat) (geometry : Geometry α) :
    Adds (s.layoutWeight c) s (s.place c geometry) := by
  unfold place
  split
  · exact ((SameShape.refl s).adds rfl).mono (Nat.zero_le _)
  · dsimp only
    have hset (f : Component α → Component α)
        (hf : ∀ a, ((f a).children, (f a).parent) = (a.children, a.parent)) :
        Adds (s.layoutWeight c) s (s.update c f) :=
      ((sameShape_update s c hf).adds rfl).mono (Nat.zero_le _)
    have hlaid (f : Component α → Component α)
        (hf : ∀ a, ((f a).children, (f a).parent) = (a.children, a.parent)) :
        Adds (s.layoutWeight c) s ((s.update c f).invalidateLayout c) := by
      have hbefore := (sameShape_update s c hf).adds rfl
      refine (hbefore.trans (adds_invalidateLayout (h.congr hbefore.toSameShape) c)).mono ?_
      rw [layoutWeight_congr hbefore.toSameShape, Nat.zero_add]
    split
    all_goals
      split
      · refine hlaid _ ?_
        exact fun _ => rfl
      · refine hset _ ?_
        exact fun _ => rfl

theorem adds_places (h : s.Grounded) (places : List (Nat × Geometry α)) :
    Adds ((places.map Prod.fst).map s.layoutWeight).sum s
      (places.foldl (fun s place => s.place place.1 place.2) s) := by
  induction places generalizing s with
  | nil => exact (SameShape.refl s).adds rfl
  | cons place rest ih =>
    have hfirst := adds_place h place.1 place.2
    have hrest := ih (h.congr hfirst.toSameShape)
    rw [layoutWeight_congr hfirst.toSameShape] at hrest
    exact hfirst.trans hrest

omit [Scalar α] in
theorem sublist_childBoxes (s : Scene α) (c : Nat) :
    ((s.childBoxes c).map Prod.fst).Sublist (s.children c) := by
  unfold childBoxes
  induction s.children c with
  | nil => exact List.Sublist.refl _
  | cons k rest ih =>
    rw [List.filterMap_cons]
    cases s.box? k with
    | none => exact ih.cons k
    | some box => exact ih.cons_cons k

theorem adds_placeChildren (h : s.Grounded) (c : Nat) :
    Leads (placeChildren c).run s fun _ t =>
      Adds ((s.children c).map s.layoutWeight).sum s t := by
  refine leads_run_modify_bind.2 (leads_run_get_bind.2 ?_)
  have hopened := (sameShape_update s c (f := fun comp => { comp with needsLayout := false })
    fun _ => rfl).adds rfl
  generalize s.update c _ = t at hopened ⊢
  have hstay {u : Scene α} (hu : t.Inner u) : Adds ((s.children c).map s.layoutWeight).sum s u :=
    (hopened.trans hu.adds).mono (Nat.zero_le _)
  split
  · exact leads_run_pure.2 (hstay (Std.Refl.refl t))
  · next comp hc =>
    split
    · refine ((inner_tryLayout c _ t).and (leads_askPass hc _)).run_bind (fun found u hu => ?_) ?_
      rotate_left
      · intro e u hu
        exact hstay hu.1
      obtain ⟨hinner, -, -, hfound⟩ := hu
      split
      · exact leads_run_pure.2 (hstay hinner)
      · next places hplaces =>
        obtain ⟨sol, -, rfl⟩ := Option.map_eq_some_iff.1 hfound.symm
        refine leads_run_modify.2 ?_
        have hcounted (fields : List (String × String)) :
            Adds 0 s ((u.update c fun comp =>
              { comp with layoutPasses := comp.layoutPasses + 1 }).note .debug "layout pass" fields) := by
          refine (hopened.trans hinner.adds).trans (Inner.adds (IsTrans.trans _ _ _ ?_ (inner_note ..)))
          exact inner_update fun _ => rfl
        have hbefore := hcounted [("component", comp.label), ("width", numberText comp.size.width),
          ("height", numberText comp.size.height), ("children", toString comp.children.length)]
        refine (hbefore.trans (adds_places (h.congr hbefore.toSameShape) _)).mono ?_
        rw [layoutWeight_congr hbefore.toSameShape, Nat.zero_add, List.map_map]
        have hsublist := (t.sublist_childBoxes c).map s.layoutWeight
        rw [hopened.children, List.map_map] at hsublist
        rw [List.map_map]
        exact hsublist.sum_le_sum fun _ _ => Nat.zero_le _
    · exact leads_run_pure.2 (hstay (Std.Refl.refl t))

theorem adds_renewHint (h : s.Grounded) (p c : Nat) :
    Leads (renewHint p c).run s fun _ t => Adds (s.layoutWeight p + s.hintCost p) s t := by
  have hset (u : Scene α) (hints : List (Constraint α)) :
      u.Inner (u.update c fun comp => { comp with hints }) := inner_update fun _ => rfl
  have hstay {t : Scene α} (ht : s.Inner t) : Adds (s.layoutWeight p + s.hintCost p) s t :=
    ht.adds.mono (Nat.zero_le _)
  refine leads_run_get_bind.2 ?_
  split
  · exact leads_run_pure.2 (hstay (Std.Refl.refl s))
  · next child _ =>
    split
    · refine leads_run_modify_bind.2 (leads_run_lift_bind.2 ?_)
      refine (inner_hintConstraints c _).mono fun hints t ht => leads_run_lift_bind.2 ?_
      refine (inner_tryLogged p _ t).mono fun r u hu => ?_
      have hasked : s.Inner u := IsTrans.trans _ _ _ (IsTrans.trans _ _ _ (hset s []) ht) hu
      split
      · exact leads_run_modify_bind.2
          (leads_run_throw.2 (hstay (IsTrans.trans _ _ _ hasked (hset u child.hints))))
      · refine leads_run_modify_bind.2 (leads_run_lift_bind.2 ?_)
        refine (inner_tellBounds p _).mono fun _ v hv => leads_run_modify.2 ?_
        have hbefore := Inner.adds (IsTrans.trans _ _ _ (IsTrans.trans _ _ _ hasked (hset u hints)) hv)
        have hlaid := hbefore.trans (adds_invalidateLayout (h.congr hbefore.toSameShape) p)
        refine (hlaid.trans (adds_announceHint (h.congr hlaid.toSameShape) p)).mono ?_
        rw [hintCost_congr hlaid.toSameShape, layoutWeight_congr hbefore.toSameShape,
          Nat.zero_add]
    · exact leads_run_pure.2 (hstay (Std.Refl.refl s))

/-- A task pays for what it queues and for itself. -/
theorem adds_runTask (h : s.Grounded) (task : Task) :
    Leads (runTask task) s fun _ t => Adds (s.cost task - 1) s t := by
  have hstay : Adds (s.cost task - 1) s s := ((SameShape.refl s).adds rfl).mono (Nat.zero_le _)
  have hattempt {message : String} {fields : Scene α → List (String × String)}
      {pass : Laying α Unit} (hpass : Leads pass.run s fun _ t => Adds (s.cost task - 1) s t) :
      Leads (attempt message fields pass) s fun _ t => Adds (s.cost task - 1) s t :=
    leads_attempt_of_note (fun _ level message fields ht => ht.trans
      (Inner.adds (inner_note level message fields))) hpass
  refine leads_bind.2 (leads_get.2 ?_)
  cases task with
  | constraints c =>
    dsimp only
    split
    · exact leads_pure.2 hstay
    · split
      · exact hattempt ((adds_handConstraints h c).mono fun _ _ ht =>
          ht.mono (Nat.add_sub_cancel_left ..).ge)
      · exact leads_pure.2 hstay
  | layout c =>
    dsimp only
    split
    · exact leads_pure.2 hstay
    · split
      · exact hattempt ((adds_placeChildren h c).mono fun _ _ ht =>
          ht.mono (Nat.add_sub_cancel_left ..).ge)
      · exact leads_pure.2 hstay
  | sizeHint p c =>
    dsimp only
    split
    · refine hattempt ((adds_renewHint h p c).mono fun _ _ ht => ht.mono ?_)
      rw [cost, Nat.add_assoc, Nat.add_sub_cancel_left]
    · exact leads_pure.2 hstay

/-! ### Draining -/

omit [Scalar α] in
/-- The budget of a task covers its cost. -/
theorem cost_le_taskWeight (h : s.Grounded) (task : Task) : s.cost task ≤ s.taskWeight task := by
  cases task with
  | constraints c =>
    rw [cost, taskWeight]
    induction s.subtree c with
    | nil => exact Nat.le_refl 1
    | cons d rest ih =>
      rw [List.map_cons, List.sum_cons, List.foldr_cons, Nat.add_left_comm]
      exact Nat.add_le_add_left ih _
  | layout c =>
    rw [taskWeight]
    by_cases hc : c < s.components.size
    · rw [h.cost_layout hc]
      exact Nat.le_add_left ..
    · have hnone : s.component? c = none := component?_eq_none (Nat.le_of_not_lt hc)
      rw [cost, children, hnone]
      exact Nat.le_add_right ..
  | sizeHint p c => exact Nat.le_refl _

/-- With a budget for the load, all tasks run. -/
theorem runUpTo_eq_some (h : s.Grounded) {limit : Nat} (hload : s.load ≤ limit) (ran : Nat) :
    ∃ n t, s.runUpTo limit ran = some (ran + n, t) ∧ n ≤ s.load ∧ t.queue.pending = [] := by
  induction limit generalizing s ran with
  | zero =>
    unfold runUpTo
    cases hpop : s.queue.pop? with
    | none => exact ⟨0, s, rfl, Nat.zero_le _, (Queue.pop?_eq_none_iff _).1 hpop⟩
    | some entry =>
      rw [load, (Queue.pop?_eq_some_iff ..).1 hpop, List.map_cons, List.sum_cons] at hload
      have := s.cost_pos entry.1
      omega
  | succ limit ih =>
    unfold runUpTo
    cases hpop : s.queue.pop? with
    | none => exact ⟨0, s, rfl, Nat.zero_le _, (Queue.pop?_eq_none_iff _).1 hpop⟩
    | some entry =>
      obtain ⟨task, queue⟩ := entry
      dsimp only
      have hpopped : s.SameShape { s with queue } := SameShape.of_components rfl
      have hran : Adds _ _ (runTask task { s with queue }).2 := adds_runTask (h.congr hpopped) task
      have hpaid : (runTask task { s with queue }).2.load + 1 ≤ s.load := by
        have hpos := s.cost_pos task
        have hrun := hran.load
        have hqueue : ({ s with queue } : Scene α).load = (queue.pending.map s.cost).sum :=
          congrArg (fun cost => (queue.pending.map cost).sum) (cost_congr hpopped)
        have hwhole : s.load = s.cost task + (queue.pending.map s.cost).sum := by
          rw [load, (Queue.pop?_eq_some_iff ..).1 hpop, List.map_cons, List.sum_cons]
        rw [cost_congr hpopped, hqueue] at hrun
        omega
      obtain ⟨n, t, hrest, hn, hdrained⟩ :=
        ih (h.congr (hpopped.trans hran.toSameShape)) (by omega) (ran + 1)
      refine ⟨n + 1, t, ?_, by omega, hdrained⟩
      rw [Nat.add_comm n 1, ← Nat.add_assoc]
      exact hrest

/--
Draining comes to an end. Over components that form trees, whatever tasks wait and whatever the
solvers answer, only finitely many tasks run, no more than the budgets of those that wait, and then
nothing waits any more.
-/
theorem runPending_eq_some (h : s.Grounded) : ∃ n t, s.runPending = some (n, t) ∧
    n ≤ (s.queue.pending.map s.taskWeight).sum ∧ t.queue.pending = [] := by
  have hbudget : s.queue.pending.foldr (fun task total => s.taskWeight task + total) 0
      = (s.queue.pending.map s.taskWeight).sum := by
    rw [List.sum_eq_foldr, List.foldr_map]
  have hload : s.load ≤ (s.queue.pending.map s.taskWeight).sum :=
    List.sum_le_sum fun task _ => cost_le_taskWeight h task
  obtain ⟨n, t, hrun, hn, hdrained⟩ := runUpTo_eq_some h hload 0
  refine ⟨n, t, ?_, hn.trans hload, hdrained⟩
  unfold runPending
  rw [hbudget, hrun, Nat.zero_add]

theorem grounded_sampleScene : sampleScene.Grounded := by
  have hsize : sampleScene.components.size = 2 := by decide +kernel
  constructor
  · intro c k hk
    have hc : c < 2 := by
      rw [← hsize]
      by_contra hge
      rw [children, component?_eq_none (Nat.le_of_not_lt hge)] at hk
      cases hk
    have hall : ∀ c < 2, ∀ k ∈ sampleScene.children c, sampleScene.parent? k = some c := by
      decide +kernel
    exact hall c hc k hk
  · refine ⟨fun c => 2 - c, fun c p hp => ?_⟩
    have hc := lt_size_of_parent? hp
    rw [hsize] at hc
    have hall : ∀ c < 2, ∀ p ∈ sampleScene.parent? c, 2 - c < 2 - p := by decide +kernel
    exact hall c hc p hp

theorem runPending_eq_some_sampleScene : sampleScene.Grounded ∧
    ∃ n t, sampleScene.runPending = some (n, t) ∧
      n ≤ (sampleScene.queue.pending.map sampleScene.taskWeight).sum ∧ t.queue.pending = [] :=
  ⟨grounded_sampleScene, runPending_eq_some grounded_sampleScene⟩

end Scene

end ReactiveView
