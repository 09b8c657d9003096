import ReactiveView.Linear.Exact
import ReactiveView.Proofs.Layout.Batches

/-!
This module contains what a batch of constraints comes to in any initialized layout, whatever the
two lists are: they may repeat constraints, overlap, and name some that are unknown or live already.
Either all of the batch has been done, or a refusal has left the names of the live constraints as
they were, or there is no solver any more.

A name is looked up alone, so that nothing is asked of the lists or of the state.
-/

namespace ReactiveView

variable {α : Type}

namespace Solver

/-- The live constraint of a name. -/
def given? (s : Solver α) (id : Nat) : Option (Constraint α) :=
  (s.live.get? (.given id)).map Live.constraint

variable {s t u : Solver α} {c : Constraint α} {gone front : List (Constraint α)} {id : Nat}

theorem given?_congr (hlive : t.live = s.live) : t.given? = s.given? := by
  funext id
  unfold given?
  rw [hlive]

theorem given?_eq_none_iff : s.given? id = none ↔ s.live.get? (.given id) = none :=
  Option.map_eq_none_iff

theorem given?_insert {tag : Tag} (hlive : t.live = s.live.insert (.given c.id) ⟨c, tag⟩)
    (id : Nat) : t.given? id = if id = c.id then some c else s.given? id := by
  unfold given?
  rw [hlive, Table.get?_insert]
  by_cases h : id = c.id
  · rw [if_pos h, if_pos (congrArg Handle.given h)]
    rfl
  · rw [if_neg h, if_neg fun heq => h (Handle.given.inj heq)]

theorem given?_erase (hlive : t.live = s.live.erase (.given c.id)) (id : Nat) :
    t.given? id = if id = c.id then none else s.given? id := by
  unfold given?
  rw [hlive]
  by_cases h : id = c.id
  · rw [if_pos h, h, Table.get?_erase_self]
    rfl
  · rw [if_neg h, Table.get?_erase_ne _ fun heq => h (Handle.given.inj heq)]

theorem has_eq_isSome (s : Solver α) (c : Constraint α) : s.has c = (s.given? c.id).isSome :=
  Option.isSome_map.symm

/-! ### Exchanged constraints -/

/-- The constraints are those from before with `gone` removed and then `front` added. Those of the
first list were live, and the names of those of the second were free by then. -/
structure Exchanged (s : Solver α) (gone front : List (Constraint α)) (t : Solver α) : Prop where
  live : ∀ c ∈ gone, s.given? c.id ≠ none
  free : ∀ c ∈ front, c.id ∈ gone.map Constraint.id ∨ s.given? c.id = none
  nodup : (front.map Constraint.id).Nodup
  given? : ∀ id, t.given? id = (front.find? (·.id == id)).or
    (if id ∈ gone.map Constraint.id then none else s.given? id)

theorem Exchanged.of_given? (h : t.given? = s.given?) : s.Exchanged [] [] t where
  live := nofun
  free := nofun
  nodup := .nil
  given? id := congrFun h id

theorem Exchanged.congr (h : s.Exchanged gone front t) (hu : u.given? = t.given?) :
    s.Exchanged gone front u where
  live := h.live
  free := h.free
  nodup := h.nodup
  given? id := (congrFun hu id).trans (h.given? id)

/-- Nothing is removed any more once something has been added. -/
theorem Exchanged.remove (h : s.Exchanged gone [] t) (hlive : t.given? c.id ≠ none)
    (hu : ∀ id, u.given? id = if id = c.id then none else t.given? id) :
    s.Exchanged (gone ++ [c]) [] u where
  live d hd := by
    rcases List.mem_append.1 hd with hd | hd
    · exact h.live d hd
    · rw [List.mem_singleton.1 hd]
      intro hnone
      refine hlive ((h.given? _).trans ?_)
      rw [hnone, ite_self]
      rfl
  free := nofun
  nodup := .nil
  given? id := by
    rw [hu id, h.given? id, List.map_append, List.map_singleton]
    simp only [List.mem_append, List.mem_singleton]
    by_cases hid : id = c.id <;> by_cases hgone : id ∈ gone.map Constraint.id <;>
      simp [hid, hgone]

theorem Exchanged.add (h : s.Exchanged gone front t) (hfree : t.given? c.id = none)
    (hu : ∀ id, u.given? id = if id = c.id then some c else t.given? id) :
    s.Exchanged gone (front ++ [c]) u := by
  obtain ⟨hfront, hleft⟩ := Option.or_eq_none_iff.1 ((h.given? c.id).symm.trans hfree)
  refine ⟨h.live, fun d hd => ?_, ?_, fun id => ?_⟩
  · rcases List.mem_append.1 hd with hd | hd
    · exact h.free d hd
    · rw [List.mem_singleton.1 hd]
      by_cases hgone : c.id ∈ gone.map Constraint.id
      · exact .inl hgone
      · exact .inr (by rwa [if_neg hgone] at hleft)
  · rw [List.map_append, List.map_singleton, List.nodup_append]
    refine ⟨h.nodup, List.nodup_singleton _, fun id hid id' hid' => ?_⟩
    obtain ⟨d, hd, rfl⟩ := List.mem_map.1 hid
    rw [List.mem_singleton.1 hid']
    exact fun heq => List.find?_eq_none.1 hfront d hd (beq_iff_eq.2 heq)
  · rw [hu id, List.find?_append, Option.or_assoc]
    by_cases hid : id = c.id
    · subst hid
      simp [hfront]
    · rw [if_neg hid, h.given? id]
      simp [Ne.symm hid]

theorem find?_id_eq_none_iff {cs : List (Constraint α)} :
    cs.find? (·.id == id) = none ↔ id ∉ cs.map Constraint.id := by
  rw [List.find?_eq_none, List.mem_map, not_exists]
  exact forall_congr' fun c => ⟨fun h ⟨hc, hid⟩ => h hc (beq_iff_eq.2 hid),
    fun h hc hid => h ⟨hc, beq_iff_eq.1 hid⟩⟩

/-- A name was live before just if it is one of those removed, or live now without having been
added. -/
theorem Exchanged.given?_eq_none_iff (h : s.Exchanged gone front t) (id : Nat) :
    s.given? id = none ↔ id ∉ gone.map Constraint.id ∧
      (id ∈ front.map Constraint.id ∨ t.given? id = none) := by
  by_cases hgone : id ∈ gone.map Constraint.id
  · obtain ⟨c, hc, rfl⟩ := List.mem_map.1 hgone
    exact iff_of_false (h.live c hc) fun hnot => hnot.1 hgone
  · by_cases hfront : id ∈ front.map Constraint.id
    · obtain ⟨c, hc, rfl⟩ := List.mem_map.1 hfront
      exact iff_of_true ((h.free c hc).resolve_left hgone) ⟨hgone, .inl hfront⟩
    · have hnone : front.find? (·.id == id) = none :=
        List.find?_eq_none.2 fun c hc heq => hfront (List.mem_map.2 ⟨c, hc, eq_of_beq heq⟩)
      rw [h.given? id, hnone, if_neg hgone, Option.none_or]
      exact ⟨fun hs => ⟨hgone, .inr hs⟩, fun hs => hs.2.resolve_left hfront⟩

variable [Scalar α]

/-! ### One step -/

/-- A constraint comes in under a name that was free; a refusal changes nothing. -/
theorem leads_add_given? (c : Constraint α) (s : Solver α) :
    Leads (add c).run s fun r t =>
      (r = .ok () → s.given? c.id = none ∧
        ∀ id, t.given? id = if id = c.id then some c else s.given? id) ∧
      ∀ e, r = .error e → e.isInternal = false → t.given? = s.given? :=
  (leads_addAs _ c s).mono fun r t ht =>
    ⟨fun hr => by
      obtain ⟨hfree, tag, hlive⟩ := ht.ok hr
      exact ⟨given?_eq_none_iff.2 hfree, given?_insert hlive⟩,
    fun e he hordinary => given?_congr (ht.error e he hordinary)⟩

/-- A name that was taken becomes free; a refusal changes nothing. -/
theorem leads_remove_given? (c : Constraint α) (s : Solver α) :
    Leads (remove c).run s fun r t =>
      (r = .ok () → s.given? c.id ≠ none ∧
        ∀ id, t.given? id = if id = c.id then none else s.given? id) ∧
      ∀ e, r = .error e → e.isInternal = false → t.given? = s.given? := by
  refine (leads_removeAs _ s).mono fun r t ht => ?_
  by_cases hnone : s.live.get? (.given c.id) = none
  · obtain ⟨hlive, rfl⟩ := ht.unknown hnone
    exact ⟨nofun, fun _ _ _ => given?_congr hlive⟩
  · obtain ⟨hlive, hinternal⟩ := ht.known hnone
    refine ⟨fun _ => ⟨fun h => hnone (given?_eq_none_iff.1 h), given?_erase hlive⟩,
      fun e he hordinary => ?_⟩
    rw [hinternal e he] at hordinary
    cases hordinary

/-! ### Solving after every change -/

omit [Scalar α] in
/-- The system solves after every change just if it did before. -/
def SameMode (s t : Solver α) : Prop := t.autoSolve = s.autoSolve

theorem mode_minimiseFor (goal : Goal) (n : Nat) :
    Through SameMode (minimiseFor goal n : Solving α Unit).run := by
  induction n with
  | zero => exact fun s => leads_run_throw.2 rfl
  | succ n ih =>
    intro s
    unfold minimiseFor
    refine leads_run_get_bind.2 ?_
    split
    · exact leads_run_pure.2 rfl
    · split
      · exact leads_run_throw.2 rfl
      · split
        · exact leads_run_throw.2 rfl
        · exact leads_run_set_bind.2 (ih _)

theorem leads_setAutoSolve_true (s : Solver α) :
    Leads (setAutoSolve true).run s fun _ t => t.autoSolve = true := by
  refine leads_run_modify_bind.2 ?_
  rw [if_pos rfl]
  refine leads_run_get_bind.2 ?_
  split
  · have hminimise : Leads (minimise .main : Solving α Unit).run { s with autoSolve := true }
        fun _ t => t.autoSolve = true := mode_minimiseFor .main _ _
    exact hminimise.run_bind (fun _ _ ht => leads_run_modify.2 ht) fun _ _ ht => ht
  · exact leads_run_pure.2 rfl

end Solver

namespace Layout

variable {s t : Solver α} {old new : List (Constraint α)} {l : Layout α}

/-- The live constraint of a name, if the layout is initialized. -/
def given? (l : Layout α) (id : Nat) : Option (Constraint α) := l.solver.bind (·.given? id)

/-- Whether the layout solves after every change. -/
def isAutomatic (l : Layout α) : Bool := l.solver.any Solver.autoSolve

/-- All of a batch has been done: `old` was live and is so no more, then `new` came in under names
that were free. -/
structure Replaced (l : Layout α) (old new : List (Constraint α)) (l' : Layout α) : Prop where
  isAutomatic : l'.isAutomatic = true
  live : ∀ c ∈ old, l.contains c = true
  free : ∀ c ∈ new, c.id ∈ old.map Constraint.id ∨ l.contains c = false
  given? : ∀ id, l'.given? id = (new.find? (·.id == id)).or
    (if id ∈ old.map Constraint.id then none else l.given? id)

/-- Nothing of a batch has been done. -/
structure Undone (l l' : Layout α) : Prop where
  isAutomatic : l'.isAutomatic = true
  contains : ∀ c, l'.contains c = l.contains c

/-- The layout is as before its first initialization. -/
structure Abandoned (l' : Layout α) : Prop where
  isInitialized : l'.isInitialized = false
  contains : ∀ c, l'.contains c = false

theorem contains_eq_isSome (l : Layout α) (c : Constraint α) :
    l.contains c = (l.given? c.id).isSome := by
  unfold contains given?
  cases l.solver with
  | none => rfl
  | some s => exact s.has_eq_isSome c

theorem given?_of_solver (hs : l.solver = some s) : l.given? = s.given? := by
  funext id
  unfold given?
  rw [hs, Option.bind_some]

/-! ### Steps of a batch -/

/-- How far a batch that started from `s` has come when it ends. -/
structure Exchanges (s : Solver α) (old new : List (Constraint α))
    (p : Except SolverError Unit × Nat × Nat × Solver α) : Prop where
  ok : p.1 = .ok () → s.Exchanged old new p.2.2.2 ∧ p.2.2.2.autoSolve = true
  error : ∀ e, p.1 = .error e → e.isInternal = false →
    s.Exchanged (old.take p.2.1) (new.take p.2.2.1) p.2.2.2

variable [Scalar α]

/-- After all removals the induction is on what is left to be added. -/
theorem exchanges_adding (front left : List (Constraint α)) (h : s.Exchanged old front t) :
    Exchanges s old (front ++ left) (applyBatch.adding old.length front.length left t) := by
  induction left generalizing front t with
  | nil =>
    rw [List.append_nil]
    unfold applyBatch.adding
    rcases hend : t.perform (Solver.setAutoSolve true) with ⟨r, u⟩
    obtain ⟨hu, hauto⟩ := leads_of_run_eq hend
      ((Solver.leads_setAutoSolve true t).and (Solver.leads_setAutoSolve_true t))
    refine ⟨fun _ => ⟨h.congr (Solver.given?_congr hu.live), hauto⟩, fun e he hordinary => ?_⟩
    exact absurd (hu.internal e he) (by rw [hordinary]; exact Bool.false_ne_true)
  | cons c left ih =>
    unfold applyBatch.adding
    rcases hadd : t.perform (Solver.add c) with ⟨e | _, u⟩
    · obtain ⟨-, hrefused⟩ := leads_of_run_eq hadd (Solver.leads_add_given? c t)
      refine ⟨fun h => (by cases h), fun e' he hordinary => ?_⟩
      cases he
      rw [List.take_length, List.take_left]
      exact h.congr (hrefused e rfl hordinary)
    · obtain ⟨hfree, hu⟩ := (leads_of_run_eq hadd (Solver.leads_add_given? c t)).1 rfl
      have hrest := ih (front ++ [c]) (h.add hfree hu)
      rwa [List.append_assoc, List.length_append] at hrest

/-- Before that it is on what is left to be removed. -/
theorem exchanges_removing (gone left : List (Constraint α)) (h : s.Exchanged gone [] t) :
    Exchanges s (gone ++ left) new (applyBatch.removing new gone.length left t) := by
  induction left generalizing gone t with
  | nil =>
    rw [List.append_nil]
    exact exchanges_adding [] new h
  | cons c left ih =>
    unfold applyBatch.removing
    rcases hremove : t.perform (Solver.remove c) with ⟨e | _, u⟩
    · obtain ⟨-, hrefused⟩ := leads_of_run_eq hremove (Solver.leads_remove_given? c t)
      refine ⟨fun h => (by cases h), fun e' he hordinary => ?_⟩
      cases he
      rw [List.take_left, List.take_zero]
      exact h.congr (hrefused e rfl hordinary)
    · obtain ⟨hlive, hu⟩ := (leads_of_run_eq hremove (Solver.leads_remove_given? c t)).1 rfl
      have hrest := ih (gone ++ [c]) (h.remove hlive hu)
      rwa [List.append_assoc, List.length_append] at hrest

/-! ### Taking back -/

theorem leads_removeAll_given? (cs : List (Constraint α)) (s : Solver α) :
    Leads (removeAll cs).run s fun r t => r = .ok () →
      ∀ id, t.given? id = if id ∈ cs.map Constraint.id then none else s.given? id := by
  induction cs generalizing s with
  | nil => exact leads_run_pure.2 fun _ _ => rfl
  | cons c rest ih =>
    refine (Solver.leads_remove_given? c s).run_bind (fun _ t ht => ?_) fun _ _ _ => nofun
    refine (ih t).mono fun r u hu hr id => ?_
    rw [hu hr id, (ht.1 rfl).2 id, List.map_cons]
    by_cases hid : id = c.id <;> simp [hid]

theorem leads_addAll_given? (cs : List (Constraint α)) (s : Solver α) :
    Leads (addAll cs).run s fun r t => r = .ok () →
      ∀ id, t.given? id = (s.given? id).or (cs.find? (·.id == id)) := by
  induction cs generalizing s with
  | nil => exact leads_run_pure.2 fun _ id => by simp
  | cons c rest ih =>
    refine (Solver.leads_add_given? c s).run_bind (fun _ t ht => ?_) fun _ _ _ => nofun
    refine (ih t).mono fun r u hu hr id => ?_
    obtain ⟨hfree, ht⟩ := ht.1 rfl
    rw [hu hr id, ht id]
    by_cases hid : id = c.id
    · simp [hid, hfree]
    · simp [hid, Ne.symm hid]

/-- Steps that are taken back leave the names that were live before them. -/
theorem leads_revertBatch_given? {removed added : Nat}
    (h : s.Exchanged (old.take removed) (new.take added) t) :
    Leads (revertBatch old new removed added).run t fun r u => r = .ok () →
      (∀ id, u.given? id = none ↔ s.given? id = none) ∧ u.autoSolve = true := by
  refine (leads_removeAll_given? _ t).run_bind (fun _ v hv => ?_) fun _ _ _ => nofun
  refine (leads_addAll_given? _ v).run_bind (fun _ w hw => ?_) fun _ _ _ => nofun
  refine ((Solver.leads_setAutoSolve true w).and (Solver.leads_setAutoSolve_true w)).mono ?_
  rintro r u ⟨hu, hauto⟩ -
  refine ⟨fun id => ?_, hauto⟩
  rw [Solver.given?_congr hu.live, hw rfl id, hv rfl id, h.given?_eq_none_iff id,
    Option.or_eq_none_iff, ite_eq_left_iff, Solver.find?_id_eq_none_iff, List.map_reverse,
    List.mem_reverse, List.map_reverse, List.mem_reverse, and_comm]
  exact and_congr_right fun _ => or_iff_not_imp_left.symm

/-! ### Replacing constraints -/

/-- What replacing constraints in an initialized layout comes to, unless the solver breaks down. -/
structure AllOrNothing (l : Layout α) (old new : List (Constraint α)) (r : Except LayoutError Unit)
    (l' : Layout α) : Prop where
  ok : r = .ok () → l.Replaced old new l'
  error : ∀ e, r = .error e → LayoutError.isBreakdown r = false → l.Undone l' ∨ l'.Abandoned

omit [Scalar α] in
theorem Replaced.of_exchanged (hs : l.solver = some s) (h : s.Exchanged old new t)
    (hauto : t.autoSolve = true) : l.Replaced old new { l with solver := some t } where
  isAutomatic := hauto
  live c hc := by
    rw [contains_eq_isSome, given?_of_solver hs]
    exact Option.isSome_iff_ne_none.2 (h.live c hc)
  free c hc := by
    rw [contains_eq_isSome, given?_of_solver hs, Option.isSome_eq_false_iff,
      Option.isNone_iff_eq_none]
    exact h.free c hc
  given? id := by
    rw [given?_of_solver hs]
    exact h.given? id

omit [Scalar α] in
theorem Undone.of_names (hs : l.solver = some s)
    (hnames : ∀ id, t.given? id = none ↔ s.given? id = none) (hauto : t.autoSolve = true) :
    l.Undone { l with solver := some t } where
  isAutomatic := hauto
  contains c := by
    rw [contains_eq_isSome, contains_eq_isSome, given?_of_solver hs, given?_of_solver rfl,
      Bool.eq_iff_iff, Option.isSome_iff_ne_none, Option.isSome_iff_ne_none]
    exact not_congr (hnames c.id)

/-- Replacing constraints is all or nothing. -/
theorem replace_allOrNothing (l : Layout α) (hinit : l.isInitialized = true)
    (old new : List (Constraint α)) :
    l.AllOrNothing old new (l.replace old new).1 (l.replace old new).2.2 := by
  obtain ⟨s, hs⟩ := Option.isSome_iff_exists.1 hinit
  have hoff : s.Exchanged [] [] (s.perform (Solver.setAutoSolve false)).2 :=
    .of_given? (Solver.given?_congr (Solver.leads_setAutoSolve false s).live)
  have hend : Exchanges s old new
      (applyBatch.removing new 0 old (s.perform (Solver.setAutoSolve false)).2) :=
    exchanges_removing [] old hoff
  unfold replace swap applyBatch
  rw [hs]
  dsimp only
  rcases happly : applyBatch.removing new 0 old (s.perform (Solver.setAutoSolve false)).2
    with ⟨cause | _, removed, added, t⟩
  · rw [happly] at hend
    dsimp only
    rcases hrevert : t.perform (revertBatch old new removed added) with ⟨rollback | _, u⟩
    · exact ⟨nofun, fun _ _ _ => .inr ⟨rfl, fun _ => rfl⟩⟩
    · refine ⟨nofun, fun _ _ hintact => .inl ?_⟩
      have hu := leads_of_run_eq hrevert (leads_revertBatch_given? (hend.error cause rfl hintact))
      obtain ⟨hnames, hauto⟩ := hu rfl
      exact .of_names hs hnames hauto
  · rw [happly] at hend
    obtain ⟨hexchanged, hauto⟩ := hend.ok rfl
    exact ⟨fun _ => .of_exchanged hs hexchanged hauto, nofun⟩

/-- A width that has to be ten at least. -/
def leastWidth : Constraint ℚ := .between 0 (.ofVariable ⟨0⟩) .atLeast (.ofConstant 10)

/-- A wish that the width be five. -/
def wishedWidth : Constraint ℚ :=
  .make 1 ((LinearExpr.ofVariable ⟨0⟩).minus (.ofConstant 5)) .equal .weak

/-- The second addition of one constraint is refused, when the least width is gone already. -/
theorem replace_allOrNothing_wishedTwice :
    let l : Layout ℚ := (({} : Layout ℚ).setUp [leastWidth]).2.2
    let p := l.replace [leastWidth] [wishedWidth, wishedWidth]
    l.isInitialized = true ∧ p.1 = .error (.solver .duplicateConstraint) ∧
      l.AllOrNothing [leastWidth] [wishedWidth, wishedWidth] p.1 p.2.2 :=
  ⟨by decide +kernel, by decide +kernel,
    replace_allOrNothing _ (by decide +kernel) [leastWidth] [wishedWidth, wishedWidth]⟩

end Layout

end ReactiveView
