import ReactiveView.Proofs.Layout.Swapping

/-!
This module contains which constraints are in a layout even where its solver breaks down. A batch that
fails half way may have lost constraints that it was to remove, but no others, and nothing that it was
to add stays. Probes and resizes leave all constraints alone that were given.
-/

namespace ReactiveView

variable {α : Type}

namespace Solver

variable {s t u : Solver α} {c : Constraint α} {cs : List (Constraint α)} {key : Handle}
  {x : Variable} {id : Nat}

theorem Holding.given?_eq_some_iff (h : s.Holding cs) :
    s.given? id = some c ↔ c ∈ cs ∧ id = c.id := by
  unfold given?
  rw [Option.map_eq_some_iff, h.lists.mem_iff h.ascending]
  exact and_congr_right fun _ => ⟨Handle.given.inj, congrArg Handle.given⟩

/-- The edit variables stay. -/
def SameEdits (s t : Solver α) : Prop := t.edits = s.edits

instance : Std.Refl (@SameEdits α) := ⟨fun _ => rfl⟩

instance : IsTrans (Solver α) SameEdits := ⟨fun _ _ _ h h' => Eq.trans h' h⟩

variable [Scalar α]

theorem edits_add (c : Constraint α) : Through SameEdits (add c).run :=
  fun s => (leads_addAs _ c s).mono fun _ _ ht => ht.edits

theorem edits_remove (c : Constraint α) : Through SameEdits (remove c).run :=
  fun s => (leads_removeAs _ s).mono fun _ _ ht => ht.edits

theorem edits_setAutoSolve (enabled : Bool) :
    Through SameEdits (setAutoSolve enabled : Solving α Unit).run :=
  fun s => (leads_setAutoSolve enabled s).mono fun _ _ ht => ht.edits

/-! ### Changes that are not followed by minimisation -/

theorem mode_addTerms (s : Solver α) (row : Row α) (ts : List (LinearTerm α)) :
    s.SameMode (s.addTerms row ts).2 := by
  induction ts generalizing s row with
  | nil => exact rfl
  | cons term rest ih =>
    unfold addTerms
    split
    · exact ih s row
    · have hsymbol : s.SameMode (s.symbolOf term.unknown).2 := by
        unfold symbolOf
        split <;> exact rfl
      exact Eq.trans (ih _ _) hsymbol

theorem mode_rowOf (s : Solver α) (c : Constraint α) : s.SameMode (s.rowOf c).2.2 := by
  have hbring (s : Solver α) (row : Row α) : s.SameMode (s.bring c row).2.2 := by
    unfold bring
    split
    · split <;> exact rfl
    · dsimp only
      split <;> exact rfl
  exact Eq.trans (hbring _ _) (mode_addTerms s _ _)

theorem mode_minimise (goal : Goal) : Through SameMode (minimise goal : Solving α Unit).run :=
  fun s => leads_run_get_bind.2 (mode_minimiseFor goal _ s)

theorem mode_followUp : Through SameMode (followUp : Solving α Unit).run := by
  intro s
  refine leads_run_get_bind.2 ?_
  split
  · exact mode_minimise .main s
  · exact leads_run_modify.2 rfl

theorem mode_addArtificial (row : Row α) : Through SameMode (addArtificial row).run := by
  intro s
  have hdrop (art : Symbol) (b : Bool) {u : Solver α} (hu : s.SameMode u) :
      Leads (addArtificial.dropSymbol art >>= fun _ => pure b).run u fun _ t => s.SameMode t :=
    leads_run_modify_bind.2 (leads_run_pure.2 hu)
  unfold addArtificial
  refine leads_run_get_bind.2 (leads_run_set_bind.2 ?_)
  refine (mode_minimise .artificial _).run_bind (fun _ u hu => ?_) fun _ _ hu => hu
  refine leads_run_get_bind.2 (leads_run_set_bind.2 ?_)
  split
  · exact hdrop _ _ hu
  · split
    · exact leads_run_pure.2 hu
    · split
      · exact leads_run_pure.2 hu
      · exact leads_run_modify_bind.2 (hdrop _ _ hu)

/-- Without minimisation nothing can fail once a constraint is listed. -/
theorem leads_addAs_manual (key : Handle) (c : Constraint α) (h : s.autoSolve = false) :
    Leads (addAs key c).run s fun r t =>
      t.autoSolve = false ∧ ∀ e, r = .error e → t.live = s.live := by
  have henlist {tag : Tag} {u : Solver α} (hu : u.autoSolve = false) :
      Leads (modify (fun s => { s with live := s.live.insert key ⟨c, tag⟩ }) >>= fun _ =>
        followUp : Solving α Unit).run u fun r t =>
          t.autoSolve = false ∧ ∀ e, r = .error e → t.live = s.live := by
    refine leads_run_modify_bind.2 (leads_run_get_bind.2 ?_)
    rw [if_neg (by rw [hu]; exact Bool.false_ne_true)]
    exact leads_run_modify.2 ⟨hu, nofun⟩
  unfold addAs
  refine leads_run_get_bind.2 ?_
  split
  · exact leads_run_throw_bind.2 ⟨h, fun _ _ => rfl⟩
  · have hmode := Eq.trans (mode_rowOf s c) h
    have hlive := (keeps_rowOf s c).live
    refine leads_run_get_bind.2 ?_
    rcases hrow : s.rowOf c with ⟨row, tag, v⟩
    rw [hrow] at hmode hlive
    refine leads_run_set_bind.2 ?_
    dsimp only at hmode hlive ⊢
    split
    · exact leads_run_set_bind.2 (leads_run_throw_bind.2 ⟨hmode, fun _ _ => hlive⟩)
    · split
      · exact leads_run_set_bind.2 (henlist hmode)
      · refine ((leads_addArtificial row v).and (mode_addArtificial row v)).run_bind
          (fun success u hu => ?_) fun _ u hu => ?_
        · split
          · exact leads_run_modify_bind.2 (leads_run_throw_bind.2
              ⟨Eq.trans hu.2 hmode, fun _ _ => hu.1.live.trans hlive⟩)
          · exact henlist (Eq.trans hu.2 hmode)
        · exact ⟨Eq.trans hu.2 hmode, fun _ _ => hu.1.live.trans hlive⟩

theorem mode_removeAs (key : Handle) : Through SameMode (removeAs key : Solving α Unit).run := by
  have hdischarge (s : Solver α) (c : Constraint α) (tag : Tag) :
      s.SameMode (s.discharge c tag) := by
    unfold discharge
    refine List.foldlRecOn tag.symbols _ rfl fun u hu marker _ => ?_
    split <;> exact hu
  intro s
  unfold removeAs
  refine leads_run_get_bind.2 ?_
  split
  · exact leads_run_throw.2 rfl
  · next c tag _ =>
    have hmode := hdischarge { s with live := s.live.erase key } c tag
    refine leads_run_set_bind.2 ?_
    split
    · exact leads_run_set_bind.2 ((mode_followUp _).mono fun _ _ ht => Eq.trans ht hmode)
    · split
      · exact leads_run_throw_bind.2 hmode
      · split
        · exact leads_run_throw_bind.2 hmode
        · exact leads_run_set_bind.2 ((mode_followUp _).mono fun _ _ ht => Eq.trans ht hmode)

/-! ### One step of a batch -/

theorem leads_add_manual (c : Constraint α) (h : s.autoSolve = false) :
    Leads (add c).run s fun r t => t.SameMode s ∧ s.SameEdits t ∧
      (r = .ok () → s.given? c.id = none ∧
        ∀ id, t.given? id = if id = c.id then some c else s.given? id) ∧
      ∀ e, r = .error e → t.given? = s.given? := by
  refine (((leads_addAs_manual _ c h).and (edits_add c s)).and (leads_add_given? c s)).mono ?_
  rintro r t ⟨⟨⟨hmode, hrefused⟩, hedits⟩, hok, -⟩
  exact ⟨h.trans hmode.symm, hedits, hok, fun e he => given?_congr (hrefused e he)⟩

/-- Where no row can give way to a constraint, it is gone all the same. -/
theorem leads_remove_manual (c : Constraint α) (s : Solver α) :
    Leads (remove c).run s fun r t => t.SameMode s ∧ s.SameEdits t ∧
      (r = .ok () → s.given? c.id ≠ none ∧
        ∀ id, t.given? id = if id = c.id then none else s.given? id) ∧
      ∀ e, r = .error e → ∀ id, t.given? id = s.given? id ∨ id = c.id ∧ t.given? id = none := by
  have hremove := leads_removeAs (.given c.id) s
  refine (((mode_removeAs (.given c.id) s).and hremove).and (leads_remove_given? c s)).mono ?_
  rintro r t ⟨⟨hmode, hdismisses⟩, hok, -⟩
  refine ⟨Eq.symm hmode, hdismisses.edits, hok, fun e he id => ?_⟩
  by_cases hnone : s.live.get? (.given c.id) = none
  · exact .inl (congrFun (given?_congr (hdismisses.unknown hnone).1) id)
  · have herase := given?_erase (hdismisses.known hnone).1 id
    by_cases hid : id = c.id
    · exact .inr ⟨hid, herase.trans (if_pos hid)⟩
    · exact .inl (herase.trans (if_neg hid))

/-! ### Broken batches -/

omit [Scalar α] in
/-- A batch has come so far when it fails. Of the constraints that it was to remove one more may be
gone. -/
def Halted (s : Solver α) (old new : List (Constraint α)) (removed added : Nat) (t : Solver α) :
    Prop :=
  ∃ u, s.Exchanged (old.take removed) (new.take added) u ∧
    ∀ id, t.given? id = u.given? id ∨ id ∈ old.map Constraint.id ∧ t.given? id = none

omit [Scalar α] in
/-- The constraints are those from before, but of some list some may be gone, or others of the list may
have come in under their names. -/
def Frays (s : Solver α) (old : List (Constraint α)) (t : Solver α) : Prop :=
  ∀ id, t.given? id = s.given? id ∨
    id ∈ old.map Constraint.id ∧ ∀ c, t.given? id = some c → c ∈ old ∧ c.id = id

end Solver

namespace Layout

variable {s t u : Solver α} {old new cs : List (Constraint α)} {l : Layout α} {removed added : Nat}

/-- How far a batch without minimisation has come when it ends. -/
structure Batched (s : Solver α) (old new : List (Constraint α))
    (p : Except SolverError Unit × Nat × Nat × Solver α) : Prop where
  edits : s.SameEdits p.2.2.2
  ok : p.1 = .ok () → s.Exchanged old new p.2.2.2
  error : ∀ e, p.1 = .error e → s.Halted old new p.2.1 p.2.2.1 p.2.2.2

variable [Scalar α]

/-- After all removals the induction is on what is left to be added. -/
theorem batched_adding (front left : List (Constraint α)) (h : s.Exchanged old front t)
    (hmode : t.autoSolve = false) (hedits : s.SameEdits t) :
    Batched s old (front ++ left) (applyBatch.adding old.length front.length left t) := by
  induction left generalizing front t with
  | nil =>
    rw [List.append_nil]
    unfold applyBatch.adding
    rcases hend : t.perform (Solver.setAutoSolve true) with ⟨r, u⟩
    have hu := leads_of_run_eq hend (Solver.leads_setAutoSolve true t)
    have hexchanged := h.congr (Solver.given?_congr hu.live)
    refine ⟨Eq.trans hu.edits hedits, fun _ => hexchanged, fun e _ => ⟨u, ?_, fun _ => .inl rfl⟩⟩
    rwa [List.take_length, List.take_length]
  | cons c left ih =>
    unfold applyBatch.adding
    rcases hadd : t.perform (Solver.add c) with ⟨e | _, u⟩
    · obtain ⟨-, hsame, -, hrefused⟩ := leads_of_run_eq hadd (Solver.leads_add_manual c hmode)
      refine ⟨Eq.trans hsame hedits, fun h => (by cases h), fun e' _ => ⟨u, ?_, fun _ => .inl rfl⟩⟩
      rw [List.take_length, List.take_left]
      exact h.congr (hrefused e rfl)
    · obtain ⟨hmode', hsame, hok, -⟩ := leads_of_run_eq hadd (Solver.leads_add_manual c hmode)
      obtain ⟨hfree, hu⟩ := hok rfl
      have hrest := ih (front ++ [c]) (h.add hfree hu) (Eq.trans (Eq.symm hmode') hmode)
        (Eq.trans hsame hedits)
      rwa [List.append_assoc, List.length_append] at hrest

/-- Before that it is on what is left to be removed. -/
theorem batched_removing (gone left : List (Constraint α)) (h : s.Exchanged gone [] t)
    (hmode : t.autoSolve = false) (hedits : s.SameEdits t) :
    Batched s (gone ++ left) new (applyBatch.removing new gone.length left t) := by
  induction left generalizing gone t with
  | nil =>
    rw [List.append_nil]
    exact batched_adding [] new h hmode hedits
  | cons c left ih =>
    unfold applyBatch.removing
    rcases hremove : t.perform (Solver.remove c) with ⟨e | _, u⟩
    · obtain ⟨-, hsame, -, hrefused⟩ := leads_of_run_eq hremove (Solver.leads_remove_manual c t)
      refine ⟨Eq.trans hsame hedits, fun h => (by cases h), fun e' _ => ⟨t, ?_, fun id => ?_⟩⟩
      · rw [List.take_left, List.take_zero]
        exact h
      · refine (hrefused e rfl id).imp_right ?_
        rintro ⟨rfl, hnone⟩
        exact ⟨List.mem_map_of_mem (List.mem_append_right _ (List.mem_cons_self ..)), hnone⟩
    · obtain ⟨hmode', hsame, hok, -⟩ := leads_of_run_eq hremove (Solver.leads_remove_manual c t)
      obtain ⟨hlive, hu⟩ := hok rfl
      have hrest := ih (gone ++ [c]) (h.remove hlive hu) (Eq.trans (Eq.symm hmode') hmode)
        (Eq.trans hsame hedits)
      rwa [List.append_assoc, List.length_append] at hrest

omit [Scalar α] in
/-- Of what a broken batch was to add nothing is left, and of what it was to remove something may be
missing. -/
theorem frays_of_halted {v w : Solver α} (h : s.Halted old new removed added t)
    (hv : ∀ id, v.given? id =
      if id ∈ (new.take added).reverse.map Constraint.id then none else t.given? id)
    (hw : ∀ id, w.given? id = (v.given? id).or ((old.take removed).reverse.find? (·.id == id))) :
    s.Frays old w := by
  intro id
  obtain ⟨u, hexchanged, hsame⟩ := h
  have hnew : id ∈ (new.take added).reverse.map Constraint.id ↔
      id ∈ (new.take added).map Constraint.id := by
    rw [List.map_reverse, List.mem_reverse]
  have hgone : id ∈ (old.take removed).map Constraint.id → id ∈ old.map Constraint.id :=
    fun hid => List.map_subset _ (List.take_subset removed old) hid
  -- What the batch has not taken away has not been brought back either.
  have hkept (c : Constraint α) (hc : v.given? id = some c) : s.given? id = some c := by
    rw [hv] at hc
    split at hc
    · cases hc
    · next hadded =>
      have hu := (hsame id).resolve_right fun hnone => nomatch hc.symm.trans hnone.2
      rw [hu, hexchanged.given?, Solver.find?_id_eq_none_iff.2 (fun hid => hadded (hnew.2 hid)),
        Option.none_or] at hc
      split at hc
      · cases hc
      · exact hc
  rw [hw]
  rcases hleft : v.given? id with _ | c
  · rw [Option.none_or]
    by_cases hold : id ∈ old.map Constraint.id
    · refine .inr ⟨hold, fun c hc => ?_⟩
      have hmem := List.mem_reverse.1 (List.mem_of_find?_eq_some hc)
      have hid := List.find?_some hc
      exact ⟨List.mem_of_mem_take hmem, beq_iff_eq.1 hid⟩
    · have hnone : (old.take removed).reverse.find? (·.id == id) = none := by
        rw [Solver.find?_id_eq_none_iff, List.map_reverse, List.mem_reverse]
        exact fun hid => hold (hgone hid)
      rw [hnone]
      refine .inl (Eq.symm ?_)
      by_cases hadded : id ∈ (new.take added).map Constraint.id
      · obtain ⟨c, hc, rfl⟩ := List.mem_map.1 hadded
        exact (hexchanged.free c hc).resolve_left fun hid => hold (hgone hid)
      · have hu := (hsame id).resolve_right fun hnone => hold hnone.1
        rw [hv, if_neg fun hid => hadded (hnew.1 hid), hu, hexchanged.given?,
          Solver.find?_id_eq_none_iff.2 hadded, Option.none_or, if_neg fun hid => hold (hgone hid)]
          at hleft
        exact hleft
  · rw [Option.some_or]
    exact .inl (hkept c hleft).symm

theorem leads_revertBatch_frays (h : s.Halted old new removed added t) :
    Leads (revertBatch old new removed added).run t fun r v => r = .ok () → s.Frays old v := by
  refine (leads_removeAll_given? _ t).run_bind (fun _ v hv => ?_) fun _ _ _ => nofun
  refine (leads_addAll_given? _ v).run_bind (fun _ w hw => ?_) fun _ _ _ => nofun
  refine (Solver.leads_setAutoSolve true w).mono fun r x hx _ => ?_
  refine frays_of_halted h (hv rfl) fun id => ?_
  exact (congrFun (Solver.given?_congr hx.live) id).trans (hw rfl id)

theorem edits_revertBatch (old new : List (Constraint α)) (removed added : Nat) :
    Through Solver.SameEdits (revertBatch old new removed added).run :=
  (through_forM Solver.edits_remove _).run_bind fun _ =>
    (through_forM Solver.edits_add _).run_bind fun _ => Solver.edits_setAutoSolve true

/-! ### Replacing constraints -/

/-- What replacing constraints comes to for those that a layout has been given, whatever happens to
its solver. -/
structure Trades (s : Solver α) (old new : List (Constraint α)) (r : Except LayoutError Unit)
    (l' : Layout α) : Prop where
  edits : ∀ t, l'.solver = some t → s.SameEdits t
  ok : r = .ok () → ∃ t, l'.solver = some t ∧ s.Exchanged old new t
  error : r ≠ .ok () → ∀ t, l'.solver = some t → s.Frays old t

theorem trades (hs : l.solver = some s) (old new : List (Constraint α)) :
    Trades s old new (l.replace old new).1 (l.replace old new).2.2 := by
  have hstart := Solver.leads_setAutoSolve false s
  have hoff : s.Exchanged [] [] (s.perform (Solver.setAutoSolve false)).2 :=
    .of_given? (Solver.given?_congr hstart.live)
  have hend : Batched s old new
      (applyBatch.removing new 0 old (s.perform (Solver.setAutoSolve false)).2) :=
    batched_removing [] old hoff rfl hstart.edits
  unfold replace swap applyBatch
  rw [hs]
  dsimp only
  rcases happly : applyBatch.removing new 0 old (s.perform (Solver.setAutoSolve false)).2
    with ⟨cause | _, removed, added, t⟩
  · rw [happly] at hend
    dsimp only
    rcases hrevert : t.perform (revertBatch old new removed added) with ⟨rollback | _, u⟩
    · exact ⟨nofun, nofun, fun _ => nofun⟩
    · have hhalted := hend.error cause rfl
      have hedits := leads_of_run_eq hrevert (edits_revertBatch old new removed added t)
      refine ⟨fun w hw => ?_, nofun, fun _ w hw => ?_⟩
      · cases hw
        exact Eq.trans hedits hend.edits
      · cases hw
        exact leads_of_run_eq hrevert (leads_revertBatch_frays hhalted) rfl
  · rw [happly] at hend
    refine ⟨fun w hw => ?_, fun _ => ⟨t, rfl, hend.ok rfl⟩, fun hr => absurd rfl hr⟩
    cases hw
    exact hend.edits

/-! ### Setting up -/

theorem setUp_contents (hnew : l.solver = none) (hok : (l.setUp cs).1 = .ok ()) :
    ∃ s, (l.setUp cs).2.2.solver = some s ∧ s.Holding cs ∧ s.SameEdits (Solver.new : Solver α) := by
  have hload : Through (@Solver.SameEdits α) (Solver.setAutoSolve false >>= fun _ =>
      addAll cs >>= fun _ => Solver.setAutoSolve true : Solving α Unit).run :=
    (Solver.edits_setAutoSolve false).run_bind fun _ =>
      (through_forM Solver.edits_add cs).run_bind fun _ => Solver.edits_setAutoSolve true
  obtain ⟨s, hs, hholding⟩ := ((setUp_spec hnew cs).resolve_right fun h => h.1 hok).2
  refine ⟨s, hs, hholding, ?_⟩
  revert hs
  unfold setUp isInitialized
  rw [hnew, if_neg (by simp)]
  dsimp only
  rcases hrun : Solver.new.perform _ with ⟨e | _, t⟩
  · exact fun hs => nomatch hnew.symm.trans hs
  · rintro ⟨⟩
    have hedits := leads_of_run_eq hrun (hload Solver.new)
    exact Eq.symm hedits

end Layout

/-! ### Edit variables -/

namespace Solver

/-- Whatever an edit variable brought has a name that no constraint has that was given. -/
def Neat (s : Solver α) : Prop :=
  ∀ x edit, s.edits.get? x = some edit → ∃ serial, edit.handle = .edit serial

/-- The constraints that were given stay, if no edit variable can be taken for one. -/
def SameStock (s t : Solver α) : Prop := s.Neat → t.Neat ∧ t.given? = s.given?

instance : Std.Refl (@SameStock α) := ⟨fun _ h => ⟨h, rfl⟩⟩

instance : IsTrans (Solver α) SameStock :=
  ⟨fun _ _ _ h h' hs => ⟨(h' (h hs).1).1, (h' (h hs).1).2.trans (h hs).2⟩⟩

variable {s t : Solver α} {c : Constraint α} {x : Variable} {r : Except SolverError Unit}

theorem Neat.congr (h : s.Neat) (hedits : s.SameEdits t) : t.Neat :=
  fun x edit hedit => h x edit (by rwa [← hedits])

theorem Neat.insert (h : s.Neat) {edit : Edit α} {serial : Nat} (hedit : edit.handle = .edit serial) :
    Neat { s with edits := s.edits.insert x edit } := by
  intro y edit' hedit'
  change (s.edits.insert x edit).get? y = some edit' at hedit'
  rw [Table.get?_insert] at hedit'
  split at hedit'
  · cases hedit'
    exact ⟨serial, hedit⟩
  · exact h y edit' hedit'

theorem Neat.erase (h : s.Neat) : Neat { s with edits := s.edits.erase x } :=
  fun y edit hedit => h y edit (Table.of_get?_erase hedit).2

theorem Keeps.sameStock (h : s.Keeps t) : s.SameStock t :=
  fun hs => ⟨hs.congr h.edits, given?_congr h.live⟩

theorem Admits.sameStock {serial : Nat} (h : s.Admits (.edit serial) c r t) : s.SameStock t := by
  refine fun hs => ⟨hs.congr h.edits, funext fun id => ?_⟩
  rcases h.live with hlive | ⟨tag, hlive⟩
  · exact congrFun (given?_congr hlive) id
  · unfold given?
    rw [hlive, Table.get?_insert_ne _ (by simp)]

theorem Dismisses.given?_eq {serial : Nat} (h : s.Dismisses (.edit serial) r t) :
    t.given? = s.given? := by
  by_cases hnone : s.live.get? (.edit serial) = none
  · exact given?_congr (h.unknown hnone).1
  · funext id
    unfold given?
    rw [(h.known hnone).1, Table.get?_erase_ne _ (by simp)]

variable [Scalar α]

theorem stock_addEdit (x : Variable) (strength : Strength α) :
    Through SameStock (addEdit x strength).run := by
  intro s
  unfold addEdit
  refine leads_run_get_bind.2 ?_
  split
  · exact leads_run_throw_bind.2 (Std.Refl.refl s)
  · dsimp only
    split
    · exact leads_run_throw_bind.2 (Std.Refl.refl s)
    · refine leads_run_get_bind.2 ((leads_addAs _ _ s).run_bind (fun _ t ht => ?_)
        fun _ t ht => ht.sameStock)
      refine leads_run_get_bind.2 ?_
      split
      · exact leads_run_throw.2 ht.sameStock
      · exact leads_run_modify.2 (IsTrans.trans _ _ _ ht.sameStock fun ht => ⟨ht.insert rfl, rfl⟩)

theorem stock_suggest (x : Variable) (v : α) : Through SameStock (suggest x v).run := by
  intro s
  refine (leads_solve s).run_bind (fun _ t ht => ?_) fun _ t ht => ht.toKeeps.sameStock
  refine leads_run_get_bind.2 ?_
  split
  · exact leads_run_throw.2 ht.toKeeps.sameStock
  · next edit hedit =>
    refine leads_run_set_bind.2 ((leads_mend _).mono fun _ u hu => ?_)
    refine IsTrans.trans _ _ _ ht.toKeeps.sameStock (IsTrans.trans _ _ _ (fun ht => ?_)
      ((keeps_shift _ _ _).trans hu.toKeeps).sameStock)
    obtain ⟨serial, hserial⟩ := ht x edit hedit
    exact ⟨ht.insert hserial, rfl⟩

theorem stock_removeEdit (x : Variable) : Through SameStock (removeEdit x : Solving α Unit).run := by
  intro s
  unfold removeEdit
  refine leads_run_get_bind.2 ?_
  split
  · exact leads_run_throw.2 (Std.Refl.refl s)
  · next edit hedit =>
    refine leads_run_modify_bind.2 ((leads_removeAs edit.handle _).mono fun _ t ht hs => ?_)
    obtain ⟨serial, hserial⟩ := hs x edit hedit
    rw [hserial] at ht
    exact ⟨hs.erase.congr ht.edits, ht.given?_eq⟩

end Solver

namespace Layout

/-- No edit variable can be taken for a constraint that was given. -/
def Neat (l : Layout α) : Prop := ∀ s, l.solver = some s → s.Neat

/-- The constraints that were given stay, if no edit variable can be taken for one. -/
def SameStock (l l' : Layout α) : Prop := l.Neat → l'.Neat ∧ l'.given? = l.given?

variable {s t : Solver α} {l l' : Layout α}

theorem sameStock_refl (l : Layout α) : l.SameStock l := fun h => ⟨h, rfl⟩

theorem SameStock.trans (h : l.SameStock l') {l'' : Layout α} (h' : l'.SameStock l'') :
    l.SameStock l'' :=
  fun hl => ⟨(h' (h hl).1).1, (h' (h hl).1).2.trans (h hl).2⟩

theorem SameStock.of_solver (h : s.SameStock t) (hs : l.solver = some s)
    (ht : l'.solver = some t) : l.SameStock l' := by
  intro hl
  obtain ⟨hneat, hgiven⟩ := h (hl s hs)
  rw [given?_of_solver hs, given?_of_solver ht]
  exact ⟨fun u hu => Option.some_inj.1 (ht.symm.trans hu) ▸ hneat, hgiven⟩

theorem SameStock.congr (h : l.SameStock l') {l'' : Layout α} (hsolver : l''.solver = l'.solver) :
    l.SameStock l'' := by
  intro hl
  obtain ⟨hneat, hgiven⟩ := h hl
  refine ⟨fun s hs => hneat s (hsolver ▸ hs), ?_⟩
  rw [← hgiven]
  unfold given?
  rw [hsolver]

variable [Scalar α]

theorem stock_editAll (strength : Strength α) (edits : List (Variable × α)) (added : List Variable)
    (s : Solver α) : s.SameStock (editAll strength edits added s).2.2 := by
  induction edits generalizing added s with
  | nil => exact Std.Refl.refl s
  | cons edit rest ih =>
    obtain ⟨x, v⟩ := edit
    unfold editAll
    rcases hadd : s.perform (Solver.addEdit x strength) with ⟨_ | _, t⟩
    · have ht := leads_of_run_eq hadd (Solver.stock_addEdit x strength s)
      exact ht
    · have ht := leads_of_run_eq hadd (Solver.stock_addEdit x strength s)
      dsimp only
      rcases hsuggest : t.perform (Solver.suggest x v) with ⟨_ | _, u⟩
      · have hu := leads_of_run_eq hsuggest (Solver.stock_suggest x v t)
        exact IsTrans.trans _ _ _ ht hu
      · have hu := leads_of_run_eq hsuggest (Solver.stock_suggest x v t)
        exact IsTrans.trans _ _ _ ht (IsTrans.trans _ _ _ hu (ih (x :: added) u))

theorem stock_solveWith (l : Layout α) (operation : String) (edits : List (Variable × α))
    (strength : Strength α) : l.SameStock (l.solveWith operation edits strength).2 := by
  unfold solveWith
  rcases hs : l.solver with _ | s
  · exact sameStock_refl l
  · have hedit := stock_editAll strength edits [] s
    dsimp only
    generalize editAll strength edits [] s = p at hedit ⊢
    rcases p with ⟨outcome, added, t⟩
    rcases hclean : t.perform (added.forM Solver.removeEdit) with ⟨cleanup, u⟩
    have hu := leads_of_run_eq hclean (through_forM Solver.stock_removeEdit added t)
    exact .of_solver (IsTrans.trans _ _ _ hedit hu) hs rfl

theorem stock_minSize (l : Layout α) (width height : Variable) (strength : Strength α) :
    l.SameStock (l.minSize width height strength).2 := by
  refine (l.stock_solveWith "get min size" [(width, Scalar.zero), (height, Scalar.zero)]
    strength).congr ?_
  unfold minSize
  dsimp only
  rcases l.solveWith _ _ strength with ⟨_ | _, l'⟩ <;> rfl

theorem stock_maxSize (l : Layout α) (width height : Variable) (strength : Strength α) :
    l.SameStock (l.maxSize width height strength).2 := by
  refine (l.stock_solveWith "get max size" [(width, probeSentinel), (height, probeSentinel)]
    strength).congr ?_
  unfold maxSize
  dsimp only
  rcases l.solveWith _ _ strength with ⟨_ | _, l'⟩ <;> rfl

theorem stock_resize {β : Type} (l : Layout α) (width height : Variable) (size : Size α)
    (strength : Strength α) (receive : Solution α → β) :
    l.SameStock (l.resize width height size strength fun sol l => (receive sol, l)).2 := by
  unfold resize
  rcases l.guard.enter with ⟨_ | _, guard⟩
  · exact sameStock_refl l
  · have hsolve : l.SameStock ({ l with guard }.solveWith "layout"
        [(width, size.width), (height, size.height)] strength).2 :=
      { l with guard }.stock_solveWith "layout" _ strength
    dsimp only
    generalize { l with guard }.solveWith "layout" _ strength = p at hsolve ⊢
    rcases p with ⟨_ | _, l'⟩ <;> exact hsolve.congr rfl

/-! ### What a layout has been given -/

variable {old new cs : List (Constraint α)} {r : Except LayoutError Unit}

omit [Scalar α] in
/-- What a layout has been given once other constraints were asked of it, however that ended. Under the
names of those that were to go something may be missing, but nothing foreign has come in. -/
structure Supplants (l : Layout α) (old new : List (Constraint α)) (r : Except LayoutError Unit)
    (l' : Layout α) : Prop where
  neat : l.Neat → l'.Neat
  kept : l'.isInitialized = true → ∀ id c, id ∉ old.map Constraint.id → l.given? id = some c →
    l'.given? id = some c
  brought : r = .ok () → ∀ c ∈ new, l'.given? c.id = some c
  ok : r = .ok () → ∀ id c, l'.given? id = some c →
    l.given? id = some c ∧ id ∉ old.map Constraint.id ∨ c ∈ new ∧ c.id = id
  error : r ≠ .ok () → ∀ id c, l'.given? id = some c → l.given? id = some c ∨ c ∈ old ∧ c.id = id

omit [Scalar α] in
/-- Under names that are not taken away all is as before, and the new constraints have come in. -/
theorem Supplants.of_exchanged (hs : l.solver = some s) (h : s.Exchanged old new t)
    (ht : l'.solver = some t) (hneat : l.Neat → l'.Neat) : l.Supplants old new (.ok ()) l' := by
  have hgiven := given?_of_solver hs
  have hgiven' := given?_of_solver ht
  refine ⟨hneat, fun _ id c hid hc => ?_, fun _ c hc => ?_, fun _ id c hc => ?_, fun hr => ?_⟩
  · rw [hgiven] at hc
    have hfree : id ∉ new.map Constraint.id := by
      intro hmem
      obtain ⟨d, hd, rfl⟩ := List.mem_map.1 hmem
      exact (h.free d hd).elim hid fun hnone => nomatch hc.symm.trans hnone
    rw [hgiven', h.given?, Solver.find?_id_eq_none_iff.2 hfree, Option.none_or, if_neg hid]
    exact hc
  · have hsome : (new.find? (·.id == c.id)).isSome = true :=
      List.find?_isSome.2 ⟨c, hc, beq_self_eq_true c.id⟩
    obtain ⟨d, hd⟩ := Option.isSome_iff_exists.1 hsome
    have hid := List.find?_some hd
    have hsame : d.id = c.id := beq_iff_eq.1 hid
    rw [hgiven', h.given?, hd, Option.some_or]
    exact congrArg some (List.inj_on_of_nodup_map h.nodup (List.mem_of_find?_eq_some hd) hc hsame)
  · rw [hgiven', h.given?] at hc
    rcases Option.or_eq_some_iff.1 hc with hfind | ⟨hnone, hc⟩
    · have hid := List.find?_some hfind
      exact .inr ⟨List.mem_of_find?_eq_some hfind, beq_iff_eq.1 hid⟩
    · split at hc
      · cases hc
      · next hid => exact .inl ⟨hgiven ▸ hc, hid⟩
  · exact absurd rfl hr

theorem supplants_replace (l : Layout α) (old new : List (Constraint α)) :
    l.Supplants old new (l.replace old new).1 (l.replace old new).2.2 := by
  rcases hs : l.solver with _ | s
  · have hrefused : l.replace old new = (.error (.notInitialized "update constraints"), [], l) := by
      unfold replace swap
      rw [hs]
    rw [hrefused]
    exact ⟨id, fun _ _ _ _ h => h, nofun, nofun, fun _ _ _ h => .inl h⟩
  · have htrades := trades hs old new
    have hneat (hl : l.Neat) : (l.replace old new).2.2.Neat :=
      fun t ht => (hl s hs).congr (htrades.edits t ht)
    by_cases hok : (l.replace old new).1 = .ok ()
    · obtain ⟨t, ht, hexchanged⟩ := htrades.ok hok
      rw [hok]
      exact .of_exchanged hs hexchanged ht hneat
    · have hgiven := given?_of_solver hs
      refine ⟨hneat, fun hinit id c hid hc => ?_, fun hr => absurd hr hok, fun hr => absurd hr hok,
        fun _ id c hc => ?_⟩
      · obtain ⟨t, ht⟩ := Option.isSome_iff_exists.1 hinit
        rw [given?_of_solver ht]
        exact ((htrades.error hok t ht id).resolve_right fun h => hid h.1).trans (hgiven ▸ hc)
      · unfold given? at hc
        obtain ⟨t, ht, hc⟩ := Option.bind_eq_some_iff.1 hc
        rcases htrades.error hok t ht id with hsame | ⟨-, hleft⟩
        · exact .inl (hgiven ▸ hsame ▸ hc)
        · exact .inr (hleft c hc)

omit [Scalar α] in
/-- A layout has been given just the constraints of a list. -/
structure Has (l : Layout α) (cs : List (Constraint α)) : Prop where
  neat : l.Neat
  given?_eq_some_iff : ∀ id c, l.given? id = some c ↔ c ∈ cs ∧ id = c.id

omit [Scalar α] in
theorem Has.sameStock (h : l.Has cs) (hstock : l.SameStock l') : l'.Has cs := by
  obtain ⟨hneat, hgiven⟩ := hstock h.neat
  exact ⟨hneat, hgiven ▸ h.given?_eq_some_iff⟩

theorem setUp_has (hnew : l.solver = none) (hok : (l.setUp cs).1 = .ok ()) :
    (l.setUp cs).2.2.Has cs := by
  obtain ⟨s, hs, hholding, hedits⟩ := setUp_contents hnew hok
  refine ⟨fun t ht x edit hedit => ?_, fun id c => ?_⟩
  · cases hs.symm.trans ht
    have hnone : s.edits.get? x = none := congrArg (·.get? x) (Eq.symm hedits)
    cases hnone.symm.trans hedit
  · rw [given?_of_solver hs]
    exact hholding.given?_eq_some_iff

omit [Scalar α] in
/-- All that a layout has been given is in a list. -/
def Within (l : Layout α) (cs : List (Constraint α)) : Prop :=
  ∀ id c, l.given? id = some c → c ∈ cs ∧ c.id = id

variable {ds : List (Constraint α)}

omit [Scalar α] in
theorem Has.within (h : l.Has cs) : l.Within cs := fun id c hc =>
  have ⟨hmem, hid⟩ := (h.given?_eq_some_iff id c).1 hc
  ⟨hmem, hid.symm⟩

omit [Scalar α] in
theorem Within.congr (h : l.Within cs) (hgiven : l'.given? = l.given?)
    (hsub : cs ⊆ ds) : l'.Within ds := fun id c hc =>
  (h id c (hgiven ▸ hc)).imp_left fun hmem => hsub hmem

omit [Scalar α] in
/-- What the list has to keep depends on whether the new constraints came in. -/
theorem Supplants.within (h : l.Supplants old new r l') (hl : l.Within cs)
    (hok : r = .ok () → (∀ c ∈ cs, c ∉ old → c ∈ ds) ∧ new ⊆ ds)
    (herror : r ≠ .ok () → cs ⊆ ds ∧ old ⊆ ds) : l'.Within ds := by
  intro id c hc
  by_cases hr : r = .ok ()
  · obtain ⟨hkept, hnew⟩ := hok hr
    rcases h.ok hr id c hc with ⟨hbefore, hid⟩ | ⟨hcame, hid⟩
    · obtain ⟨hmem, rfl⟩ := hl id c hbefore
      exact ⟨hkept c hmem fun hold => hid (List.mem_map_of_mem hold), rfl⟩
    · exact ⟨hnew hcame, hid⟩
  · obtain ⟨hkept, hold⟩ := herror hr
    rcases h.error hr id c hc with hbefore | ⟨hback, hid⟩
    · exact (hl id c hbefore).imp_left fun hmem => hkept hmem
    · exact ⟨hold hback, hid⟩

omit [Scalar α] in
/-- Probes before and afterwards do not count. -/
theorem Supplants.congr (h : l.Supplants old new r l') {l₀ l₁ : Layout α} (hneat : l₀.Neat)
    (hbefore : l₀.SameStock l) (hafter : l'.SameStock l₁)
    (hinit : l₁.isInitialized = l'.isInitialized) : l₀.Supplants old new r l₁ := by
  obtain ⟨hneat, hgiven⟩ := hbefore hneat
  obtain ⟨hneat', hgiven'⟩ := hafter (h.neat hneat)
  refine ⟨fun _ => hneat', fun hl => ?_, fun hr => ?_, fun hr => ?_, fun hr => ?_⟩
  · rw [hgiven', ← hgiven]
    exact h.kept (hinit ▸ hl)
  · rw [hgiven']
    exact h.brought hr
  · rw [hgiven', ← hgiven]
    exact h.ok hr
  · rw [hgiven', ← hgiven]
    exact h.error hr

end Layout

end ReactiveView
