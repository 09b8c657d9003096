import ReactiveView.Layout.Container
import ReactiveView.Proofs.Simplex.Editing

/-!
This module contains which constraints a layout lists after it was asked for something: those of a
batch if that went through, and those from before if it did not, as long as the solver did not break
down. A layout that cannot undo a batch lists none, because it has no solver any more.
-/

namespace ReactiveView

namespace Layout

variable {α : Type} {l : Layout α} {s t : Solver α} {old new rest cs : List (Constraint α)}
  {c : Constraint α} {edits : List (Variable × α)} {strength : Strength α} {added : List Variable}

/-- The solver lists the constraints, if there is one. -/
def Lists (l : Layout α) (cs : List (Constraint α)) : Prop := ∀ s, l.solver = some s → s.Holding cs

/-- The request did not end in a breakdown of the solver. -/
abbrev Intact {β : Type} (outcome : Except LayoutError β) : Prop :=
  LayoutError.isBreakdown outcome = false

theorem isInitialized_eq_false_iff : l.isInitialized = false ↔ l.solver = none :=
  Option.isSome_eq_false_iff.trans Option.isNone_iff_eq_none

/-- A request that leaves a layout initialized or not, and its constraints as they were. -/
structure Preserves {β : Type} (l : Layout α) (p : Except LayoutError β × Layout α) : Prop where
  isInitialized : p.2.isInitialized = l.isInitialized
  lists : ∀ cs, l.Lists cs → Intact p.1 → p.2.Lists cs

/-- What is made of a result does not matter, nor does the guard. -/
theorem Preserves.map {β γ : Type} {p : Except LayoutError β × Layout α}
    {q : Except LayoutError γ × Layout α} (h : l.Preserves p) (f : β → γ) (hresult : q.1 = f <$> p.1)
    (hsolver : q.2.solver = p.2.solver) : l.Preserves q where
  isInitialized := (congrArg Option.isSome hsolver).trans h.isInitialized
  lists cs hl hq s hs := by
    refine h.lists cs hl ?_ s (hsolver ▸ hs)
    rw [hresult] at hq
    rcases p with ⟨e | b, l'⟩
    · cases e <;> exact hq
    · rfl

variable [Scalar α]

/-! ### Steps of a batch -/

theorem leads_add (h : s.Holding cs) (c : Constraint α) :
    Leads (Solver.add c).run s fun r t =>
      (r = .ok () → t.Holding (cs ++ [c])) ∧
        ∀ e, r = .error e → e.isInternal = false → t.Holding cs :=
  (Solver.leads_addAs _ c s).mono fun r t ht =>
    ⟨fun hr => by
      obtain ⟨hfree, tag, hlive⟩ := ht.ok hr
      exact h.insert hfree hlive, fun e he hordinary => h.congr (ht.error e he hordinary)⟩

/-- What is listed can be removed. -/
theorem leads_remove (h : s.Holding (c :: cs)) :
    Leads (Solver.remove c).run s fun r t =>
      t.Holding cs ∧ ∀ e, r = .error e → e.isInternal = true := by
  obtain ⟨lv, hlv, -⟩ := h.exists_of_head
  refine (Solver.leads_removeAs _ s).mono fun r t ht => ?_
  obtain ⟨hlive, hinternal⟩ := ht.known (by rw [hlv]; exact Option.some_ne_none _)
  exact ⟨h.erase hlive, hinternal⟩

theorem leads_addAll (h : s.Holding cs) (new : List (Constraint α)) :
    Leads (addAll new).run s fun r t => r = .ok () → t.Holding (cs ++ new) := by
  induction new generalizing s cs with
  | nil =>
    rw [List.append_nil]
    exact leads_run_pure.2 fun _ => h
  | cons c rest ih =>
    refine (leads_add h c).run_bind (fun _ t ht => ?_) fun _ _ _ => nofun
    have hrest := ih (ht.1 rfl)
    rwa [List.append_assoc] at hrest

theorem leads_removeAll (h : s.Holding (old ++ cs)) :
    Leads (removeAll old).run s fun r t => r = .ok () → t.Holding cs := by
  induction old generalizing s with
  | nil => exact leads_run_pure.2 fun _ => h
  | cons c rest ih =>
    exact (leads_remove h).run_bind (fun _ t ht => ih ht.1) fun _ _ _ => nofun

/-! ### Batches -/

/-- How far a batch has come when it ends. -/
structure Applies (old new rest : List (Constraint α)) (r : Except SolverError Unit)
    (removed added : Nat) (t : Solver α) : Prop where
  ok : r = .ok () → t.Holding (rest ++ new)
  error : ∀ e, r = .error e → e.isInternal = false →
    t.Holding (old.drop removed ++ (rest ++ new.take added))

/-- The end of a batch, put together. -/
abbrev Ended (old new rest : List (Constraint α))
    (p : Except SolverError Unit × Nat × Nat × Solver α) : Prop :=
  Applies old new rest p.1 p.2.1 p.2.2.1 p.2.2.2

/-- After all removals the induction is on what is left to be added. -/
theorem ended_adding (front left : List (Constraint α)) (h : s.Holding (rest ++ front)) :
    Ended old (front ++ left) rest (applyBatch.adding old.length front.length left s) := by
  induction left generalizing front s with
  | nil =>
    rw [List.append_nil]
    unfold applyBatch.adding
    rcases hend : s.perform (Solver.setAutoSolve true) with ⟨r, t⟩
    have ht : s.Computes r t := leads_of_run_eq hend (Solver.leads_setAutoSolve true s)
    refine ⟨fun _ => h.congr ht.live, fun e he hordinary => ?_⟩
    exact absurd (ht.internal e he) (by rw [hordinary]; exact Bool.false_ne_true)
  | cons c left ih =>
    unfold applyBatch.adding
    rcases hadd : s.perform (Solver.add c) with ⟨e | _, t⟩
    · refine ⟨nofun, fun e' he hordinary => ?_⟩
      cases he
      rw [List.drop_length, List.nil_append, List.take_left]
      exact (leads_of_run_eq hadd (leads_add h c)).2 e rfl hordinary
    · have ht := (leads_of_run_eq hadd (leads_add h c)).1 rfl
      rw [List.append_assoc] at ht
      have hrest := ih (front ++ [c]) ht
      rwa [List.append_assoc, List.length_append] at hrest

/-- Before that it is on what is left to be removed. -/
theorem ended_removing (gone left : List (Constraint α)) (h : s.Holding (left ++ rest)) :
    Ended (gone ++ left) new rest (applyBatch.removing new gone.length left s) := by
  induction left generalizing gone s with
  | nil =>
    unfold applyBatch.removing
    have hnone : s.Holding (rest ++ []) := by rwa [List.append_nil]
    have hrest : Ended gone ([] ++ new) rest (applyBatch.adding gone.length 0 new s) :=
      ended_adding [] new hnone
    rwa [List.append_nil]
  | cons c left ih =>
    unfold applyBatch.removing
    rcases hremove : s.perform (Solver.remove c) with ⟨e | _, t⟩
    · refine ⟨nofun, fun e' he hordinary => ?_⟩
      cases he
      have hinternal := (leads_of_run_eq hremove (leads_remove h)).2 e rfl
      rw [hordinary] at hinternal
      cases hinternal
    · have hrest := ih (gone ++ [c]) (leads_of_run_eq hremove (leads_remove h)).1
      rwa [List.append_assoc, List.length_append] at hrest

theorem ended_applyBatch (h : s.Holding (old ++ rest)) (new : List (Constraint α)) :
    Ended old new rest (applyBatch old new s) :=
  ended_removing [] old h

/-- Steps that are taken back leave what was there before. -/
theorem leads_revertBatch {removed added : Nat}
    (h : s.Holding (old.drop removed ++ (rest ++ new.take added))) :
    Leads (revertBatch old new removed added).run s fun r t =>
      r = .ok () → t.Holding (old ++ rest) := by
  have hadded : s.Holding ((new.take added).reverse ++ (old.drop removed ++ rest)) := by
    refine h.perm ?_
    rw [← List.append_assoc]
    exact List.perm_append_comm.trans ((List.reverse_perm _).symm.append_right _)
  refine (leads_removeAll hadded).run_bind (fun _ t ht => ?_) fun _ _ _ => nofun
  refine (leads_addAll (ht rfl) _).run_bind (fun _ u hu => ?_) fun _ _ _ => nofun
  refine (Solver.leads_setAutoSolve true u).mono fun r v hv _ => ((hu rfl).congr hv.live).perm ?_
  rw [List.append_assoc]
  refine (List.perm_append_comm_assoc _ rest _).trans ?_
  refine (List.Perm.append_left rest ?_).trans List.perm_append_comm
  refine (List.Perm.append_left _ (List.reverse_perm _)).trans ?_
  exact List.perm_append_comm.trans (List.Perm.of_eq (List.take_append_drop removed old))

/-! ### Setting up and swapping -/

/-- A layout that has been set up lists what it was set up with; else it is not initialized. -/
theorem setUp_spec (hnew : l.solver = none) (cs : List (Constraint α)) :
    ((l.setUp cs).1 = .ok () ∧ ∃ s, (l.setUp cs).2.2.solver = some s ∧ s.Holding cs) ∨
      (l.setUp cs).1 ≠ .ok () ∧ (l.setUp cs).2.2.solver = none := by
  have hload : Leads (Solver.setAutoSolve false >>= fun _ => addAll cs >>= fun _ =>
      Solver.setAutoSolve true : Solving α Unit).run Solver.new fun r t =>
        r = .ok () → t.Holding cs := by
    have hempty : (Solver.new : Solver α).Holding [] := ⟨.empty, .nil⟩
    refine (Solver.leads_setAutoSolve false _).run_bind (fun _ t ht => ?_) fun _ _ _ => nofun
    refine (leads_addAll (hempty.congr ht.live) cs).run_bind (fun _ u hu => ?_) fun _ _ _ => nofun
    exact (Solver.leads_setAutoSolve true u).mono fun r v hv _ => (hu rfl).congr hv.live
  unfold setUp isInitialized
  rw [hnew, if_neg (by simp)]
  dsimp only
  rcases hrun : Solver.new.perform _ with ⟨e | _, t⟩
  · exact .inr ⟨nofun, hnew⟩
  · exact .inl ⟨rfl, t, rfl, leads_of_run_eq hrun hload rfl⟩

/-- What a swap in an initialized layout comes to. -/
inductive Swaps (l : Layout α) (old new rest : List (Constraint α)) :
    Except LayoutError BatchOutcome × Layout α → Prop
  | applied {t : Solver α} (h : t.Holding (rest ++ new)) :
      Swaps l old new rest (.ok .applied, { l with solver := some t })
  | reverted {cause : SolverError} {t : Solver α}
      (h : cause.isInternal = false → t.Holding (old ++ rest)) :
      Swaps l old new rest (.ok (.reverted cause), { l with solver := some t })
  | reset (cause rollback : SolverError) :
      Swaps l old new rest (.ok (.reset cause rollback), { l with solver := none })

theorem swaps (hs : l.solver = some s) (h : s.Holding (old ++ rest)) (new : List (Constraint α)) :
    Swaps l old new rest (l.swap old new) := by
  have hoff : (s.perform (Solver.setAutoSolve false)).2.Holding (old ++ rest) :=
    h.congr (Solver.leads_setAutoSolve false s).live
  have hend := ended_applyBatch hoff new
  unfold swap
  rw [hs]
  dsimp only
  rcases happly : applyBatch old new (s.perform (Solver.setAutoSolve false)).2
    with ⟨cause | _, removed, added, t⟩
  · rw [happly] at hend
    dsimp only
    rcases hrevert : t.perform (revertBatch old new removed added) with ⟨rollback | _, u⟩
    · exact .reset cause rollback
    · exact .reverted fun hordinary =>
        leads_of_run_eq hrevert (leads_revertBatch (hend.error cause rfl hordinary)) rfl
  · rw [happly] at hend
    exact .applied (hend.ok rfl)

/-- A batch that went through has been swapped; one that did not has been undone, or the layout is
not initialized any more. -/
theorem replace_spec (h : l.Lists (old ++ rest)) (hintact : Intact (l.replace old new).1) :
    ((l.replace old new).1 = .ok () ∧ (l.replace old new).2.2.isInitialized = true ∧
        (l.replace old new).2.2.Lists (rest ++ new)) ∨
      (l.replace old new).1 ≠ .ok () ∧ (l.replace old new).2.2.Lists (old ++ rest) := by
  rcases hs : l.solver with _ | s
  · have hrefused : l.swap old new = (.error (.notInitialized "update constraints"), l) := by
      unfold swap
      rw [hs]
    unfold replace
    rw [hrefused]
    exact .inr ⟨nofun, h⟩
  · have hswap := swaps hs (h s hs) new
    unfold replace at hintact ⊢
    cases hp : l.swap old new
    rw [hp] at hswap hintact
    cases hswap with
    | applied ht => exact .inl ⟨rfl, rfl, fun _ heq => by cases heq; exact ht⟩
    | reverted ht => exact .inr ⟨nofun, fun _ heq => by cases heq; exact ht hintact⟩
    | reset => exact .inr ⟨nofun, nofun⟩

/-! ### Probes and resizes -/

/-- Where editing fails, fewer variables have been made editable than were asked for. -/
theorem editAll_spec (strength : Strength α) (edits : List (Variable × α))
    (hadded : s.EditsAll added t) :
    ((editAll strength edits added t).1 = .ok () →
        s.EditsAll (editAll strength edits added t).2.1 (editAll strength edits added t).2.2) ∧
      ∀ e, (editAll strength edits added t).1 = .error e → e.isInternal = false →
        s.EditsAll (editAll strength edits added t).2.1 (editAll strength edits added t).2.2 ∧
          (editAll strength edits added t).2.1.length < added.length + edits.length := by
  induction edits generalizing added t with
  | nil => exact ⟨fun _ => hadded, nofun⟩
  | cons edit rest ih =>
    obtain ⟨x, v⟩ := edit
    unfold editAll
    rcases hadd : t.perform (Solver.addEdit x strength) with ⟨e | _, u⟩
    · refine ⟨nofun, fun e' he hordinary => ?_⟩
      cases he
      have hkeeps := (leads_of_run_eq hadd (Solver.leads_addEdit x strength t)).2 e rfl hordinary
      exact ⟨hadded.congr hkeeps, Nat.lt_add_of_pos_right (Nat.succ_pos _)⟩
    · have hedits := (leads_of_run_eq hadd (Solver.leads_addEdit x strength t)).1 rfl
      dsimp only
      rcases hsuggest : u.perform (Solver.suggest x v) with ⟨e | _, w⟩
      · refine ⟨nofun, fun e' he hordinary => ?_⟩
        cases he
        have hinternal := (leads_of_run_eq hsuggest (Solver.leads_suggest hedits v)).2 e rfl
        rw [hordinary] at hinternal
        cases hinternal
      · have hw := (leads_of_run_eq hsuggest (Solver.leads_suggest hedits v)).1
        obtain ⟨hok, herror⟩ := ih (.cons hadded hw)
        refine ⟨hok, fun e he hordinary => ⟨(herror e he hordinary).1, ?_⟩⟩
        refine Nat.lt_of_lt_of_eq (herror e he hordinary).2 ?_
        rw [List.length_cons, List.length_cons]
        omega

/-- After a solution under two edits the constraints are as before: where the second one cannot be
made there is one to withdraw, so that a withdrawal that breaks down leaves no other one behind. -/
theorem preserves_solveWith (l : Layout α) (operation : String) (edit edit' : Variable × α)
    (strength : Strength α) : l.Preserves (l.solveWith operation [edit, edit'] strength) := by
  unfold solveWith
  rcases hs : l.solver with _ | s
  · exact ⟨rfl, fun _ h _ => h⟩
  · obtain ⟨hok, herror⟩ := editAll_spec strength [edit, edit']
      (Solver.EditsAll.nil (Solver.Keeps.refl s))
    dsimp only
    rcases hedit : editAll strength [edit, edit'] [] s with ⟨outcome, added, t⟩
    rw [hedit] at hok herror
    dsimp only at hok herror ⊢
    rcases hclean : t.perform (added.forM Solver.removeEdit) with ⟨cleanup, u⟩
    refine ⟨?_, fun cs h hintact w hw => ?_⟩
    · unfold isInitialized
      rw [hs]
      rfl
    · cases hw
      refine (h s hs).congr ?_
      rcases outcome with e | _
      · obtain ⟨hadded, hlength⟩ := herror e rfl hintact
        have hfew : added.length ≤ 1 := by
          simp only [List.length_cons, List.length_nil] at hlength
          omega
        exact (leads_of_run_eq hclean (Solver.leads_removeEdits hadded)).2 (.inr hfew)
      · obtain ⟨hinternal, hlive⟩ :=
          leads_of_run_eq hclean (Solver.leads_removeEdits (hok rfl))
        rcases cleanup with e | _
        · have hordinary : e.isInternal = false := hintact
          rw [hinternal e rfl] at hordinary
          cases hordinary
        · exact hlive (.inl rfl)

theorem preserves_minSize (l : Layout α) (width height : Variable) (strength : Strength α) :
    l.Preserves (l.minSize width height strength) := by
  unfold minSize
  dsimp only
  have hsolve := l.preserves_solveWith "get min size" (width, Scalar.zero) (height, Scalar.zero)
    strength
  refine hsolve.map (fun sol => ⟨sol.value width, sol.value height⟩) ?_ ?_ <;>
    rcases l.solveWith _ _ strength with ⟨_ | _, l'⟩ <;> rfl

theorem preserves_maxSize (l : Layout α) (width height : Variable) (strength : Strength α) :
    l.Preserves (l.maxSize width height strength) := by
  unfold maxSize
  dsimp only
  have hsolve := l.preserves_solveWith "get max size" (width, probeSentinel)
    (height, probeSentinel) strength
  refine hsolve.map (fun sol => ⟨boundOf (sol.value width), boundOf (sol.value height)⟩) ?_ ?_ <;>
    rcases l.solveWith _ _ strength with ⟨_ | _, l'⟩ <;> rfl

/-- A resize whose receiver leaves the layout alone. -/
theorem preserves_resize {β : Type} (l : Layout α) (width height : Variable) (size : Size α)
    (strength : Strength α) (receive : Solution α → β) :
    l.Preserves (l.resize width height size strength fun sol l => (receive sol, l)) := by
  unfold resize
  rcases l.guard.enter with ⟨_ | _, guard⟩
  · exact ⟨rfl, fun _ h _ => h⟩
  · dsimp only
    have hsolve := { l with guard }.preserves_solveWith "layout" (width, size.width)
      (height, size.height) strength
    generalize { l with guard }.solveWith "layout" _ strength = p at hsolve ⊢
    have hentered : l.Preserves p := ⟨hsolve.isInitialized, hsolve.lists⟩
    rcases p with ⟨_ | _, l'⟩ <;> exact hentered.map (fun sol => some (receive sol)) rfl rfl

end Layout

end ReactiveView
