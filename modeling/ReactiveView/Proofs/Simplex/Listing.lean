import ReactiveView.Proofs.Effect.Leads
import ReactiveView.Proofs.Simplex.Equations
import ReactiveView.Simplex.Solver

/-!
This module contains which constraints a system lists, whatever its numbers are. Pivots do not touch
the list. An operation that a user has to expect to fail leaves it as it was, and only a breakdown of
the rows can do otherwise.
-/

namespace ReactiveView

namespace Solver

variable {α : Type}

/-- The live constraints are those of a list, each under its own name. -/
def Lists (s : Solver α) (cs : List (Constraint α)) : Prop :=
  (s.live.entries.map fun entry => (entry.1, entry.2.constraint)).Perm
    (cs.map fun c => (Handle.given c.id, c))

variable {s t u : Solver α} {cs cs' : List (Constraint α)} {c : Constraint α} {key : Handle}

/-! ### The listed constraints -/

section Lists

variable (h : s.Lists cs)
include h

theorem Lists.congr (hlive : t.live = s.live) : t.Lists cs := by
  unfold Lists at h ⊢
  rw [hlive]
  exact h

theorem Lists.perm (hperm : cs.Perm cs') : s.Lists cs' :=
  List.Perm.trans h (hperm.map _)

theorem Lists.insert {tag : Tag} (hnone : s.live.get? (.given c.id) = none)
    (hlive : t.live = s.live.insert (.given c.id) ⟨c, tag⟩) : t.Lists (cs ++ [c]) := by
  unfold Lists at h ⊢
  rw [hlive]
  refine ((Table.insert_perm _ hnone).map _).trans ?_
  rw [List.map_cons, List.map_append, List.map_singleton]
  exact (h.cons _).trans (List.perm_append_singleton _ _).symm

variable (ha : s.live.Ascending)
include ha

theorem Lists.mem_iff : (∃ lv, s.live.get? key = some lv ∧ lv.constraint = c) ↔
    c ∈ cs ∧ key = .given c.id := by
  have hmem := List.Perm.mem_iff h (a := (key, c))
  simp only [List.mem_map, Prod.mk.injEq, Prod.exists] at hmem
  constructor
  · rintro ⟨lv, hlv, heq⟩
    obtain ⟨c', hc', hkey, rfl⟩ := hmem.1 ⟨key, lv, ha.mem_entries_iff.2 hlv, rfl, heq⟩
    exact ⟨hc', hkey.symm⟩
  · rintro ⟨hc, hkey⟩
    obtain ⟨key', lv, hentry, rfl, heq⟩ := hmem.2 ⟨c, hc, hkey.symm, rfl⟩
    exact ⟨lv, ha.mem_entries_iff.1 hentry, heq⟩

theorem Lists.nodup : (cs.map Constraint.id).Nodup := by
  have hkeys := (List.Perm.map Prod.fst h).nodup_iff.1 (by
    rw [List.map_map]
    exact ha.nodup_keys)
  rw [List.map_map] at hkeys
  have hcomp : Prod.fst ∘ (fun c : Constraint α => (Handle.given c.id, c))
      = Handle.given ∘ Constraint.id := rfl
  rw [hcomp, ← List.map_map] at hkeys
  exact List.Nodup.of_map _ hkeys

end Lists

/-- The live constraints are those of a list, and their names ascend, so that each is there once. -/
structure Holding (s : Solver α) (cs : List (Constraint α)) : Prop where
  ascending : s.live.Ascending
  lists : s.Lists cs

section Holding

variable (h : s.Holding cs)
include h

theorem Holding.congr (hlive : t.live = s.live) : t.Holding cs :=
  ⟨hlive ▸ h.ascending, h.lists.congr hlive⟩

theorem Holding.perm (hperm : cs.Perm cs') : s.Holding cs' := ⟨h.ascending, h.lists.perm hperm⟩

theorem Holding.insert {tag : Tag} (hnone : s.live.get? (.given c.id) = none)
    (hlive : t.live = s.live.insert (.given c.id) ⟨c, tag⟩) : t.Holding (cs ++ [c]) :=
  ⟨hlive ▸ h.ascending.insert _ _, h.lists.insert hnone hlive⟩

end Holding

theorem Holding.exists_of_head (h : s.Holding (c :: cs)) :
    ∃ lv, s.live.get? (.given c.id) = some lv ∧ lv.constraint = c :=
  (h.lists.mem_iff h.ascending).2 ⟨List.mem_cons_self .., rfl⟩

theorem Holding.erase (h : s.Holding (c :: cs)) (hlive : t.live = s.live.erase (.given c.id)) :
    t.Holding cs := by
  obtain ⟨lv, hlv, hc⟩ := h.exists_of_head
  refine ⟨hlive ▸ h.ascending.erase _, ?_⟩
  have herase := (h.ascending.erase_perm hlv).map
    fun entry : Handle × Live α => (entry.1, entry.2.constraint)
  have hperm := herase.symm.trans h.lists
  rw [List.map_cons, List.map_cons, hc, ← hlive] at hperm
  exact hperm.cons_inv

/-- The constraints and the edit variables stay. -/
structure Keeps (s t : Solver α) : Prop where
  live : t.live = s.live
  edits : t.edits = s.edits

theorem Keeps.refl (s : Solver α) : s.Keeps s := ⟨rfl, rfl⟩

theorem Keeps.trans (h : s.Keeps t) (h' : t.Keeps u) : s.Keeps u :=
  ⟨h'.live.trans h.live, h'.edits.trans h.edits⟩

/-- The constraints and the edit variables stay, and nothing fails but by a breakdown. -/
structure Computes {β : Type} (s : Solver α) (r : Except SolverError β) (t : Solver α) : Prop
    extends s.Keeps t where
  internal : ∀ e, r = .error e → e.isInternal = true

theorem Computes.of_keeps {β : Type} {r : Except SolverError β} (h : s.Keeps t)
    (h' : t.Computes r u) : s.Computes r u :=
  ⟨h.trans h'.toKeeps, h'.internal⟩

theorem computes_ok {β : Type} (b : β) (h : s.Keeps t) : s.Computes (.ok b) t := ⟨h, nofun⟩

theorem computes_error {β : Type} {e : SolverError} (he : e.isInternal = true) (h : s.Keeps t) :
    s.Computes (.error e : Except SolverError β) t :=
  ⟨h, fun _ heq => by cases heq; exact he⟩

variable [Scalar α]

/-! ### Operations on the rows -/

theorem leads_minimiseFor (goal : Goal) (n : Nat) (s : Solver α) :
    Leads (minimiseFor goal n).run s s.Computes := by
  induction n generalizing s with
  | zero => exact leads_run_throw.2 (computes_error rfl (.refl s))
  | succ n ih =>
    unfold minimiseFor
    refine leads_run_get_bind.2 ?_
    split
    · exact leads_run_pure.2 (computes_ok _ (.refl s))
    · next entering _ =>
      split
      · exact leads_run_throw.2 (computes_error rfl (.refl s))
      · next leaving _ =>
        split
        · exact leads_run_throw.2 (computes_error rfl (.refl s))
        · next row _ =>
          refine leads_run_set_bind.2 ?_
          exact (ih (s.pivot leaving entering row)).mono fun _ _ => .of_keeps ⟨rfl, rfl⟩

theorem leads_minimise (goal : Goal) (s : Solver α) : Leads (minimise goal).run s s.Computes :=
  leads_run_get_bind.2 (leads_minimiseFor goal _ s)

theorem leads_mendFor (n : Nat) (s : Solver α) : Leads (mendFor n).run s s.Computes := by
  induction n generalizing s with
  | zero => exact leads_run_throw.2 (computes_error rfl (.refl s))
  | succ n ih =>
    unfold mendFor
    refine leads_run_get_bind.2 ?_
    split
    · exact leads_run_pure.2 (computes_ok _ (.refl s))
    · next leaving rest _ =>
      refine leads_run_set_bind.2 ?_
      have hrest : Leads (mendFor n).run { s with infeasible := rest } s.Computes :=
        (ih _).mono fun _ _ => .of_keeps ⟨rfl, rfl⟩
      split
      · exact hrest
      · next row _ =>
        split
        · split
          · exact leads_run_throw.2 (computes_error rfl ⟨rfl, rfl⟩)
          · next entering _ =>
            refine leads_run_set_bind.2 ?_
            exact (ih _).mono fun _ _ => .of_keeps ⟨rfl, rfl⟩
        · exact hrest

theorem leads_mend (s : Solver α) : Leads mend.run s s.Computes :=
  leads_run_get_bind.2 (leads_mendFor _ s)

theorem leads_followUp (s : Solver α) : Leads followUp.run s s.Computes := by
  refine leads_run_get_bind.2 ?_
  split
  · exact leads_minimise .main s
  · exact leads_run_modify.2 (computes_ok _ ⟨rfl, rfl⟩)

theorem leads_solve (s : Solver α) : Leads solve.run s s.Computes := by
  refine leads_run_get_bind.2 ?_
  split
  · exact (leads_minimise .main s).run_bind
      (fun _ _ h => leads_run_modify.2 (computes_ok _ ⟨h.live, h.edits⟩))
      fun e t h => computes_error (h.internal e rfl) h.toKeeps
  · exact leads_run_pure.2 (computes_ok _ (.refl s))

theorem leads_setAutoSolve (enabled : Bool) (s : Solver α) :
    Leads (setAutoSolve enabled).run s s.Computes := by
  refine leads_run_modify_bind.2 ?_
  split
  · exact (leads_solve _).mono fun _ _ => .of_keeps ⟨rfl, rfl⟩
  · exact leads_run_pure.2 (computes_ok _ ⟨rfl, rfl⟩)

/-! ### Symbols of a constraint -/

theorem keeps_addTerms (s : Solver α) (row : Row α) (ts : List (LinearTerm α)) :
    s.Keeps (s.addTerms row ts).2 := by
  induction ts generalizing s row with
  | nil => exact .refl s
  | cons term rest ih =>
    unfold addTerms
    split
    · exact ih s row
    · have hsymbol : s.Keeps (s.symbolOf term.unknown).2 := by
        unfold symbolOf
        split
        · exact .refl s
        · exact ⟨rfl, rfl⟩
      exact hsymbol.trans (ih _ _)

theorem keeps_bring (s : Solver α) (c : Constraint α) (row : Row α) :
    s.Keeps (s.bring c row).2.2 := by
  unfold bring
  split
  · split <;> exact ⟨rfl, rfl⟩
  · dsimp only
    split <;> exact ⟨rfl, rfl⟩

theorem keeps_rowOf (s : Solver α) (c : Constraint α) : s.Keeps (s.rowOf c).2.2 :=
  (keeps_addTerms s _ _).trans (keeps_bring _ c _)

theorem leads_addArtificial (row : Row α) (s : Solver α) :
    Leads (addArtificial row).run s s.Computes := by
  have hdrop (art : Symbol) (b : Bool) {u : Solver α} (h : s.Keeps u) :
      Leads (addArtificial.dropSymbol art >>= fun _ => pure b).run u s.Computes :=
    leads_run_modify_bind.2 (leads_run_pure.2 (computes_ok b ⟨h.live, h.edits⟩))
  unfold addArtificial
  refine leads_run_get_bind.2 (leads_run_set_bind.2 ?_)
  refine (leads_minimise .artificial _).run_bind (fun _ u h => ?_) fun e _ h =>
    computes_error (h.internal e rfl) ⟨h.live, h.edits⟩
  have hu : s.Keeps u := ⟨h.live, h.edits⟩
  refine leads_run_get_bind.2 (leads_run_set_bind.2 ?_)
  split
  · exact hdrop _ _ ⟨hu.live, hu.edits⟩
  · split
    · exact leads_run_pure.2 (computes_ok _ ⟨hu.live, hu.edits⟩)
    · split
      · exact leads_run_pure.2 (computes_ok _ ⟨hu.live, hu.edits⟩)
      · exact leads_run_modify_bind.2 (hdrop _ _ ⟨hu.live, hu.edits⟩)

/-! ### Adding and removing -/

/-- A constraint comes in under a name that was free, or all constraints stay. -/
structure Admits (s : Solver α) (key : Handle) (c : Constraint α) (r : Except SolverError Unit)
    (t : Solver α) : Prop where
  edits : t.edits = s.edits
  live : t.live = s.live ∨ ∃ tag, t.live = s.live.insert key ⟨c, tag⟩
  ok : r = .ok () → s.live.get? key = none ∧ ∃ tag, t.live = s.live.insert key ⟨c, tag⟩
  error : ∀ e, r = .error e → e.isInternal = false → t.live = s.live

omit [Scalar α] in
theorem admits_error (key : Handle) (c : Constraint α) (e : SolverError) (h : s.Keeps t) :
    s.Admits key c (.error e) t := ⟨h.edits, .inl h.live, nofun, fun _ _ _ => h.live⟩

/-- Once its row is in the tableau a constraint is listed. -/
theorem leads_enlist {tag : Tag} (hfree : s.live.get? key = none) (h : s.Keeps u) :
    Leads (modify (fun s => { s with live := s.live.insert key ⟨c, tag⟩ }) >>= fun _ =>
      followUp : Solving α Unit).run u (s.Admits key c) := by
  refine leads_run_modify_bind.2 ((leads_followUp _).mono fun r t ht => ?_)
  have hlive : t.live = s.live.insert key ⟨c, tag⟩ :=
    ht.live.trans (congrArg (Table.insert · key ⟨c, tag⟩) h.live)
  refine ⟨ht.edits.trans h.edits, .inr ⟨tag, hlive⟩, fun _ => ⟨hfree, tag, hlive⟩,
    fun e he hordinary => ?_⟩
  exact absurd (ht.internal e he) (by rw [hordinary]; exact Bool.false_ne_true)

theorem leads_addAs (key : Handle) (c : Constraint α) (s : Solver α) :
    Leads (addAs key c).run s (s.Admits key c) := by
  unfold addAs
  refine leads_run_get_bind.2 ?_
  split
  · exact leads_run_throw_bind.2 (admits_error key c _ (.refl s))
  · next hlive =>
    have hfree := Table.not_contains_iff.1 hlive
    have hkeeps := keeps_rowOf s c
    refine leads_run_get_bind.2 ?_
    rcases hrow : s.rowOf c with ⟨row, tag, v⟩
    rw [hrow] at hkeeps
    have hv : s.Keeps v := hkeeps
    refine leads_run_set_bind.2 ?_
    dsimp only
    split
    · exact leads_run_set_bind.2
        (leads_run_throw_bind.2 (admits_error key c _ ⟨hv.live, hv.edits⟩))
    · split
      · exact leads_run_set_bind.2 (leads_enlist hfree ⟨hv.live, hv.edits⟩)
      · refine (leads_addArtificial row v).run_bind (fun success u h => ?_) fun e _ h =>
          admits_error key c e (hv.trans h.toKeeps)
        have hu := hv.trans h.toKeeps
        split
        · exact leads_run_modify_bind.2
            (leads_run_throw_bind.2 (admits_error key c _ ⟨hu.live, hu.edits⟩))
        · exact leads_enlist hfree hu

/-- A constraint leaves, also where the rows break down, unless its name is unknown. -/
structure Dismisses (s : Solver α) (key : Handle) (r : Except SolverError Unit) (t : Solver α) :
    Prop where
  edits : t.edits = s.edits
  known : s.live.get? key ≠ none →
    t.live = s.live.erase key ∧ ∀ e, r = .error e → e.isInternal = true
  unknown : s.live.get? key = none → t.live = s.live ∧ r = .error .unknownConstraint

omit [Scalar α] in
theorem Dismisses.of_computes {lv : Live α} {r : Except SolverError Unit}
    (hlv : s.live.get? key = some lv) (hedits : u.edits = s.edits)
    (hlive : u.live = s.live.erase key) (h : u.Computes r t) : s.Dismisses key r t :=
  ⟨h.edits.trans hedits, fun _ => ⟨h.live.trans hlive, h.internal⟩,
    fun hnone => nomatch hlv.symm.trans hnone⟩

theorem keeps_discharge (s : Solver α) (c : Constraint α) (tag : Tag) :
    s.Keeps (s.discharge c tag) := by
  unfold discharge
  refine List.foldlRecOn tag.symbols _ (Keeps.refl s) fun u hu marker _ => ?_
  split
  · exact hu
  · exact ⟨hu.live, hu.edits⟩

theorem leads_removeAs (key : Handle) (s : Solver α) :
    Leads (removeAs key).run s (s.Dismisses key) := by
  unfold removeAs
  refine leads_run_get_bind.2 ?_
  split
  · next hnone =>
    exact leads_run_throw.2 ⟨rfl, fun h => absurd hnone h, fun _ => ⟨rfl, rfl⟩⟩
  · next c tag hlv =>
    have hdischarge := keeps_discharge { s with live := s.live.erase key } c tag
    have hfollow {u : Solver α} (h : Keeps { s with live := s.live.erase key } u) :
        Leads followUp.run u (s.Dismisses key) :=
      (leads_followUp u).mono fun _ _ ht => .of_computes hlv h.edits h.live ht
    have hthrow : s.Dismisses key (.error .noLeavingRow)
        ({ s with live := s.live.erase key }.discharge c tag) :=
      .of_computes hlv hdischarge.edits hdischarge.live (computes_error rfl (.refl _))
    refine leads_run_set_bind.2 ?_
    split
    · exact leads_run_set_bind.2 (hfollow ⟨hdischarge.live, hdischarge.edits⟩)
    · split
      · exact leads_run_throw_bind.2 hthrow
      · split
        · exact leads_run_throw_bind.2 hthrow
        · exact leads_run_set_bind.2 (hfollow ⟨hdischarge.live, hdischarge.edits⟩)

end Solver

end ReactiveView
