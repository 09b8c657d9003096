import Mathlib
import ReactiveView.Proofs.Simplex.Consistent

/-!
This module contains the operations that users call, each with what it keeps. Those that answer an
internal error have broken down; the others keep the system consistent.
-/

namespace ReactiveView

namespace Solver

variable {s t u : Solver ℚ} {key : Handle} {x : Variable} {edit : Edit ℚ} {c : Constraint ℚ}
variable {r : Except SolverError Unit} {v : ℚ} {strength : Strength ℚ} {enabled : Bool}

/-! ### Constraints -/

theorem Consistent.adds (hs : s.Consistent) (h : Adds s key c r t) (hr : Ordinary r)
    (hkey : ∀ n, key = .edit n → n = s.nextId) : t.Consistent := by
  have hvalid := h.valid hr hs.valid fun hnone => hs.edited.targetOf_of_not_live hnone
  obtain ⟨hedits, -, hid, hlists⟩ := h.lists hr
  refine ⟨targetOf_congr hedits ▸ hvalid, ?_⟩
  cases r with
  | ok =>
    obtain ⟨hnone, hlt, tag, -, hlive⟩ := hlists
    apply hs.edited.congr hedits hid
    · intro x edit hedit
      obtain ⟨lv, hlv, -⟩ := hs.edited.live x edit hedit
      rw [hlive, Table.get?_insert, if_neg]
      rintro rfl
      rw [hnone] at hlv
      cases hlv
    · intro n lv hlv
      rw [hlive] at hlv
      rcases Table.of_get?_insert hlv with ⟨hn, -⟩ | hlv
      · rw [hkey n hn.symm]
        exact .inl hlt
      · exact .inr hlv
  | error e =>
    obtain ⟨hlive, -⟩ := hlists
    exact hs.edited.congr_live hedits hid hlive

theorem Consistent.performs_addAs (hs : s.Consistent) (h : s.perform (addAs key c) = (r, t)) :
    Adds s key c r t :=
  perform_addAs hs.valid.sound.models.solved hs.valid.sound.models.idle
    hs.valid.sound.models.registered h

theorem Consistent.add (hs : s.Consistent) (h : s.perform (add c) = (r, t)) (hr : Ordinary r) :
    t.Consistent := by
  apply hs.adds (hs.performs_addAs h) hr
  intro n hn
  cases hn

theorem Consistent.pinned_add (hs : s.Consistent) (h : s.perform (Solver.add c) = (r, t))
    (hr : Ordinary r) (hp : s.Pinned) : t.Pinned :=
  (hs.performs_addAs h).pinned hr hp

theorem Consistent.remove (hs : s.Consistent) (h : s.perform (remove c) = (r, t))
    (hr : Ordinary r) : t.Consistent := by
  have hremoves := perform_removeAs hs.valid.sound.models h
  obtain ⟨hedits, -, hid, hlists⟩ := hremoves.lists
  have hsound : t.Sound s.targetOf :=
    hremoves.sound hs.valid.sound (fun _ _ => rfl) fun _ => rfl
  refine ⟨⟨targetOf_congr hedits ▸ hsound, ?_⟩, ?_⟩
  · exact hremoves.settled hs.valid.sound hs.valid.settled hr
  · rcases hlists with ⟨-, -, rfl⟩ | ⟨-, hlive, -⟩
    · exact hs.edited
    · apply hs.edited.congr_erase hedits hid.ge hlive
      intro x edit hedit
      obtain ⟨n, hn⟩ := hs.edited.serial x edit hedit
      rw [hn]
      simp

theorem Consistent.pinned_remove (hs : s.Consistent) (h : s.perform (Solver.remove c) = (r, t))
    (hp : s.Pinned)
    (hkeeps : ∀ lv, s.live.get? (.given c.id) = some lv → s.KeepsPins lv.tag.marker) : t.Pinned :=
  (perform_removeAs hs.valid.sound.models h).pinned hs.valid.sound hp hkeeps

/-! ### Minimisation -/

theorem Consistent.solves (hs : s.Consistent) (h : Solves s (.ok ()) t) :
    t.Consistent ∧ t.dirty = false ∧ t.Optimal := by
  have hnames := h.sameNames
  obtain ⟨hclean, hopt⟩ := h.optimal hs.valid rfl
  refine ⟨⟨⟨?_, fun _ => hopt⟩, ?_⟩, hclean, hopt⟩
  · rw [targetOf_congr hnames.edits]
    exact h.sound hs.valid.sound
  · exact hs.edited.congr_live hnames.edits hnames.nextId.ge hnames.live

theorem Consistent.solve (hs : s.Consistent) (h : s.perform solve = (r, t)) (hr : Ordinary r) :
    t.Consistent := by
  have hsolves := perform_solve hs.valid.sound.models.solved.ascending h
  obtain rfl := hr.eq_ok fun _ => hsolves.isInternal
  exact (hs.solves hsolves).1

theorem Consistent.pinned_solve (hs : s.Consistent) (h : s.perform Solver.solve = (r, t))
    (hp : s.Pinned) : t.Pinned :=
  (perform_solve hs.valid.sound.models.solved.ascending h).pinned hs.valid.sound.models.solved hp

theorem Consistent.congr_autoSolve (hs : s.Consistent) :
    Consistent { s with autoSolve := enabled } where
  valid := ⟨hs.valid.sound.congr rfl rfl rfl rfl rfl le_rfl rfl, hs.valid.settled⟩
  edited := hs.edited.congr_live rfl le_rfl rfl

theorem perform_setAutoSolve_eq (s : Solver ℚ) (enabled : Bool) :
    s.perform (setAutoSolve enabled)
      = if enabled then Solver.perform { s with autoSolve := enabled } solve
        else (.ok (), { s with autoSolve := enabled }) := by
  unfold setAutoSolve
  rw [perform_bind]
  simp only [perform_modify]
  split <;> rfl

theorem Consistent.setAutoSolve (hs : s.Consistent)
    (h : s.perform (setAutoSolve enabled) = (r, t)) (hr : Ordinary r) : t.Consistent := by
  rw [perform_setAutoSolve_eq] at h
  split at h
  · exact hs.congr_autoSolve.solve h hr
  · cases h
    exact hs.congr_autoSolve

theorem Consistent.pinned_setAutoSolve (hs : s.Consistent)
    (h : s.perform (Solver.setAutoSolve enabled) = (r, t)) (hp : s.Pinned) : t.Pinned := by
  rw [perform_setAutoSolve_eq] at h
  split at h
  · exact hs.congr_autoSolve.pinned_solve h (hp.congr rfl)
  · cases h
    exact hp.congr rfl

/-! ### Edit variables -/

/-- The constraint that a new edit variable gets. -/
def editConstraint (s : Solver ℚ) (x : Variable) (strength : Strength ℚ) : Constraint ℚ :=
  Constraint.make s.nextId (LinearExpr.ofVariable x) .equal strength.clipped

/-- How it ends to make a variable editable. -/
inductive AddsEdit (s : Solver ℚ) (x : Variable) (strength : Strength ℚ) :
    Except SolverError Unit → Solver ℚ → Prop
  | duplicate (hedit : s.edits.get? x ≠ none) :
      AddsEdit s x strength (.error .duplicateEdit) s
  | required (hnone : s.edits.get? x = none) (hrequired : strength.clipped.isRequired = true) :
      AddsEdit s x strength (.error .requiredEdit) s
  | refused {e : SolverError} {t : Solver ℚ} (hnone : s.edits.get? x = none)
      (hsoft : strength.clipped.isRequired = false)
      (hadds : Adds s (.edit s.nextId) (s.editConstraint x strength) (.error e) t) :
      AddsEdit s x strength (.error e) t
  | added {u : Solver ℚ} {tag : Tag} (hnone : s.edits.get? x = none)
      (hsoft : strength.clipped.isRequired = false)
      (hadds : Adds s (.edit s.nextId) (s.editConstraint x strength) (.ok ()) u)
      (hlv : u.live.get? (.edit s.nextId) = some ⟨s.editConstraint x strength, tag⟩) :
      AddsEdit s x strength (.ok ())
        { u with edits := u.edits.insert x { handle := .edit s.nextId, tag, target := 0 } }

theorem perform_addEdit_eq (s : Solver ℚ) (x : Variable) (strength : Strength ℚ) :
    s.perform (addEdit x strength) =
      if s.edits.contains x then (.error .duplicateEdit, s)
      else if strength.clipped.isRequired then (.error .requiredEdit, s)
      else
        match s.perform (addAs (.edit s.nextId) (s.editConstraint x strength)) with
        | (.error e, t) => (.error e, t)
        | (.ok (), t) =>
          match t.live.get? (.edit s.nextId) with
          | none => (.error .editMissing, t)
          | some lv =>
            (.ok (), { t with
              edits := t.edits.insert x { handle := .edit s.nextId, tag := lv.tag, target := 0 } }) := by
  unfold addEdit
  rw [perform_bind]
  simp only [perform_get]
  split
  · rw [perform_bind]
    simp only [perform_throw]
  · split
    · rw [perform_bind]
      simp only [perform_throw]
    · rw [perform_bind]
      simp only [perform_get]
      rw [perform_bind]
      have hconstraint : Constraint.make s.nextId (LinearExpr.ofVariable x) .equal strength.clipped
          = s.editConstraint x strength := rfl
      rw [hconstraint]
      rcases s.perform (addAs (.edit s.nextId) (s.editConstraint x strength)) with ⟨_ | _, t⟩
      · rfl
      · dsimp only
        rw [perform_bind]
        simp only [perform_get]
        cases t.live.get? (.edit s.nextId) <;> rfl

theorem editConstraint_not_isRequired (hsoft : strength.clipped.isRequired = false) :
    ¬(s.editConstraint x strength).IsRequired := by
  unfold editConstraint Constraint.make Constraint.IsRequired
  simp only [Strength.clipped_clipped, hsoft, Bool.false_eq_true, not_false_eq_true]

theorem Consistent.performs_addEdit (hs : s.Consistent)
    (h : s.perform (addEdit x strength) = (r, t)) : AddsEdit s x strength r t := by
  rw [perform_addEdit_eq] at h
  split at h
  · next hcontains =>
    cases h
    obtain ⟨edit, hedit⟩ := Table.contains_iff.1 hcontains
    exact .duplicate (by rw [hedit]; simp)
  · next hcontains =>
    have hnone : s.edits.get? x = none := by
      by_contra hsome
      exact hcontains (Table.contains_iff.2 (Option.ne_none_iff_exists'.1 hsome))
    split at h
    · next hrequired =>
      cases h
      exact .required hnone hrequired
    · next hrequired =>
      have hsoft : strength.clipped.isRequired = false := by simpa using hrequired
      rcases hadd : s.perform (addAs (.edit s.nextId) (s.editConstraint x strength)) with ⟨_ | _, u⟩
      · rw [hadd] at h
        cases h
        exact .refused hnone hsoft (hs.performs_addAs hadd)
      · have hadds := hs.performs_addAs hadd
        obtain ⟨-, -, tag, -, hlive⟩ := (hadds.lists ordinary_ok).2.2.2
        have hlv : u.live.get? (.edit s.nextId) = some ⟨s.editConstraint x strength, tag⟩ := by
          rw [hlive]
          exact Table.get?_insert_self _ _ _
        rw [hadd] at h
        dsimp only at h
        rw [hlv] at h
        cases h
        exact .added hnone hsoft hadds hlv

theorem Edited.handle_ne (h : s.Edited) : ∀ x edit, s.edits.get? x = some edit →
    edit.handle ≠ .edit s.nextId := by
  intro x edit hedit heq
  obtain ⟨lv, hlv, -⟩ := h.live x edit hedit
  rw [heq] at hlv
  exact absurd (h.known _ lv hlv) (lt_irrefl _)

theorem Consistent.addsEdit (hs : s.Consistent) (h : AddsEdit s x strength r t)
    (hr : Ordinary r) : t.Consistent := by
  have hkey : ∀ n, Handle.edit s.nextId = .edit n → n = s.nextId := by
    intro n hn
    cases hn
    rfl
  cases h with
  | duplicate => exact hs
  | required => exact hs
  | refused _ _ hadds => exact hs.adds hadds hr hkey
  | @added u tag hnone hsoft hadds hlv =>
    have hu := hs.adds hadds hr hkey
    obtain ⟨hedits, -, -, -⟩ := hadds.lists hr
    have hfresh : ∀ x edit, u.edits.get? x = some edit → edit.handle ≠ .edit s.nextId := by
      rw [hedits]
      exact hs.edited.handle_ne
    have hnew := hu.edited.insert hlv rfl (editConstraint_not_isRequired hsoft) hfresh (x := x)
    refine ⟨⟨?_, hu.valid.settled⟩, hnew⟩
    rw [hu.edited.targetOf_insert hnew rfl hfresh (by rw [hedits]; exact hnone)]
    exact hu.valid.sound.congr_edits

theorem AddsEdit.pinned (h : AddsEdit s x strength r t) (hr : Ordinary r) (hp : s.Pinned) :
    t.Pinned := by
  cases h with
  | duplicate => exact hp
  | required => exact hp
  | refused _ _ hadds => exact hadds.pinned hr hp
  | added _ _ hadds => exact (hadds.pinned hr hp).congr rfl

theorem perform_removeEdit_eq (s : Solver ℚ) (x : Variable) :
    s.perform (removeEdit x) =
      match s.edits.get? x with
      | none => (.error .unknownEdit, s)
      | some edit => Solver.perform { s with edits := s.edits.erase x } (removeAs edit.handle) := by
  unfold removeEdit
  rw [perform_bind]
  simp only [perform_get]
  cases s.edits.get? x with
  | none => rfl
  | some edit =>
    dsimp only
    rw [perform_bind]
    simp only [perform_modify]

/-- How the editing of a variable ends. -/
theorem Consistent.removes_of_removeEdit (hs : s.Consistent)
    (hedit : s.edits.get? x = some edit) (h : s.perform (removeEdit x) = (r, t)) :
    Removes { s with edits := s.edits.erase x } edit.handle r t := by
  rw [perform_removeEdit_eq, hedit] at h
  exact perform_removeAs hs.valid.sound.congr_edits.models h

theorem Consistent.removeEdit (hs : s.Consistent) (h : s.perform (removeEdit x) = (r, t))
    (hr : Ordinary r) : t.Consistent := by
  cases hedit : s.edits.get? x with
  | none =>
    rw [perform_removeEdit_eq, hedit] at h
    cases h
    exact hs
  | some edit =>
    have hremoves := hs.removes_of_removeEdit hedit h
    obtain ⟨lv, hlv, -⟩ := hs.edited.live x edit hedit
    obtain ⟨hedits, -, hid, hlists⟩ := hremoves.lists
    have hlive : t.live = s.live.erase edit.handle := by
      rcases hlists with ⟨hnone, -⟩ | ⟨-, hlive, -⟩
      · exact absurd (hlv.symm.trans hnone) (by simp)
      · exact hlive
    have hedited : t.Edited := by
      apply (hs.edited.erase x).congr_erase hedits hid.ge hlive
      intro x' edit' hedit' heq
      obtain ⟨hne, hget⟩ := Table.of_get?_erase hedit'
      exact hne (hs.edited.distinct x' edit' x edit hget hedit heq)
    refine ⟨⟨?_, ?_⟩, hedited⟩
    · apply hremoves.sound hs.valid.sound.congr_edits
      · intro key hkey
        exact hs.edited.targetOf_erase hedit hedited hedits hkey
      · intro hnone
        exact absurd (hlv.symm.trans hnone) (by simp)
    · exact hremoves.settled hs.valid.sound.congr_edits hs.valid.settled hr

theorem Consistent.pinned_removeEdit (hs : s.Consistent)
    (h : s.perform (Solver.removeEdit x) = (r, t)) (hp : s.Pinned) : t.Pinned := by
  cases hedit : s.edits.get? x with
  | none =>
    rw [perform_removeEdit_eq, hedit] at h
    cases h
    exact hp
  | some edit =>
    have hremoves := hs.removes_of_removeEdit hedit h
    have hp' : Pinned { s with edits := s.edits.erase x } := hp.congr rfl
    refine hremoves.pinned hs.valid.sound.congr_edits hp' ?_
    intro lv hlv
    apply hp'.keepsPins
    obtain ⟨lv', hlv', -, hrel, hsoft⟩ := hs.edited.live x edit hedit
    have heq : some lv' = some lv := hlv'.symm.trans hlv
    cases heq
    have hkind := (hs.valid.sound.models.elastic hlv' hrel hsoft).1
    simp [Symbol.IsDummy, hkind]

/-! ### Suggestions -/

theorem Consistent.performs_suggest (hs : s.Consistent)
    (h : s.perform (suggest x v) = (r, t)) : Suggests s x v r t :=
  perform_suggest hs.valid.sound.models.solved.ascending h

/-- The shift that a suggestion makes. -/
theorem Consistent.retargets (hs : s.Consistent) (hedit : s.edits.get? x = some edit) (v : ℚ) :
    Retargets { s with edits := s.edits.insert x { edit with target := v } }
      (Solver.targetOf { s with edits := s.edits.insert x { edit with target := v } })
      (Solver.shift { s with edits := s.edits.insert x { edit with target := v } } edit.tag
        (v - edit.target)) := by
  obtain ⟨lv, hlv, htag, hrel, hsoft⟩ := hs.edited.live x edit hedit
  obtain ⟨hkey, hothers⟩ :=
    hs.edited.targetOf_retarget hedit v (hs.edited.retarget hedit v) rfl
  have hsound : Sound { s with edits := s.edits.insert x { edit with target := v } } s.targetOf :=
    hs.valid.sound.congr_edits
  have htarget : Solver.targetOf { s with edits := s.edits.insert x { edit with target := v } }
      edit.handle = s.targetOf edit.handle + (v - edit.target) := by
    rw [hkey, hs.edited.targetOf hedit]
    ring
  have hret := hsound.retargets hlv hrel hsoft htarget hothers
  rw [htag] at hret
  exact hret

theorem Consistent.suggest (hs : s.Consistent) (h : s.perform (suggest x v) = (r, t))
    (hr : Ordinary r) : t.Consistent := by
  cases hs.performs_suggest h with
  | unsolved hsolves => exact absurd (hsolves.isInternal rfl) hr.not_isInternal
  | unknown hsolves => exact (hs.solves hsolves).1
  | @mends u t edit r hsolves hedit hend =>
    obtain ⟨hu, hclean, hopt⟩ := hs.solves hsolves
    have hret := hu.retargets hedit v
    cases hend with
    | limit => cases hr _ rfl
    | stuck => cases hr _ rfl
    | mended hsteps hdone =>
      have hmending := Mending.mk hret.models.solved hret.closed hret.noted
      have hedits : t.edits = u.edits.insert x { edit with target := v } :=
        hsteps.sameFrame.edits.trans hret.frame.edits
      have hlive : t.live = u.live := hsteps.sameFrame.live.trans hret.frame.live
      have hid : t.nextId = u.nextId := hsteps.sameFrame.nextId.trans hret.frame.nextId
      refine ⟨⟨?_, ?_⟩, ?_⟩
      · rw [targetOf_congr (t := t) (s := { u with
          edits := u.edits.insert x { edit with target := v } }) hedits]
        exact hsteps.sound hret.models hret.closed hret.noted hdone
      · intro _
        apply hsteps.optimal hmending
        intro z hz
        rw [hret.objective]
        exact hopt z hz
      · exact (hu.edited.retarget hedit v).congr_live hedits hid.ge hlive

theorem Consistent.pinned_suggest (hs : s.Consistent)
    (h : s.perform (Solver.suggest x v) = (r, t)) (hr : Ordinary r) (hp : s.Pinned) :
    t.Pinned := by
  have hsolved := hs.valid.sound.models.solved
  cases hs.performs_suggest h with
  | unsolved hsolves => exact hsolves.pinned hsolved hp
  | unknown hsolves => exact hsolves.pinned hsolved hp
  | @mends u t edit r hsolves hedit hend =>
    have hret := (hs.solves hsolves).1.retargets hedit v
    have hp' := hret.pinned ((hsolves.pinned hsolved hp).congr rfl)
    cases hend with
    | limit => cases hr _ rfl
    | stuck => cases hr _ rfl
    | mended hsteps =>
      exact hsteps.pinned (Mending.mk hret.models.solved hret.closed hret.noted) hp'

end Solver

end ReactiveView
