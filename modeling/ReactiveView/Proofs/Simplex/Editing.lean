import ReactiveView.Proofs.Simplex.Listing

/-!
This module contains what remains of edit variables once they are withdrawn: nothing. Each one brings
a constraint under a name of its own, and takes that along when it goes, even where the rows break
down.
-/

namespace ReactiveView

namespace Solver

variable {α : Type} {s t u : Solver α} {x : Variable} {xs : List Variable}

/-- An edit variable has been added: without it and its constraint there is what was there before. -/
def Edits (s : Solver α) (x : Variable) (t : Solver α) : Prop :=
  ∃ edit, t.edits.get? x = some edit ∧ t.edits.erase x = s.edits ∧
    t.live.get? edit.handle ≠ none ∧ t.live.erase edit.handle = s.live

/-- Edit variables have been added one after the other, the latest first. -/
inductive EditsAll (s : Solver α) : List Variable → Solver α → Prop
  | nil {t : Solver α} (h : s.Keeps t) : EditsAll s [] t
  | cons {x : Variable} {xs : List Variable} {t u : Solver α} (hrest : EditsAll s xs t)
      (h : t.Edits x u) : EditsAll s (x :: xs) u

theorem Edits.congr (h : s.Edits x t) (hkeeps : t.Keeps u) : s.Edits x u := by
  unfold Edits at h ⊢
  rwa [hkeeps.edits, hkeeps.live]

theorem EditsAll.congr (h : s.EditsAll xs t) (hkeeps : t.Keeps u) : s.EditsAll xs u := by
  cases h with
  | nil hnone => exact .nil (hnone.trans hkeeps)
  | cons hrest h => exact .cons hrest (h.congr hkeeps)

variable [Scalar α]

/-! ### Making variables editable -/

theorem leads_addEdit (x : Variable) (strength : Strength α) (s : Solver α) :
    Leads (addEdit x strength).run s fun r t =>
      (r = .ok () → s.Edits x t) ∧ ∀ e, r = .error e → e.isInternal = false → s.Keeps t := by
  unfold addEdit
  refine leads_run_get_bind.2 ?_
  split
  · exact leads_run_throw_bind.2 ⟨by rintro ⟨⟩, fun _ _ _ => .refl s⟩
  · next hedits =>
    have hnone := Table.not_contains_iff.1 hedits
    dsimp only
    split
    · exact leads_run_throw_bind.2 ⟨by rintro ⟨⟩, fun _ _ _ => .refl s⟩
    · refine leads_run_get_bind.2 ((leads_addAs _ _ s).run_bind (fun _ t h => ?_) fun e t h =>
        ⟨by rintro ⟨⟩, fun e' he hordinary => ⟨h.error e' he hordinary, h.edits⟩⟩)
      obtain ⟨hfree, tag, hlive⟩ := h.ok rfl
      have hhas : t.live.get? (.edit s.nextId) ≠ none := by
        rw [hlive, Table.get?_insert_self]
        exact Option.some_ne_none _
      refine leads_run_get_bind.2 ?_
      split
      · next hmissing => exact absurd hmissing hhas
      · refine leads_run_modify.2 ⟨fun _ => ⟨_, Table.get?_insert_self .., ?_, hhas, ?_⟩, by rintro _ ⟨⟩⟩
        · rw [h.edits]
          exact Table.erase_insert _ hnone
        · change t.live.erase _ = _
          rw [hlive]
          exact Table.erase_insert _ hfree

omit [Scalar α] in
theorem Edits.retarget {edit : Edit α} (h : s.Edits x t) (hedit : t.edits.get? x = some edit)
    (v : α) : s.Edits x { t with edits := t.edits.insert x { edit with target := v } } := by
  obtain ⟨edit', hedit', hrest, hlive⟩ := h
  cases hedit.symm.trans hedit'
  refine ⟨_, Table.get?_insert_self .., ?_, hlive⟩
  rw [Table.erase_insert_self, hrest]

theorem keeps_shift (s : Solver α) (tag : Tag) (delta : α) : s.Keeps (s.shift tag delta) := by
  unfold shift
  split
  · exact ⟨rfl, rfl⟩
  · split
    · exact ⟨rfl, rfl⟩
    · unfold shiftAll
      refine List.foldlRecOn s.rows.entries _ (Keeps.refl s) fun u hu entry _ => ?_
      dsimp only
      split
      · exact hu
      · exact ⟨hu.live, hu.edits⟩

theorem leads_suggest (h : s.Edits x t) (v : α) :
    Leads (suggest x v).run t fun r u =>
      s.Edits x u ∧ ∀ e, r = .error e → e.isInternal = true := by
  refine (leads_solve t).run_bind (fun _ u hu => ?_) fun e u hu => ⟨h.congr hu.toKeeps, ?_⟩
  · have hedits := h.congr hu.toKeeps
    refine leads_run_get_bind.2 ?_
    split
    · next hnone =>
      obtain ⟨edit, hedit, -⟩ := hedits
      cases hnone.symm.trans hedit
    · next edit hedit =>
      refine leads_run_set_bind.2 ((leads_mend _).mono fun r u' hu' => ⟨?_, hu'.internal⟩)
      exact (hedits.retarget hedit v).congr ((keeps_shift _ _ _).trans hu'.toKeeps)
  · intro e' he
    cases he
    exact hu.internal e rfl

/-! ### Withdrawing -/

/-- With an edit variable goes what it brought. -/
theorem leads_removeEdit (h : s.Edits x t) : Leads (removeEdit x).run t s.Computes := by
  obtain ⟨edit, hedit, hrest, hhas, hlive⟩ := h
  unfold removeEdit
  refine leads_run_get_bind.2 ?_
  rw [hedit]
  refine leads_run_modify_bind.2 ((leads_removeAs edit.handle _).mono fun r u hu => ?_)
  obtain ⟨herase, hinternal⟩ := hu.known hhas
  exact ⟨⟨herase.trans hlive, hu.edits.trans hrest⟩, hinternal⟩

/-- Of several edit variables those are left that were to go after one that broke down. -/
theorem leads_removeEdits (h : s.EditsAll xs t) :
    Leads (xs.forM removeEdit).run t fun r u =>
      (∀ e, r = .error e → e.isInternal = true) ∧
        (r = .ok () ∨ xs.length ≤ 1 → u.live = s.live) := by
  induction xs generalizing t with
  | nil =>
    cases h with
    | nil hkeeps => exact leads_run_pure.2 ⟨nofun, fun _ => hkeeps.live⟩
  | cons x rest ih =>
    cases h with
    | cons hrest hedits =>
      refine (leads_removeEdit hedits).run_bind (fun _ u hu => ?_) fun e u hu => ⟨?_, ?_⟩
      · exact (ih (hrest.congr hu.toKeeps)).mono fun r u' hu' =>
          ⟨hu'.1, fun h => hu'.2 (h.imp_right Nat.le_of_succ_le)⟩
      · intro e' he
        cases he
        exact hu.internal e rfl
      · rintro (hok | hlength)
        · cases hok
        · cases rest with
          | nil =>
            cases hrest with
            | nil hkeeps => exact hu.live.trans hkeeps.live
          | cons => simp at hlength

end Solver

end ReactiveView
