import Mathlib
import ReactiveView.Proofs.Simplex.Suggesting

/-!
This module contains the invariant of a whole system, edit variables included: every operation that
does not break down keeps it.
-/

namespace ReactiveView

namespace Solver

/-- The edit variables have constraints of their own: equalities that may be violated, under serial
numbers that have been given out. -/
structure Edited (s : Solver ℚ) : Prop where
  ascending : s.edits.Ascending
  live : ∀ x edit, s.edits.get? x = some edit → ∃ lv, s.live.get? edit.handle = some lv ∧
    lv.tag = edit.tag ∧ lv.constraint.relation = .equal ∧ ¬lv.constraint.IsRequired
  serial : ∀ x edit, s.edits.get? x = some edit → ∃ n, edit.handle = .edit n
  distinct : ∀ x edit x' edit', s.edits.get? x = some edit → s.edits.get? x' = some edit' →
    edit.handle = edit'.handle → x = x'
  known : ∀ n lv, s.live.get? (.edit n) = some lv → n < s.nextId

/-- The tableau represents the constraints at the targets of the edit variables. -/
structure Consistent (s : Solver ℚ) : Prop where
  valid : s.Valid s.targetOf
  edited : s.Edited

variable {s t u : Solver ℚ} {target : Handle → ℚ} {key : Handle} {x : Variable} {edit : Edit ℚ}
variable {r : Except SolverError Unit} {v : ℚ}

/-! ### Targets -/

theorem targetOf_congr (hedits : t.edits = s.edits) : t.targetOf = s.targetOf := by
  unfold targetOf
  rw [hedits]

theorem targetOf_of_none (hnone : ∀ x edit, s.edits.get? x = some edit → edit.handle ≠ key)
    (ha : s.edits.Ascending) : s.targetOf key = 0 := by
  unfold targetOf
  have hfind : s.edits.values.find? (fun edit => decide (edit.handle = key)) = none := by
    rw [List.find?_eq_none]
    intro edit hmem
    obtain ⟨⟨x, edit⟩, hentry, rfl⟩ := List.mem_map.1 hmem
    simpa using hnone x edit (ha.mem_entries_iff.1 hentry)
  rw [hfind]
  rfl

theorem targetOf_of_get? (ha : s.edits.Ascending)
    (hdistinct : ∀ x' edit', s.edits.get? x' = some edit' → edit'.handle = edit.handle → x' = x)
    (hedit : s.edits.get? x = some edit) : s.targetOf edit.handle = edit.target := by
  unfold targetOf
  cases hfind : s.edits.values.find? fun edit' => decide (edit'.handle = edit.handle) with
  | none =>
    have hmem : edit ∈ s.edits.values :=
      List.mem_map.2 ⟨(x, edit), Table.mem_of_get? hedit, rfl⟩
    have := List.find?_eq_none.1 hfind edit hmem
    simp at this
  | some edit' =>
    obtain ⟨⟨x', edit'⟩, hentry, rfl⟩ := List.mem_map.1 (List.mem_of_find?_eq_some hfind)
    have hedit' := ha.mem_entries_iff.1 hentry
    have hx' := hdistinct x' edit' hedit' (by simpa using List.find?_some hfind)
    rw [hx', hedit] at hedit'
    cases hedit'
    rfl

theorem Edited.targetOf (h : s.Edited) (hedit : s.edits.get? x = some edit) :
    s.targetOf edit.handle = edit.target :=
  targetOf_of_get? h.ascending
    (fun x' edit' hedit' heq => h.distinct x' edit' x edit hedit' hedit heq) hedit

theorem Edited.targetOf_of_not_live (h : s.Edited) (hnone : s.live.get? key = none) :
    s.targetOf key = 0 := by
  apply targetOf_of_none _ h.ascending
  rintro x edit hedit rfl
  obtain ⟨lv, hlv, -⟩ := h.live x edit hedit
  rw [hnone] at hlv
  cases hlv

/-! ### Changes of the edit variables -/

theorem Edited.congr (h : s.Edited) (hedits : t.edits = s.edits) (hid : s.nextId ≤ t.nextId)
    (hlive : ∀ x edit, s.edits.get? x = some edit →
      t.live.get? edit.handle = s.live.get? edit.handle)
    (hknown : ∀ n lv, t.live.get? (.edit n) = some lv →
      n < t.nextId ∨ s.live.get? (.edit n) = some lv) : t.Edited := by
  refine ⟨hedits ▸ h.ascending, ?_, ?_, ?_, ?_⟩
  · intro x edit hedit
    rw [hedits] at hedit
    rw [hlive x edit hedit]
    exact h.live x edit hedit
  · rw [hedits]
    exact h.serial
  · rw [hedits]
    exact h.distinct
  · intro n lv hlv
    rcases hknown n lv hlv with hn | hold
    · exact hn
    · exact (h.known n lv hold).trans_le hid

theorem Edited.congr_live (h : s.Edited) (hedits : t.edits = s.edits) (hid : s.nextId ≤ t.nextId)
    (hlive : t.live = s.live) : t.Edited := by
  apply h.congr hedits hid
  · intro x edit _
    rw [hlive]
  · intro n lv hlv
    rw [hlive] at hlv
    exact .inr hlv

/-- A constraint that belongs to no edit variable may go. -/
theorem Edited.congr_erase (h : s.Edited) (hedits : t.edits = s.edits) (hid : s.nextId ≤ t.nextId)
    (hlive : t.live = s.live.erase key)
    (hkey : ∀ x edit, s.edits.get? x = some edit → edit.handle ≠ key) : t.Edited := by
  apply h.congr hedits hid
  · intro x edit hedit
    rw [hlive, Table.get?_erase, if_neg (hkey x edit hedit)]
  · intro n lv hlv
    rw [hlive] at hlv
    exact .inr (Table.of_get?_erase hlv).2

theorem Sound.congr_edits (h : s.Sound target) {edits : Table Variable (Edit ℚ)} :
    Sound { s with edits := edits } target :=
  h.congr rfl rfl rfl rfl rfl le_rfl rfl

/-- A new edit variable starts at zero, as its constraint has done. -/
theorem Edited.insert (h : s.Edited) {lv : Live ℚ} {n : Nat} (hlv : s.live.get? (.edit n) = some lv)
    (hrel : lv.constraint.relation = .equal) (hsoft : ¬lv.constraint.IsRequired)
    (hfresh : ∀ x edit, s.edits.get? x = some edit → edit.handle ≠ .edit n) :
    Edited { s with edits := s.edits.insert x { handle := .edit n, tag := lv.tag, target := 0 } } := by
  have hcases : ∀ x' edit',
      (s.edits.insert x { handle := .edit n, tag := lv.tag, target := 0 }).get? x' = some edit' →
        (x' = x ∧ edit' = { handle := .edit n, tag := lv.tag, target := 0 }) ∨
          s.edits.get? x' = some edit' := by
    intro x' edit'
    exact Table.of_get?_insert
  refine ⟨h.ascending.insert _ _, ?_, ?_, ?_, h.known⟩
  · intro x' edit' hedit'
    rcases hcases x' edit' hedit' with ⟨-, rfl⟩ | hold
    · exact ⟨lv, hlv, rfl, hrel, hsoft⟩
    · exact h.live x' edit' hold
  · intro x' edit' hedit'
    rcases hcases x' edit' hedit' with ⟨-, rfl⟩ | hold
    · exact ⟨n, rfl⟩
    · exact h.serial x' edit' hold
  · -- No old edit has the new name.
    intro x₁ e₁ x₂ e₂ h₁ h₂ heq
    rcases hcases x₁ e₁ h₁ with ⟨rfl, rfl⟩ | hold₁
    · rcases hcases x₂ e₂ h₂ with ⟨rfl, -⟩ | hold₂
      · rfl
      · exact absurd heq.symm (hfresh x₂ e₂ hold₂)
    · rcases hcases x₂ e₂ h₂ with ⟨rfl, rfl⟩ | hold₂
      · exact absurd heq (hfresh x₁ e₁ hold₁)
      · exact h.distinct x₁ e₁ x₂ e₂ hold₁ hold₂ heq

theorem Edited.erase (h : s.Edited) (x : Variable) :
    Edited { s with edits := s.edits.erase x } := by
  have hold : ∀ x' edit', (s.edits.erase x).get? x' = some edit' →
      s.edits.get? x' = some edit' := fun _ _ hedit' => (Table.of_get?_erase hedit').2
  exact ⟨h.ascending.erase x, fun x' e' h' => h.live x' e' (hold x' e' h'),
    fun x' e' h' => h.serial x' e' (hold x' e' h'),
    fun x₁ e₁ x₂ e₂ h₁ h₂ => h.distinct x₁ e₁ x₂ e₂ (hold x₁ e₁ h₁) (hold x₂ e₂ h₂), h.known⟩

theorem Edited.retarget (h : s.Edited) (hedit : s.edits.get? x = some edit) (v : ℚ) :
    Edited { s with edits := s.edits.insert x { edit with target := v } } := by
  have hcases : ∀ x' edit', (s.edits.insert x { edit with target := v }).get? x' = some edit' →
      ∃ edit₀, s.edits.get? x' = some edit₀ ∧ edit'.handle = edit₀.handle ∧
        edit'.tag = edit₀.tag := by
    intro x' edit' hedit'
    rcases Table.of_get?_insert hedit' with ⟨rfl, rfl⟩ | hedit'
    · exact ⟨edit, hedit, rfl, rfl⟩
    · exact ⟨edit', hedit', rfl, rfl⟩
  refine ⟨h.ascending.insert _ _, ?_, ?_, ?_, h.known⟩
  · intro x' edit' hedit'
    obtain ⟨edit₀, h₀, hhandle, htag⟩ := hcases x' edit' hedit'
    rw [hhandle, htag]
    exact h.live x' edit₀ h₀
  · intro x' edit' hedit'
    obtain ⟨edit₀, h₀, hhandle, -⟩ := hcases x' edit' hedit'
    rw [hhandle]
    exact h.serial x' edit₀ h₀
  · intro x₁ e₁ x₂ e₂ h₁ h₂ heq
    obtain ⟨edit₁, h₁, hh₁, -⟩ := hcases x₁ e₁ h₁
    obtain ⟨edit₂, h₂, hh₂, -⟩ := hcases x₂ e₂ h₂
    rw [hh₁, hh₂] at heq
    exact h.distinct x₁ edit₁ x₂ edit₂ h₁ h₂ heq

/-- The target of a name depends on the edits of that name only. -/
theorem Edited.targetOf_eq (h : s.Edited) (h' : t.Edited)
    (hsame : ∀ x edit, edit.handle = key →
      (t.edits.get? x = some edit ↔ s.edits.get? x = some edit)) :
    t.targetOf key = s.targetOf key := by
  by_cases hsome : ∃ x edit, s.edits.get? x = some edit ∧ edit.handle = key
  · obtain ⟨x, edit, hedit, rfl⟩ := hsome
    rw [h.targetOf hedit, h'.targetOf ((hsame x edit rfl).2 hedit)]
  · have hnone : ∀ x edit, s.edits.get? x = some edit → edit.handle ≠ key :=
      fun x edit hedit heq => hsome ⟨x, edit, hedit, heq⟩
    rw [targetOf_of_none hnone h.ascending]
    apply targetOf_of_none _ h'.ascending
    intro x edit hedit heq
    exact hnone x edit ((hsame x edit heq).1 hedit) heq

theorem get?_insert_iff {new : Edit ℚ} (hnew : new.handle ≠ key)
    (hold : ∀ edit, s.edits.get? x = some edit → edit.handle ≠ key) (x' : Variable)
    (edit' : Edit ℚ) (hkey : edit'.handle = key) :
    (s.edits.insert x new).get? x' = some edit' ↔ s.edits.get? x' = some edit' := by
  rw [Table.get?_insert]
  split
  · next hx =>
    subst hx
    constructor
    · intro heq
      cases heq
      exact absurd hkey hnew
    · intro hedit'
      exact absurd hkey (hold edit' hedit')
  · rfl

theorem Edited.targetOf_retarget (h : s.Edited) (hedit : s.edits.get? x = some edit) (v : ℚ)
    (ht : t.Edited) (hedits : t.edits = s.edits.insert x { edit with target := v }) :
    t.targetOf edit.handle = v ∧ ∀ key, key ≠ edit.handle → t.targetOf key = s.targetOf key := by
  have hget : t.edits.get? x = some { edit with target := v } := by
    rw [hedits]
    exact Table.get?_insert_self _ _ _
  refine ⟨ht.targetOf hget, ?_⟩
  intro key hkey
  apply h.targetOf_eq ht
  rw [hedits]
  apply get?_insert_iff
  · exact hkey.symm
  · intro edit' hedit'
    rw [hedit] at hedit'
    cases hedit'
    exact hkey.symm

theorem Edited.targetOf_insert (h : s.Edited) {n : Nat} {tag : Tag} (ht : t.Edited)
    (hedits : t.edits = s.edits.insert x { handle := .edit n, tag, target := 0 })
    (hfresh : ∀ x edit, s.edits.get? x = some edit → edit.handle ≠ .edit n)
    (hx : s.edits.get? x = none) : t.targetOf = s.targetOf := by
  funext key
  by_cases hkey : key = .edit n
  · have hget : t.edits.get? x = some { handle := .edit n, tag, target := 0 } := by
      rw [hedits]
      exact Table.get?_insert_self _ _ _
    rw [hkey, targetOf_of_none hfresh h.ascending]
    exact ht.targetOf hget
  · apply h.targetOf_eq ht
    rw [hedits]
    apply get?_insert_iff
    · exact Ne.symm hkey
    · intro edit' hedit'
      rw [hx] at hedit'
      cases hedit'

theorem Edited.targetOf_erase (h : s.Edited) (hedit : s.edits.get? x = some edit) (ht : t.Edited)
    (hedits : t.edits = s.edits.erase x) (hkey : key ≠ edit.handle) :
    t.targetOf key = s.targetOf key := by
  apply h.targetOf_eq ht
  intro x' edit' heq
  rw [hedits, Table.get?_erase]
  split
  · next hx =>
    subst hx
    constructor
    · intro hnone
      cases hnone
    · intro hedit'
      rw [hedit] at hedit'
      cases hedit'
      exact absurd heq.symm hkey
  · rfl

end Solver

end ReactiveView
