import Mathlib
import ReactiveView.Proofs.Simplex.Sound

/-!
This module contains the removal of a constraint. Its cost leaves the objective, its marker is made
basic if it is not, and the row of the marker goes: what is left are the equations of the others.
-/

namespace ReactiveView

namespace Solver

/-- The system without a constraint in its list and its objective; the rows are still there. -/
def discharged (s : Solver ℚ) (key : Handle) (lv : Live ℚ) : Solver ℚ :=
  { s with
    live := s.live.erase key
    objective :=
      lv.errors.foldl (fun o x => s.addTerm o x (-lv.constraint.strength.value)) s.objective }

variable {s t w : Solver ℚ} {row row' : Row ℚ} {target target' : Handle → ℚ} {key : Handle}
variable {lv : Live ℚ} {m l b : Symbol} {r : Except SolverError Unit} {value : Symbol → ℚ} {c : ℚ}

/-! ### Taking the cost out of the objective -/

theorem Parametric.addTerms (hp : s.Parametric row) (hs : s.Solved) {symbols : List Symbol}
    (hid : ∀ x ∈ symbols, x.id < s.nextId) (c : ℚ) :
    s.Parametric (symbols.foldl (fun o x => s.addTerm o x c) row) := by
  induction symbols generalizing row with
  | nil => exact hp
  | cons x rest ih =>
    apply ih (hp.addTerm hs (hid x List.mem_cons_self) c)
    intro y hy
    exact hid y (List.mem_cons_of_mem _ hy)

theorem Parametric.eval_addTerms (hp : s.Parametric row) (hs : s.Solved) {symbols : List Symbol}
    (hid : ∀ x ∈ symbols, x.id < s.nextId) (hsat : s.Satisfies value) (c : ℚ) :
    (symbols.foldl (fun o x => s.addTerm o x c) row).eval value
      = row.eval value + c * (symbols.map value).sum := by
  induction symbols generalizing row with
  | nil => simp
  | cons x rest ih =>
    rw [List.foldl_cons, ih (hp.addTerm hs (hid x List.mem_cons_self) c)
      fun y hy => hid y (List.mem_cons_of_mem _ hy), eval_addTerm hp.normal hsat, List.map_cons,
      List.sum_cons]
    ring

theorem Closed.within_addTerms (hc : s.Closed) (hs : s.Solved) (hp : s.Parametric row)
    (hw : row.Within Symbol.IsRestricted) {symbols : List Symbol}
    (hid : ∀ x ∈ symbols, x.id < s.nextId) (hr : ∀ x ∈ symbols, x.IsRestricted) (c : ℚ) :
    (symbols.foldl (fun o x => s.addTerm o x c) row).Within Symbol.IsRestricted := by
  induction symbols generalizing row with
  | nil => exact hw
  | cons x rest ih =>
    have hx := hr x List.mem_cons_self
    apply ih (hp.addTerm hs (hid x List.mem_cons_self) c)
    · unfold Solver.addTerm
      split
      · next basic hbasic =>
        exact hw.addRow hp.normal (hc basic (.basic hbasic hx)) (hs.normal _ (.basic hbasic)) c
      · exact hw.addSymbol hx c
    · intro y hy
      exact hid y (List.mem_cons_of_mem _ hy)
    · intro y hy
      exact hr y (List.mem_cons_of_mem _ hy)

theorem discharge_eq (s : Solver ℚ) (key : Handle) (lv : Live ℚ) :
    Solver.discharge { s with live := s.live.erase key } lv.constraint lv.tag
      = s.discharged key lv := by
  have hfold : ∀ (symbols : List Symbol) (o : Row ℚ),
      symbols.foldl (fun (u : Solver ℚ) (marker : Symbol) =>
          if marker.kind != .error then u
          else { u with
            objective := u.addTerm u.objective marker (-lv.constraint.strength.value) })
          { s with live := s.live.erase key, objective := o }
        = { s with
            live := s.live.erase key
            objective := (symbols.filter fun x => x.kind == .error).foldl
              (fun o x => s.addTerm o x (-lv.constraint.strength.value)) o } := by
    intro symbols
    induction symbols with
    | nil =>
      intro o
      rfl
    | cons x rest ih =>
      intro o
      rw [List.foldl_cons]
      by_cases hx : x.kind = .error
      · rw [List.filter_cons_of_pos (by simpa using hx), List.foldl_cons, ← ih]
        simp only [hx]
        rfl
      · rw [List.filter_cons_of_neg (by simpa using hx), ← ih]
        simp [hx]
  unfold Solver.discharge discharged Live.errors
  refine Eq.trans ?_ (hfold lv.tag.symbols s.objective)
  congr 1
  funext u x
  split
  · rfl
  · unfold addTerm
    cases u.rows.get? x <;> rfl

section Discharged

variable (hm : s.Models target) (hlv : s.live.get? key = some lv)
include hm hlv

theorem Models.errors_known : ∀ x ∈ lv.errors, x.id < s.nextId :=
  fun x hx => hm.tagged.known key lv hlv x (List.mem_of_mem_filter hx)

theorem Models.solved_discharged : (s.discharged key lv).Solved := by
  have hp := (hm.solved.parametric .objective).addTerms hm.solved (hm.errors_known hlv)
    (-lv.constraint.strength.value)
  exact hm.solved.of_objective rfl rfl le_rfl ⟨hp.normal, hp.solved, hp.known⟩

theorem Models.closed_discharged (hc : s.Closed) : (s.discharged key lv).Closed := by
  refine hc.of_objective rfl rfl ?_
  refine hc.within_addTerms hm.solved (hm.solved.parametric .objective) (hc _ .objective)
    (hm.errors_known hlv) ?_ _
  intro x hx
  exact (hm.tagged.fits key lv hlv).kind_ne_external (List.mem_of_mem_filter hx)

theorem Models.eval_discharged (hsat : s.Satisfies value) :
    (s.discharged key lv).objective.eval value = s.objective.eval value - lv.cost value := by
  have heval := (hm.solved.parametric .objective).eval_addTerms hm.solved (hm.errors_known hlv) hsat
    (-lv.constraint.strength.value)
  unfold discharged Live.cost
  rw [heval]
  unfold Live.errors
  ring

end Discharged

/-! ### Taking the marker out of the rows -/

/-- The marker of a constraint occurs in the tableau: no row could make up for it. -/
theorem Models.marker_occurs (hm : s.Models target) (hlv : s.live.get? key = some lv)
    (hb : ¬s.IsBasic lv.tag.marker) :
    ∃ b row, s.rows.get? b = some row ∧ row.coefficient lv.tag.marker ≠ 0 := by
  by_contra hnone
  push Not at hnone
  have hr : lv.tag.marker.IsRestricted := (hm.tagged.fits key lv hlv).kind_ne_external lv.marker_mem
  have hsat : s.Satisfies (Function.update s.corner lv.tag.marker 1) := by
    intro b row hrow
    have hbm : b ≠ lv.tag.marker := by
      rintro rfl
      exact hb ⟨row, hrow⟩
    rw [Function.update_of_ne hbm,
      Row.eval_update_of_coefficient (hm.solved.normal row (.basic hrow)) (hnone b row hrow)]
    exact hm.solved.satisfies_corner b row hrow
  have h₀ := (hm.satisfies_iff _).1 hm.solved.satisfies_corner key lv hlv
  have h₁ := (hm.satisfies_iff _).1 hsat key lv hlv
  unfold Live.Balanced at h₀ h₁
  rw [hm.registered.reading_update hr,
    Live.residual_update_marker fun y => hm.tagged.distinct key lv y hlv, h₀,
    corner_of_not_isBasic hb] at h₁
  exact lv.sign_ne_zero (by linarith)

theorem Solved.satisfies_forget_iff_exists (hw : w.Solved) (hrow : w.rows.get? m = some row) :
    (w.forget m).Satisfies value ↔ ∃ v, w.Satisfies (Function.update value m v) := by
  rw [hw.satisfies_forget_iff hrow]
  constructor
  · intro hsat
    exact ⟨_, hsat⟩
  · rintro ⟨v, hsat⟩
    have hv := hsat m row hrow
    rw [Function.update_self, Row.eval_update_of_coefficient (hw.normal row (.basic hrow))
      (hw.solved row m (.basic hrow) ⟨row, hrow⟩)] at hv
    rw [← hv]
    exact hsat

/-- A tableau whose marker has been made basic, ready for the row of the marker to go. -/
structure Freed (s : Solver ℚ) (m : Symbol) (w : Solver ℚ) : Prop where
  solved : w.Solved
  frame : s.SameFrame w
  idle : s.artificial = none → w.artificial = none
  basic : w.IsBasic m
  satisfies_iff : ∀ value, w.Satisfies value ↔ s.Satisfies value
  objective : ∀ value, s.Satisfies value → w.objective.eval value = s.objective.eval value

theorem Solved.freed_self (hs : s.Solved) (hb : s.IsBasic m) : s.Freed m s :=
  ⟨hs, .refl s, id, hb, fun _ => Iff.rfl, fun _ _ => rfl⟩

theorem Solved.freed_pivot (hs : s.Solved) (hrow : s.rows.get? l = some row)
    (hne : row.coefficient m ≠ 0) : s.Freed m (s.pivot l m row) where
  solved := hs.pivot hrow hne
  frame := sameFrame_pivot s l m row
  idle hart := by
    show s.artificial.map _ = none
    rw [hart]
    rfl
  basic := isBasic_install.2 (.inl rfl)
  satisfies_iff _ := hs.satisfies_pivot hrow hne
  objective _ hsat := hs.eval_pivot hrow hne hsat .objective

/-- With the row of its marker a constraint leaves the equations. -/
theorem Models.erase (hm : s.Models target) (hlv : s.live.get? key = some lv)
    (hfreed : (s.discharged key lv).Freed lv.tag.marker w)
    (htarget : ∀ key', key' ≠ key → target' key' = target key') :
    (w.forget lv.tag.marker).Models target' := by
  obtain ⟨row, hrow⟩ := hfreed.basic
  have hlive : (w.forget lv.tag.marker).live = s.live.erase key := hfreed.frame.live
  have hvars : (w.forget lv.tag.marker).vars = s.vars := hfreed.frame.vars
  have hid : s.nextId ≤ (w.forget lv.tag.marker).nextId := hfreed.frame.nextId.ge
  have hsat : ∀ value, (w.forget lv.tag.marker).Satisfies value ↔
      ∃ v, s.Satisfies (Function.update value lv.tag.marker v) := by
    intro value
    rw [hfreed.solved.satisfies_forget_iff_exists hrow]
    exact exists_congr fun v => hfreed.satisfies_iff _
  refine ⟨hfreed.solved.forget _, hfreed.idle hm.idle, hm.registered.congr hvars hid,
    hm.tagged.erase hlive hvars hid, ?_, ?_⟩
  · intro value
    rw [hsat, hm.tagged.balances_erase_iff hm.registered hlv hlive hvars htarget]
    exact exists_congr fun v => hm.satisfies_iff _
  · obtain ⟨k, hk⟩ := hm.objective
    refine ⟨k, ?_⟩
    intro value hvalue
    obtain ⟨v, hv⟩ := (hsat value).1 hvalue
    have hobj := hfreed.objective _ hv
    rw [hm.eval_discharged hlv hv, hk _ hv,
      Row.eval_update_of_coefficient (hfreed.solved.normal _ .objective)
        (hfreed.solved.solved _ _ .objective ⟨row, hrow⟩)] at hobj
    show w.objective.eval value = _
    rw [hobj, hm.tagged.cost_erase hlv hlive v]
    ring

/-- A marker that restricted symbols do not depend on has no part in the cost of the others. -/
theorem Models.coefficient_discharged (hm : s.Models target) (hlv : s.live.get? key = some lv)
    (hfree : ∀ b row, s.rows.get? b = some row → b.kind ≠ .external →
      row.coefficient lv.tag.marker = 0) :
    (s.discharged key lv).objective.coefficient lv.tag.marker = 0 := by
  obtain ⟨k, hk⟩ := hm.objective
  have hs' := hm.solved_discharged hlv
  -- Moving the marker by one moves variables only, so no other constraint changes its cost.
  have hsame : ∀ x : Symbol, x.IsRestricted → x ≠ lv.tag.marker →
      s.complete (Function.update (fun _ => 0) lv.tag.marker 1) x = s.corner x := by
    intro x hx hne
    by_cases hxb : s.IsBasic x
    · obtain ⟨row, hrow⟩ := hxb
      rw [complete_of_get? hrow, corner_of_get? hrow,
        Row.eval_single (hm.solved.normal row (.basic hrow)), hfree x row hrow hx, add_zero]
    · rw [complete_of_not_isBasic hxb, corner_of_not_isBasic hxb, Function.update_of_ne hne]
  have hcost : (s.cost (s.complete (Function.update (fun _ => 0) lv.tag.marker 1))
        - lv.cost (s.complete (Function.update (fun _ => 0) lv.tag.marker 1)))
      = s.cost s.corner - lv.cost s.corner := by
    unfold Solver.cost
    rw [hm.tagged.ascending.sum_erase hlv fun entry =>
        entry.2.cost (s.complete (Function.update (fun _ => 0) lv.tag.marker 1)),
      hm.tagged.ascending.sum_erase hlv fun entry => entry.2.cost s.corner, add_sub_cancel_left,
      add_sub_cancel_left]
    congr 1
    apply List.map_congr_left
    rintro ⟨key', lv'⟩ hmem
    obtain ⟨hne, hget⟩ :=
      Table.of_get?_erase ((hm.tagged.ascending.erase key).mem_entries_iff.1 hmem)
    apply Live.cost_congr
    intro x hx
    exact hsame x ((hm.tagged.fits key' lv' hget).kind_ne_external hx)
      (hm.tagged.not_mem_of_ne hlv hget hne x hx)
  have h₀ := hm.eval_discharged hlv hm.solved.satisfies_corner
  have h₁ := hm.eval_discharged hlv
    (hm.solved.satisfies_complete (Function.update (fun _ => 0) lv.tag.marker 1))
  rw [hk _ hm.solved.satisfies_corner] at h₀
  rw [hk _ (hm.solved.satisfies_complete _)] at h₁
  have e₀ : (s.discharged key lv).objective.eval s.corner
      = (s.discharged key lv).objective.constant := hs'.eval_corner .objective
  have e₁ : (s.discharged key lv).objective.eval
        (s.complete (Function.update (fun _ => 0) lv.tag.marker 1))
      = (s.discharged key lv).objective.constant
        + (s.discharged key lv).objective.coefficient lv.tag.marker := by
    have := hs'.eval_complete .objective (Function.update (fun _ => 0) lv.tag.marker 1)
    rw [Row.eval_single (hs'.normal _ .objective)] at this
    exact this
  linarith

/-! ### The ways of a removal -/

/-- How a removal ends: no constraint has the name, or the marker is basic, or a row gives way to
it. -/
inductive Removes (s : Solver ℚ) (key : Handle) : Except SolverError Unit → Solver ℚ → Prop
  | unknown (hnone : s.live.get? key = none) : Removes s key (.error .unknownConstraint) s
  | basic {lv : Live ℚ} {r : Except SolverError Unit} {t : Solver ℚ}
      (hlv : s.live.get? key = some lv) (hb : s.IsBasic lv.tag.marker)
      (hfollows : Follows ((s.discharged key lv).forget lv.tag.marker) r t) : Removes s key r t
  | gives {lv : Live ℚ} {l : Symbol} {row : Row ℚ} {r : Except SolverError Unit} {t : Solver ℚ}
      (hlv : s.live.get? key = some lv) (hb : ¬s.IsBasic lv.tag.marker)
      (hway : s.givingWay? lv.tag.marker = some l) (hrow : s.rows.get? l = some row)
      (hgives : s.GivesWay lv.tag.marker l row)
      (hfollows : Follows (((s.discharged key lv).forget l).substitute lv.tag.marker
        (row.exchanged l lv.tag.marker)) r t) : Removes s key r t

theorem perform_removeAs_eq (s : Solver ℚ) (key : Handle) :
    s.perform (removeAs key) =
      match s.live.get? key with
      | none => (.error .unknownConstraint, s)
      | some lv =>
        if s.rows.contains lv.tag.marker then
          ((s.discharged key lv).forget lv.tag.marker).perform followUp
        else
          match s.givingWay? lv.tag.marker with
          | none => (.error .noLeavingRow, s.discharged key lv)
          | some l =>
            match s.rows.get? l with
            | none => (.error .noLeavingRow, s.discharged key lv)
            | some row =>
              (((s.discharged key lv).forget l).substitute lv.tag.marker
                (row.exchanged l lv.tag.marker)).perform followUp := by
  unfold removeAs
  rw [perform_bind]
  simp only [perform_get]
  cases hlv : s.live.get? key with
  | none => rfl
  | some lv =>
    obtain ⟨c, tag⟩ := lv
    dsimp only
    rw [discharge_eq s key ⟨c, tag⟩, perform_bind]
    simp only [perform_set]
    have hcontains : (s.discharged key ⟨c, tag⟩).rows.contains tag.marker
        = s.rows.contains tag.marker := rfl
    have hway : (s.discharged key ⟨c, tag⟩).givingWay? tag.marker = s.givingWay? tag.marker := rfl
    have hget : ∀ l, (s.discharged key ⟨c, tag⟩).rows.get? l = s.rows.get? l := fun _ => rfl
    rw [hcontains, hway]
    split
    · rw [perform_bind]
      simp only [perform_set]
      rfl
    · cases s.givingWay? tag.marker with
      | none => rfl
      | some l =>
        dsimp only
        rw [hget]
        cases s.rows.get? l with
        | none => rfl
        | some row =>
          dsimp only
          rw [perform_bind]
          simp only [perform_set]
          rfl

theorem perform_removeAs (hm : s.Models target) (h : s.perform (removeAs key) = (r, t)) :
    Removes s key r t := by
  rw [perform_removeAs_eq] at h
  split at h
  · next hnone =>
    cases h
    exact .unknown hnone
  · next lv hlv =>
    split at h
    · next hcontains =>
      have ha : ((s.discharged key lv).forget lv.tag.marker).rows.Ascending :=
        hm.solved.ascending.erase _
      exact .basic hlv (Table.contains_iff.1 hcontains) (perform_followUp ha h)
    · next hcontains =>
      have hb : ¬s.IsBasic lv.tag.marker := fun hb => hcontains (Table.contains_iff.2 hb)
      cases hway : s.givingWay? lv.tag.marker with
      | none =>
        obtain ⟨b, row, hrow, hne⟩ := hm.marker_occurs hlv hb
        exact absurd (givingWay?_eq_none hway hrow) hne
      | some l =>
        obtain ⟨row, hrow, hgives⟩ := givingWay?_eq_some hm.solved.ascending hway
        rw [hway] at h
        dsimp only at h
        rw [hrow] at h
        have ha : (((s.discharged key lv).forget l).substitute lv.tag.marker
            (row.exchanged l lv.tag.marker)).rows.Ascending :=
          (hm.solved.ascending.erase l).mapValues _
        exact .gives hlv hb hway hrow hgives (perform_followUp ha h)

/-- Whether the removal of a marker keeps the dummies pinned: the row that gives way is that of a
dummy itself, or no dummy depends on the marker. -/
def KeepsPins (s : Solver ℚ) (m : Symbol) : Prop :=
  ¬s.IsBasic m → ∀ l, s.givingWay? m = some l →
    l.IsDummy ∨ ∀ b row, s.rows.get? b = some row → b.IsDummy → row.coefficient m = 0

/-- Only the marker of a required equality can take a pin with it. -/
theorem Pinned.keepsPins (hp : s.Pinned) (hm : ¬m.IsDummy) : s.KeepsPins m :=
  fun _ _ _ => .inr fun b row hrow hb => (hp b row hrow hb).2.coefficient hm

section Gives

variable (hs : s.Solved) (hrow : s.rows.get? l = some row)
  (hgives : s.GivesWay m l row)
include hs hrow hgives

theorem GivesWay.nonneg (hn : s.Nonneg) :
    ((s.forget l).substitute m (row.exchanged l m)).Nonneg := by
  have hne := hgives.ne_zero
  have hle := hs.ne_of_coefficient hrow hne
  apply Nonneg.substitute (hs.forget l)
  intro b row' hrow' hbr
  replace hrow' := (of_get?_forget hrow').2
  rw [Row.constant_exchanged (hs.normal row (.basic hrow)) hle hne]
  cases hgives with
  | above hl hneg hmin =>
    have hratio : 0 ≤ -row.constant / row.coefficient m :=
      div_nonneg_of_nonpos (neg_nonpos.2 (hn l row hrow hl)) hneg.le
    exact hn.of_least_ratio hratio hmin hrow' hbr
  | below hl hpos hall hmin =>
    rcases (hall b row' hrow' hbr).eq_or_lt with hzero | hpos'
    · rw [← hzero, zero_mul, add_zero]
      exact hn b row' hrow' hbr
    · have := hmin b row' hrow' hbr hpos'
      rw [le_div_iff₀ hpos'] at this
      rw [neg_div, mul_neg, mul_comm]
      linarith
  | free hl _ hall =>
    rw [hall b row' hrow' hbr, zero_mul, add_zero]
    exact hn b row' hrow' hbr

omit hgives in
theorem KeepsPins.pinned (hkeeps : s.KeepsPins m) (hway : s.givingWay? m = some l)
    (hb : ¬s.IsBasic m) (hne : row.coefficient m ≠ 0) (hp : s.Pinned) :
    ((s.forget l).substitute m (row.exchanged l m)).Pinned := by
  have hle := hs.ne_of_coefficient hrow hne
  have hn := hs.normal row (.basic hrow)
  apply (hp.forget l).substitute (hs.forget l) (hn.exchanged hle hne)
  intro b row' hrow' hbd hne'
  rcases hkeeps hb l hway with hl | hnone
  · obtain ⟨hzero, hwithin⟩ := hp l row hrow hl
    refine ⟨?_, hwithin.exchanged hn hl hle hne⟩
    rw [Row.constant_exchanged hn hle hne, hzero, neg_zero, zero_div]
  · exact absurd (hnone b row' (of_get?_forget hrow').2 hbd) hne'

end Gives

theorem Models.closed_gives (hm : s.Models target) (hlv : s.live.get? key = some lv)
    (hc : s.Closed) (hrow : s.rows.get? l = some row)
    (hgives : s.GivesWay lv.tag.marker l row) :
    (((s.discharged key lv).forget l).substitute lv.tag.marker
      (row.exchanged l lv.tag.marker)).Closed := by
  have hs' := hm.solved_discharged hlv
  have hc' := hm.closed_discharged hlv hc
  have hrow' : (s.discharged key lv).rows.get? l = some row := hrow
  have hne := hgives.ne_zero
  have hle := hs'.ne_of_coefficient hrow' hne
  have hn := hs'.normal row (.basic hrow')
  apply (hc'.forget l).substitute (hs'.forget l) (hn.exchanged hle hne)
  by_cases hl : l.IsRestricted
  · intro _ _ _
    exact (hc' row (.basic hrow' hl)).exchanged hn hl hle hne
  · cases hgives with
    | above hl' => exact absurd hl' hl
    | below hl' => exact absurd hl' hl
    | free _ _ hall =>
      -- The row of a variable has no restricted row to go into, and the objective is none either.
      rintro row₀ (⟨b, hb, hk⟩ | hobj | hart) hne₀
      · exact absurd (hall b row₀ (of_get?_forget hb).2 hk) hne₀
      · rw [hobj] at hne₀
        exact absurd (hm.coefficient_discharged hlv hall) hne₀
      · have hnone : ((s.discharged key lv).forget l).artificial = none := hm.idle
        rw [hnone] at hart
        cases hart

section Withdraw

variable (hs : s.Sound target) (hlv : s.live.get? key = some lv)
include hs hlv

theorem Sound.withdraw_basic (hb : s.IsBasic lv.tag.marker) (target' : Handle → ℚ)
    (htarget : ∀ key', key' ≠ key → target' key' = target key') :
    ((s.discharged key lv).forget lv.tag.marker).Sound target' where
  models := hs.models.erase hlv ((hs.models.solved_discharged hlv).freed_self hb) htarget
  closed := (hs.models.closed_discharged hlv hs.closed).forget _
  nonneg := Nonneg.forget (hs.nonneg.congr rfl) _
  notes := hs.notes

theorem Sound.withdraw_gives (hb : ¬s.IsBasic lv.tag.marker) (hrow : s.rows.get? l = some row)
    (hgives : s.GivesWay lv.tag.marker l row) (target' : Handle → ℚ)
    (htarget : ∀ key', key' ≠ key → target' key' = target key') :
    (((s.discharged key lv).forget l).substitute lv.tag.marker
      (row.exchanged l lv.tag.marker)).Sound target' where
  models := by
    -- The rows are those of a pivot on the marker, without the row of the marker.
    have hfreed := (hs.models.solved_discharged hlv).freed_pivot hrow hgives.ne_zero
    have hforget : ¬((s.discharged key lv).forget l).IsBasic lv.tag.marker :=
      fun hbasic => hb (isBasic_forget.1 hbasic).2
    rw [← forget_install hforget]
    exact hs.models.erase hlv hfreed htarget
  closed := hs.models.closed_gives hlv hs.closed hrow hgives
  nonneg := Nonneg.congr (hgives.nonneg hs.models.solved hrow hs.nonneg) rfl
  notes := Notes.substitute (s := (s.discharged key lv).forget l) hs.notes
    (hs.models.solved.ascending.erase l)

end Withdraw

section Removes

variable (h : Removes s key r t)
include h

theorem Removes.sound (hs : s.Sound target)
    (htarget : ∀ key', key' ≠ key → target' key' = target key')
    (hunknown : s.live.get? key = none → target' = target) : t.Sound target' := by
  cases h with
  | unknown hnone =>
    rw [hunknown hnone]
    exact hs
  | basic hlv hb hfollows => exact hfollows.sound (hs.withdraw_basic hlv hb target' htarget)
  | gives hlv hb _ hrow hgives hfollows =>
    exact hfollows.sound (hs.withdraw_gives hlv hb hrow hgives target' htarget)

theorem Removes.pinned (hs : s.Sound target) (hp : s.Pinned)
    (hkeeps : ∀ lv, s.live.get? key = some lv → s.KeepsPins lv.tag.marker) : t.Pinned := by
  have hm := hs.models
  cases h with
  | unknown => exact hp
  | @basic lv r t hlv hb hfollows =>
    have hs' := hm.solved_discharged hlv
    exact hfollows.pinned (hs'.forget _) (Pinned.forget (hp.congr rfl) _)
  | @gives lv l row r t hlv hb hway hrow hgives hfollows =>
    exact hfollows.pinned (hs.withdraw_gives hlv hb hrow hgives target fun _ _ => rfl).models.solved
      (Pinned.congr ((hkeeps lv hlv).pinned hm.solved hrow hway hb hgives.ne_zero hp) rfl)

theorem Removes.settled (hs : s.Sound target) (hold : s.dirty = false → s.Optimal)
    (hr : Ordinary r) (hclean : t.dirty = false) : t.Optimal := by
  have hm := hs.models
  have hok : ∀ {u : Solver ℚ}, Follows u r t → r = .ok () := fun hfollows =>
    hr.eq_ok fun _ => hfollows.isInternal
  cases h with
  | unknown => exact hold hclean
  | @basic lv r t hlv hb hfollows =>
    exact hfollows.settled ((hm.solved_discharged hlv).forget _) (hok hfollows) hclean
  | @gives lv l row r t hlv hb hway hrow hgives hfollows =>
    have hs' := (hs.withdraw_gives hlv hb hrow hgives target fun _ _ => rfl).models.solved
    exact hfollows.settled hs' (hok hfollows) hclean

/-- A removal takes the constraint off the list, or changes nothing. -/
theorem Removes.lists : t.edits = s.edits ∧ t.autoSolve = s.autoSolve ∧ t.nextId = s.nextId ∧
    ((s.live.get? key = none ∧ r = .error .unknownConstraint ∧ t = s) ∨
      (s.live.get? key ≠ none ∧ t.live = s.live.erase key ∧ r ≠ .error .unknownConstraint)) := by
  have hne : ∀ {u : Solver ℚ}, Follows u r t → r ≠ .error .unknownConstraint := by
    rintro u hfollows rfl
    have := hfollows.isInternal rfl
    cases this
  cases h with
  | unknown hnone => exact ⟨rfl, rfl, rfl, .inl ⟨hnone, rfl, rfl⟩⟩
  | basic hlv hb hfollows =>
    have hnames := hfollows.sameNames
    exact ⟨hnames.edits, hnames.autoSolve, hnames.nextId,
      .inr ⟨by rw [hlv]; simp, hnames.live, hne hfollows⟩⟩
  | gives hlv hb hway hrow hgives hfollows =>
    have hnames := hfollows.sameNames
    exact ⟨hnames.edits, hnames.autoSolve, hnames.nextId,
      .inr ⟨by rw [hlv]; simp, hnames.live, hne hfollows⟩⟩

end Removes

end Solver

end ReactiveView
