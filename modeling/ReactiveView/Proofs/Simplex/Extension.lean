import Mathlib
import ReactiveView.Proofs.Simplex.Requirements

/-!
This module contains how values of the variables extend to all symbols: the symbols of a constraint
take up what its expression leaves over. Values that meet the requirements extend to admissible
assignments, at a cost that is the weighted sum of the violations.
-/

namespace ReactiveView

namespace Live

/-- By how much values of the variables miss a constraint, an equality being measured against its
target. -/
def gap (lv : Live ℚ) (values : Variable → ℚ) (target : ℚ) : ℚ :=
  let e := lv.constraint.expr.evaluate values
  match lv.constraint.relation with
  | .atMost => max e 0
  | .equal => |e - target|
  | .atLeast => max (-e) 0

/-- The weighted violation of a constraint that need not be met. -/
def penalty (lv : Live ℚ) (values : Variable → ℚ) (target : ℚ) : ℚ :=
  if lv.constraint.IsRequired then 0 else lv.constraint.strength.value * lv.gap values target

/-- What the symbols of a constraint are where its expression has the value `e`. -/
def spread (lv : Live ℚ) (e target : ℚ) (x : Symbol) : ℚ :=
  match lv.constraint.relation, lv.tag.other with
  | .atMost, none => -e
  | .atMost, some _ => if x = lv.tag.marker then max (-e) 0 else max e 0
  | .atLeast, none => e
  | .atLeast, some _ => if x = lv.tag.marker then max e 0 else max (-e) 0
  | .equal, none => -e
  | .equal, some _ => if x = lv.tag.marker then max (e - target) 0 else max (target - e) 0

/-- The four shapes of a live constraint. -/
inductive Shape (lv : Live ℚ) : Prop
  | pinned (hreq : lv.constraint.IsRequired) (hrel : lv.constraint.relation = .equal)
      (ho : lv.tag.other = none) (hm : lv.tag.marker.kind = .dummy)
  | bounded (hreq : lv.constraint.IsRequired) (hrel : lv.constraint.relation ≠ .equal)
      (ho : lv.tag.other = none) (hm : lv.tag.marker.kind = .slack)
  | elastic {minus : Symbol} (hsoft : ¬lv.constraint.IsRequired)
      (hrel : lv.constraint.relation = .equal) (ho : lv.tag.other = some minus)
      (hm : lv.tag.marker.kind = .error) (hminus : minus.kind = .error)
  | loose {error : Symbol} (hsoft : ¬lv.constraint.IsRequired)
      (hrel : lv.constraint.relation ≠ .equal) (ho : lv.tag.other = some error)
      (hm : lv.tag.marker.kind = .slack) (herror : error.kind = .error)

variable {lv : Live ℚ} {values reading : Variable → ℚ} {target e : ℚ} {value : Symbol → ℚ}
variable {x : Symbol}

theorem Fits.shape (h : lv.Fits) : lv.Shape := by
  unfold Fits at h
  split at h
  · next hrel hreq => exact .pinned hreq hrel h.2 h.1
  · next hrel hsoft =>
    obtain ⟨hm, minus, ho, hminus⟩ := h
    exact .elastic (by simp [Constraint.IsRequired, hsoft]) hrel ho hm hminus
  · next hreq hrel => exact .bounded hreq hrel h.2 h.1
  · next hsoft hrel =>
    obtain ⟨hm, error, ho, herror⟩ := h
    exact .loose (by simp [Constraint.IsRequired, hsoft]) hrel ho hm herror

theorem gap_zero (lv : Live ℚ) (values : Variable → ℚ) :
    lv.gap values 0 = lv.constraint.violation values := by
  unfold gap Constraint.violation
  cases lv.constraint.relation <;> simp

theorem gap_nonneg (lv : Live ℚ) (values : Variable → ℚ) (target : ℚ) :
    0 ≤ lv.gap values target := by
  unfold gap
  cases lv.constraint.relation with
  | atMost => exact le_max_right _ _
  | equal => exact abs_nonneg _
  | atLeast => exact le_max_right _ _

/-! ### The symbols of one constraint -/

theorem residual_spread (hdistinct : ∀ y, lv.tag.other = some y → y ≠ lv.tag.marker)
    (he : lv.constraint.expr.evaluate reading = e)
    (hvalue : ∀ x ∈ lv.tag.symbols, value x = lv.spread e target x) :
    lv.residual reading target value = 0 := by
  have hm := hvalue _ lv.marker_mem
  unfold spread at hm
  unfold residual
  rw [he]
  cases ho : lv.tag.other with
  | none =>
    cases hrel : lv.constraint.relation <;> (rw [ho, hrel] at hm; dsimp only at hm ⊢; linarith)
  | some y =>
    have hy := hvalue y (Tag.other_mem ho)
    have hne := hdistinct y ho
    -- The two symbols are the parts of the expression above and below its target.
    unfold spread at hy
    cases hrel : lv.constraint.relation with
    | atMost =>
      rw [ho, hrel] at hm hy
      dsimp only at hm hy ⊢
      rw [if_pos rfl] at hm
      rw [if_neg hne] at hy
      have := max_zero_sub_eq_self e
      linarith
    | atLeast =>
      rw [ho, hrel] at hm hy
      dsimp only at hm hy ⊢
      rw [if_pos rfl] at hm
      rw [if_neg hne] at hy
      have := max_zero_sub_eq_self e
      linarith
    | equal =>
      rw [ho, hrel] at hm hy
      dsimp only at hm hy ⊢
      rw [if_pos rfl] at hm
      rw [if_neg hne] at hy
      have := max_zero_sub_eq_self (e - target)
      rw [neg_sub] at this
      linarith

theorem spread_nonneg (h : lv.Fits) (hmeets : lv.constraint.IsRequired → lv.constraint.Holds values)
    (x : Symbol) : 0 ≤ lv.spread (lv.constraint.expr.evaluate values) target x := by
  have hother : lv.tag.other = none → lv.constraint.Holds values := by
    intro hnone
    apply hmeets
    cases h.shape with
    | pinned hreq => exact hreq
    | bounded hreq => exact hreq
    | elastic _ _ ho =>
      rw [hnone] at ho
      cases ho
    | loose _ _ ho =>
      rw [hnone] at ho
      cases ho
  unfold Constraint.Holds at hother
  unfold spread
  cases ho : lv.tag.other with
  | none =>
    have hholds := hother ho
    cases hrel : lv.constraint.relation <;> (rw [hrel] at hholds; dsimp only at hholds ⊢; linarith)
  | some y =>
    cases lv.constraint.relation <;> (dsimp only; split <;> exact le_max_right _ _)

theorem spread_of_isDummy (h : lv.Fits)
    (hmeets : lv.constraint.IsRequired → lv.constraint.Holds values) (hx : x ∈ lv.tag.symbols)
    (hdummy : x.IsDummy) : lv.spread (lv.constraint.expr.evaluate values) target x = 0 := by
  obtain ⟨-, hreq, hrel⟩ := h.of_isDummy hx hdummy
  have hholds := hmeets hreq
  unfold Constraint.Holds at hholds
  rw [hrel] at hholds
  unfold spread
  rw [hrel, (h.of_isRequired hreq).1]
  dsimp only
  rw [hholds, neg_zero]

theorem cost_of_isRequired (h : lv.Fits) (hreq : lv.constraint.IsRequired) : lv.cost value = 0 := by
  have hnone : (lv.tag.symbols.filter fun x => x.kind == .error) = [] := by
    unfold Tag.symbols
    cases h.shape with
    | pinned _ _ ho hm => simp [ho, hm]
    | bounded _ _ ho hm => simp [ho, hm]
    | elastic hsoft => exact absurd hreq hsoft
    | loose hsoft => exact absurd hreq hsoft
  unfold cost
  rw [hnone, List.map_nil, List.sum_nil, mul_zero]

theorem cost_of_elastic {minus : Symbol} (ho : lv.tag.other = some minus)
    (hm : lv.tag.marker.kind = .error) (hminus : minus.kind = .error) :
    lv.cost value = lv.constraint.strength.value * (value lv.tag.marker + value minus) := by
  unfold cost Tag.symbols
  simp [ho, hm, hminus]

theorem cost_of_loose {error : Symbol} (ho : lv.tag.other = some error)
    (hm : lv.tag.marker.kind = .slack) (herror : error.kind = .error) :
    lv.cost value = lv.constraint.strength.value * value error := by
  unfold cost Tag.symbols
  simp [ho, hm, herror]

theorem cost_spread (h : lv.Fits) (hdistinct : ∀ y, lv.tag.other = some y → y ≠ lv.tag.marker)
    (hvalue : ∀ x ∈ lv.tag.symbols,
      value x = lv.spread (lv.constraint.expr.evaluate values) target x) :
    lv.cost value = lv.penalty values target := by
  unfold penalty gap
  cases h.shape with
  | pinned hreq => rw [cost_of_isRequired h hreq, if_pos hreq]
  | bounded hreq => rw [cost_of_isRequired h hreq, if_pos hreq]
  | elastic hsoft hrel ho hm hminus =>
    have hmarker := hvalue _ lv.marker_mem
    have hother := hvalue _ (Tag.other_mem ho)
    unfold spread at hmarker hother
    rw [hrel, ho] at hmarker hother
    dsimp only at hmarker hother
    rw [if_pos rfl] at hmarker
    rw [if_neg (hdistinct _ ho)] at hother
    rw [cost_of_elastic ho hm hminus, if_neg hsoft, hrel, hmarker, hother]
    have := max_zero_add_max_neg_zero_eq_abs_self (lv.constraint.expr.evaluate values - target)
    rw [neg_sub] at this
    rw [this]
  | loose hsoft hrel ho hm herror =>
    have hother := hvalue _ (Tag.other_mem ho)
    unfold spread at hother
    rw [cost_of_loose ho hm herror, if_neg hsoft]
    cases hrel' : lv.constraint.relation with
    | equal => exact absurd hrel' hrel
    | atMost =>
      rw [hrel', ho] at hother
      dsimp only at hother ⊢
      rw [hother, if_neg (hdistinct _ ho)]
    | atLeast =>
      rw [hrel', ho] at hother
      dsimp only at hother ⊢
      rw [hother, if_neg (hdistinct _ ho)]

/-- No assignment of its symbols gives a constraint less cost than its violation. -/
theorem penalty_le_cost (h : lv.Fits) (hstrength : 0 ≤ lv.constraint.strength.value)
    (hbalanced : lv.Balanced reading target value)
    (hnonneg : ∀ x ∈ lv.tag.symbols, 0 ≤ value x) : lv.penalty reading target ≤ lv.cost value := by
  have hmarker := hnonneg _ lv.marker_mem
  unfold Balanced residual at hbalanced
  unfold penalty gap
  cases h.shape with
  | pinned hreq => rw [cost_of_isRequired h hreq, if_pos hreq]
  | bounded hreq => rw [cost_of_isRequired h hreq, if_pos hreq]
  | elastic hsoft hrel ho hm hminus =>
    have hother := hnonneg _ (Tag.other_mem ho)
    rw [hrel, ho] at hbalanced
    dsimp only at hbalanced
    rw [cost_of_elastic ho hm hminus, if_neg hsoft, hrel]
    apply mul_le_mul_of_nonneg_left _ hstrength
    rw [abs_le]
    constructor <;> linarith
  | loose hsoft hrel ho hm herror =>
    have hother := hnonneg _ (Tag.other_mem ho)
    rw [cost_of_loose ho hm herror, if_neg hsoft]
    apply mul_le_mul_of_nonneg_left _ hstrength
    cases hrel' : lv.constraint.relation with
    | equal => exact absurd hrel' hrel
    | atMost =>
      rw [hrel', ho] at hbalanced
      dsimp only at hbalanced ⊢
      exact max_le (by linarith) hother
    | atLeast =>
      rw [hrel', ho] at hbalanced
      dsimp only at hbalanced ⊢
      exact max_le (by linarith) hother

end Live

namespace Solver

/-- The weighted violations of all constraints. -/
def penalty (s : Solver ℚ) (target : Handle → ℚ) (values : Variable → ℚ) : ℚ :=
  (s.live.entries.map fun entry => entry.2.penalty values (target entry.1)).sum

/-- Whether no constraint has a negative strength. -/
def Weighted (s : Solver ℚ) : Prop :=
  ∀ key lv, s.live.get? key = some lv → 0 ≤ lv.constraint.strength.value

/-- An assignment that extends values of the variables to all symbols. -/
structure Extends (s : Solver ℚ) (target : Handle → ℚ) (values : Variable → ℚ)
    (value : Symbol → ℚ) : Prop where
  vars : ∀ x y, s.vars.get? x = some y → value y = values x
  own : ∀ key lv, s.live.get? key = some lv → ∀ x ∈ lv.tag.symbols,
    value x = lv.spread (lv.constraint.expr.evaluate values) (target key) x
  others : ∀ x : Symbol, x.IsRestricted →
    (∀ key lv, s.live.get? key = some lv → x ∉ lv.tag.symbols) → value x = 0

variable {s : Solver ℚ} {target : Handle → ℚ} {values : Variable → ℚ} {value : Symbol → ℚ}
variable {key : Handle} {lv : Live ℚ}

theorem exists_extends (hr : s.Registered) (ht : s.Tagged) (target : Handle → ℚ)
    (values : Variable → ℚ) : ∃ value, s.Extends target values value := by
  -- A symbol belongs to one constraint, or to one variable, or to neither.
  have hpoint : ∀ y : Symbol, ∃ q : ℚ, (∀ x, s.vars.get? x = some y → q = values x) ∧
      (∀ key lv, s.live.get? key = some lv → y ∈ lv.tag.symbols →
        q = lv.spread (lv.constraint.expr.evaluate values) (target key) y) ∧
      (y.IsRestricted → (∀ key lv, s.live.get? key = some lv → y ∉ lv.tag.symbols) → q = 0) := by
    intro y
    by_cases hlive : ∃ key lv, s.live.get? key = some lv ∧ y ∈ lv.tag.symbols
    · obtain ⟨key, lv, hlv, hy⟩ := hlive
      refine ⟨lv.spread (lv.constraint.expr.evaluate values) (target key) y, ?_, ?_, ?_⟩
      · intro x hx
        exact absurd (hr.external x y hx) ((ht.fits key lv hlv).kind_ne_external hy)
      · intro key' lv' hlv' hy'
        have hkey := ht.apart key lv key' lv' hlv hlv' y hy hy'
        rw [← hkey, hlv] at hlv'
        cases hlv'
        rw [hkey]
      · intro _ hnone
        exact absurd hy (hnone key lv hlv)
    · by_cases hvar : ∃ x, s.vars.get? x = some y
      · obtain ⟨x, hx⟩ := hvar
        refine ⟨values x, ?_, ?_, ?_⟩
        · intro x' hx'
          rw [hr.distinct x x' y hx hx']
        · intro key lv hlv hy
          exact absurd ⟨key, lv, hlv, hy⟩ hlive
        · intro hrestricted
          exact absurd (hr.external x y hx) hrestricted
      · refine ⟨0, ?_, ?_, fun _ _ => rfl⟩
        · intro x hx
          exact absurd ⟨x, hx⟩ hvar
        · intro key lv hlv hy
          exact absurd ⟨key, lv, hlv, hy⟩ hlive
  choose value hvars hown hothers using hpoint
  exact ⟨value, fun x y => hvars y x, fun key lv hlv x hx => hown x key lv hlv hx, hothers⟩

section Extends

variable (h : s.Extends target values value) (ht : s.Tagged)
include h ht

theorem Extends.evaluate (hlv : s.live.get? key = some lv) :
    lv.constraint.expr.evaluate (s.reading value) = lv.constraint.expr.evaluate values := by
  apply LinearExpr.evaluate_congr
  intro u hu hc
  obtain ⟨y, hy⟩ := ht.covered key lv hlv u hu hc
  rw [reading_of_get? hy]
  exact h.vars u.unknown y hy

theorem Extends.balances : s.Balances target value := by
  intro key lv hlv
  exact Live.residual_spread (fun y => ht.distinct key lv y hlv) (h.evaluate ht hlv)
    (h.own key lv hlv)

theorem Extends.admissible (hmet : s.IsMet values) : Admissible value := by
  have hcases : ∀ x : Symbol, x.IsRestricted → value x = 0 ∨
      ∃ key lv, s.live.get? key = some lv ∧ x ∈ lv.tag.symbols := by
    intro x hx
    by_cases hlive : ∃ key lv, s.live.get? key = some lv ∧ x ∈ lv.tag.symbols
    · exact .inr hlive
    · exact .inl (h.others x hx fun key lv hlv hmem => hlive ⟨key, lv, hlv, hmem⟩)
  constructor
  · intro x hx
    rcases hcases x hx with hzero | ⟨key, lv, hlv, hmem⟩
    · exact hzero.ge
    · rw [h.own key lv hlv x hmem]
      exact Live.spread_nonneg (ht.fits key lv hlv) (hmet key lv hlv) x
  · intro x hx
    rcases hcases x hx.isRestricted with hzero | ⟨key, lv, hlv, hmem⟩
    · exact hzero
    · rw [h.own key lv hlv x hmem]
      exact Live.spread_of_isDummy (ht.fits key lv hlv) (hmet key lv hlv) hmem hx

theorem Extends.cost_eq : s.cost value = s.penalty target values := by
  unfold cost penalty
  congr 1
  apply List.map_congr_left
  rintro ⟨key, lv⟩ hmem
  have hlv := ht.ascending.mem_entries_iff.1 hmem
  exact Live.cost_spread (ht.fits key lv hlv) (fun y => ht.distinct key lv y hlv)
    (h.own key lv hlv)

end Extends

theorem Tagged.penalty_le_cost (ht : s.Tagged) (hw : s.Weighted) (hbalances : s.Balances target value)
    (hnonneg : ∀ x : Symbol, x.IsRestricted → 0 ≤ value x) :
    s.penalty target (s.reading value) ≤ s.cost value := by
  unfold cost penalty
  apply List.sum_le_sum
  rintro ⟨key, lv⟩ hmem
  have hlv := ht.ascending.mem_entries_iff.1 hmem
  have hfits := ht.fits key lv hlv
  exact Live.penalty_le_cost hfits (hw key lv hlv) (hbalances key lv hlv)
    fun x hx => hnonneg x (hfits.kind_ne_external hx)

theorem Weighted.penalty_nonneg (hw : s.Weighted) (ht : s.Tagged) : 0 ≤ s.penalty target values := by
  unfold penalty
  apply List.sum_nonneg
  intro q hq
  obtain ⟨⟨key, lv⟩, hmem, rfl⟩ := List.mem_map.1 hq
  unfold Live.penalty
  split
  · exact le_rfl
  · exact mul_nonneg (hw key lv (ht.ascending.mem_entries_iff.1 hmem)) (lv.gap_nonneg _ _)

end Solver

end ReactiveView
