import Mathlib
import ReactiveView.Proofs.Linear.Meaning
import ReactiveView.Proofs.Simplex.Feasible

/-!
This module contains the equations that the live constraints stand for, one for each constraint in
its own symbols, and what it means that a tableau represents them.
-/

namespace ReactiveView

instance : Std.LawfulEqOrd Variable where
  compare_self := Std.ReflOrd.compare_self (α := Nat)
  eq_of_compare {x y} h := by
    have : x.id = y.id := Std.LawfulEqOrd.eq_of_compare (α := Nat) h
    obtain ⟨_⟩ := x
    obtain ⟨_⟩ := y
    simp_all

instance : Std.TransOrd Variable :=
  inferInstanceAs (Std.TransCmp (compareOn Variable.id))

instance : Std.TransOrd Handle :=
  inferInstanceAs (Std.TransCmp (compareLex (compareOn Handle.rank) (compareOn Handle.number)))

instance : Std.LawfulEqOrd Handle where
  eq_of_compare {a b} h := by
    obtain ⟨hrank, hnumber⟩ := compareLex_eq_eq.1 h
    have hrank : a.rank = b.rank := Std.LawfulEqOrd.eq_of_compare hrank
    have hnumber : a.number = b.number := Std.LawfulEqOrd.eq_of_compare hnumber
    cases a <;> cases b <;> simp_all [Handle.rank, Handle.number]

theorem Tag.other_mem {tag : Tag} {y : Symbol} (h : tag.other = some y) : y ∈ tag.symbols := by
  unfold symbols
  rw [h]
  simp

namespace Live

/-- What the equation of a constraint makes zero: its expression with its own symbols. -/
def residual (lv : Live ℚ) (reading : Variable → ℚ) (target : ℚ) (value : Symbol → ℚ) : ℚ :=
  let e := lv.constraint.expr.evaluate reading
  match lv.constraint.relation, lv.tag.other with
  | .atMost, none => e + value lv.tag.marker
  | .atMost, some error => e + value lv.tag.marker - value error
  | .atLeast, none => e - value lv.tag.marker
  | .atLeast, some error => e - value lv.tag.marker + value error
  | .equal, none => e + value lv.tag.marker
  | .equal, some minus => e - target - value lv.tag.marker + value minus

/-- Whether the equation of a constraint holds. -/
def Balanced (lv : Live ℚ) (reading : Variable → ℚ) (target : ℚ) (value : Symbol → ℚ) : Prop :=
  lv.residual reading target value = 0

/-- The weighted violation of a constraint, in its error symbols. -/
def cost (lv : Live ℚ) (value : Symbol → ℚ) : ℚ :=
  lv.constraint.strength.value
    * ((lv.tag.symbols.filter fun x => x.kind == .error).map value).sum

/-- Whether the symbols are of the kinds that the constraint calls for. -/
def Fits (lv : Live ℚ) : Prop :=
  match lv.constraint.relation, lv.constraint.strength.isRequired with
  | .equal, true => lv.tag.marker.kind = .dummy ∧ lv.tag.other = none
  | .equal, false =>
    lv.tag.marker.kind = .error ∧ ∃ minus, lv.tag.other = some minus ∧ minus.kind = .error
  | _, true => lv.tag.marker.kind = .slack ∧ lv.tag.other = none
  | _, false =>
    lv.tag.marker.kind = .slack ∧ ∃ error, lv.tag.other = some error ∧ error.kind = .error

/-- The factor of the marker in the equation. -/
def sign (lv : Live ℚ) : ℚ :=
  match lv.constraint.relation, lv.tag.other with
  | .atMost, _ => 1
  | .equal, none => 1
  | _, _ => -1

variable {lv : Live ℚ} {reading reading' : Variable → ℚ} {target : ℚ} {value value' : Symbol → ℚ}
variable {x : Symbol} {v : ℚ}

theorem sign_ne_zero (lv : Live ℚ) : lv.sign ≠ 0 := by
  unfold sign
  split <;> norm_num

theorem marker_mem (lv : Live ℚ) : lv.tag.marker ∈ lv.tag.symbols := List.mem_cons_self

theorem residual_congr (hread : lv.constraint.expr.evaluate reading
      = lv.constraint.expr.evaluate reading')
    (hvalue : ∀ x ∈ lv.tag.symbols, value x = value' x) :
    lv.residual reading target value = lv.residual reading' target value' := by
  have hm := hvalue _ lv.marker_mem
  unfold residual
  rw [hread, hm]
  cases ho : lv.tag.other with
  | none => cases lv.constraint.relation <;> rfl
  | some y =>
    have hy := hvalue y (Tag.other_mem ho)
    cases lv.constraint.relation <;> (dsimp only; rw [hy])

theorem residual_update_marker (hne : ∀ y, lv.tag.other = some y → y ≠ lv.tag.marker) (v : ℚ) :
    lv.residual reading target (Function.update value lv.tag.marker v)
      = lv.residual reading target value + lv.sign * (v - value lv.tag.marker) := by
  unfold residual sign
  rw [Function.update_self]
  cases ho : lv.tag.other with
  | none =>
    cases lv.constraint.relation <;> (dsimp only; ring)
  | some y =>
    have hy := Function.update_of_ne (hne y ho) v value
    cases lv.constraint.relation <;> (dsimp only; rw [hy]; ring)

theorem cost_congr (hvalue : ∀ x ∈ lv.tag.symbols, value x = value' x) :
    lv.cost value = lv.cost value' := by
  unfold cost
  congr 2
  apply List.map_congr_left
  intro x hx
  exact hvalue x (List.mem_of_mem_filter hx)

theorem Fits.kind_ne_external (h : lv.Fits) (hx : x ∈ lv.tag.symbols) : x.IsRestricted := by
  unfold Symbol.IsRestricted
  unfold Tag.symbols at hx
  unfold Fits at h
  split at h
  all_goals
    first
    | obtain ⟨hm, ho⟩ := h
      rw [ho] at hx
      simp only [Option.toList_none, List.mem_singleton] at hx
      rw [hx, hm]
      simp
    | obtain ⟨hm, y, ho, hy⟩ := h
      rw [ho] at hx
      simp only [Option.toList_some, List.mem_cons, List.not_mem_nil, or_false] at hx
      rcases hx with rfl | rfl
      · simp [hm]
      · simp [hy]

/-- The constraint of an edit variable: an equality that may be violated in both directions. -/
structure Elastic (lv : Live ℚ) (other : Symbol) : Prop where
  relation_eq : lv.constraint.relation = .equal
  other_eq : lv.tag.other = some other
  distinct : other ≠ lv.tag.marker

theorem Elastic.residual_marker {other : Symbol} {δ : ℚ} (h : lv.Elastic other)
    (reading : Variable → ℚ) (value : Symbol → ℚ) (τ : ℚ) :
    lv.residual reading τ (Function.update value lv.tag.marker (value lv.tag.marker + δ))
      = lv.residual reading (τ + δ) value := by
  unfold residual
  rw [h.relation_eq, h.other_eq]
  dsimp only
  rw [Function.update_self, Function.update_of_ne h.distinct]
  ring

theorem Elastic.residual_other {other : Symbol} {δ : ℚ} (h : lv.Elastic other)
    (reading : Variable → ℚ) (value : Symbol → ℚ) (τ : ℚ) :
    lv.residual reading τ (Function.update value other (value other + -δ))
      = lv.residual reading (τ + δ) value := by
  unfold residual
  rw [h.relation_eq, h.other_eq]
  dsimp only
  rw [Function.update_self, Function.update_of_ne h.distinct.symm]
  ring

/-- Moving a symbol changes a cost by an amount that does not depend on the assignment. -/
theorem exists_cost_update (lv : Live ℚ) (y : Symbol) (d : ℚ) :
    ∃ j, ∀ value : Symbol → ℚ,
      lv.cost (Function.update value y (value y + d)) = lv.cost value + j := by
  have hlist : ∀ l : List Symbol, ∃ j, ∀ value : Symbol → ℚ,
      (l.map (Function.update value y (value y + d))).sum = (l.map value).sum + j := by
    intro l
    induction l with
    | nil => exact ⟨0, fun _ => by simp⟩
    | cons x rest ih =>
      obtain ⟨j, hj⟩ := ih
      by_cases hx : x = y
      · refine ⟨d + j, ?_⟩
        intro value
        rw [List.map_cons, List.sum_cons, List.map_cons, List.sum_cons, hj value, hx,
          Function.update_self]
        ring
      · refine ⟨j, ?_⟩
        intro value
        rw [List.map_cons, List.sum_cons, List.map_cons, List.sum_cons, hj value,
          Function.update_of_ne hx]
        ring
  obtain ⟨j, hj⟩ := hlist (lv.tag.symbols.filter fun x => x.kind == .error)
  refine ⟨lv.constraint.strength.value * j, ?_⟩
  intro value
  unfold cost
  rw [hj value]
  ring

end Live

namespace Solver

/-- What an assignment of the symbols says about the variables. -/
def reading (s : Solver ℚ) (value : Symbol → ℚ) : Variable → ℚ := fun x =>
  match s.vars.get? x with
  | some y => value y
  | none => 0

/-- The target of the constraint of an edit variable; zero for other constraints. -/
def targetOf (s : Solver ℚ) (h : Handle) : ℚ :=
  ((s.edits.values.find? fun edit => edit.handle = h).map Edit.target).getD 0

/-- The weighted violations of all constraints. -/
def cost (s : Solver ℚ) (value : Symbol → ℚ) : ℚ :=
  (s.live.entries.map fun entry => entry.2.cost value).sum

/-- Whether the equations of all constraints hold. -/
def Balances (s : Solver ℚ) (target : Handle → ℚ) (value : Symbol → ℚ) : Prop :=
  ∀ h lv, s.live.get? h = some lv → lv.Balanced (s.reading value) (target h) value

/-- Variables have symbols of their own. -/
structure Registered (s : Solver ℚ) : Prop where
  external : ∀ x y, s.vars.get? x = some y → y.kind = .external
  known : ∀ x y, s.vars.get? x = some y → y.id < s.nextId
  distinct : ∀ x x' y, s.vars.get? x = some y → s.vars.get? x' = some y → x = x'

/-- Constraints have symbols of their own, and their variables are known. -/
structure Tagged (s : Solver ℚ) : Prop where
  ascending : s.live.Ascending
  fits : ∀ h lv, s.live.get? h = some lv → lv.Fits
  distinct : ∀ h lv y, s.live.get? h = some lv → lv.tag.other = some y → y ≠ lv.tag.marker
  known : ∀ h lv, s.live.get? h = some lv → ∀ x ∈ lv.tag.symbols, x.id < s.nextId
  apart : ∀ h lv h' lv', s.live.get? h = some lv → s.live.get? h' = some lv' →
    ∀ x ∈ lv.tag.symbols, x ∈ lv'.tag.symbols → h = h'
  covered : ∀ h lv, s.live.get? h = some lv → ∀ t ∈ lv.constraint.expr.terms, t.coefficient ≠ 0 →
    ∃ y, s.vars.get? t.unknown = some y

/-- The tableau represents the live constraints, at given targets: its solutions are those of their
equations, and on them its objective is their cost, up to a constant. -/
structure Models (s : Solver ℚ) (target : Handle → ℚ) : Prop where
  solved : s.Solved
  idle : s.artificial = none
  registered : s.Registered
  tagged : s.Tagged
  satisfies_iff : ∀ value, s.Satisfies value ↔ s.Balances target value
  objective : ∃ k, ∀ value, s.Satisfies value → s.objective.eval value = k + s.cost value

variable {s t : Solver ℚ} {value value' : Symbol → ℚ} {x : Symbol} {h : Handle} {lv : Live ℚ}
variable {target : Handle → ℚ}

theorem reading_of_get? {x : Variable} {y : Symbol} (hy : s.vars.get? x = some y) :
    s.reading value x = value y := by
  unfold reading
  rw [hy]

theorem reading_of_vars (hvars : t.vars = s.vars) (value : Symbol → ℚ) :
    t.reading value = s.reading value := by
  unfold reading
  rw [hvars]

theorem Registered.reading_congr (hr : s.Registered)
    (hvalue : ∀ y : Symbol, y.kind = .external → value y = value' y) :
    s.reading value = s.reading value' := by
  funext x
  unfold reading
  split
  · next y hy => exact hvalue y (hr.external x y hy)
  · rfl

theorem Registered.reading_update (hr : s.Registered) (hx : x.IsRestricted) (v : ℚ) :
    s.reading (Function.update value x v) = s.reading value := by
  apply hr.reading_congr
  intro y hy
  apply Function.update_of_ne
  rintro rfl
  exact hx hy

/-- The values of a solution are those of the system it was taken from. -/
theorem value_solution {α : Type} [Scalar α] (s : Solver α) (x : Variable) :
    s.solution.value x = s.value x := by
  have hlookup : s.solution.values.get? x = (s.vars.get? x).map fun _ => s.value x :=
    Table.lookup_map_key s.value x s.vars.entries
  unfold Solution.value
  rw [hlookup]
  unfold Solver.value
  cases s.vars.get? x with
  | none => rfl
  | some y => rfl

/-- The values of the variables are those at the corner. -/
theorem reading_corner (s : Solver ℚ) : s.reading s.corner = s.value := by
  funext x
  unfold Solver.value reading
  cases s.vars.get? x with
  | none => rfl
  | some y =>
    simp only [Option.bind_some]
    cases hrow : s.rows.get? y with
    | none => exact corner_of_not_isBasic (not_isBasic_iff.2 hrow)
    | some row => exact corner_of_get? hrow

theorem Registered.congr (hr : s.Registered) (hvars : t.vars = s.vars) (hid : s.nextId ≤ t.nextId) :
    t.Registered := by
  refine ⟨?_, ?_, ?_⟩
  · rw [hvars]
    exact hr.external
  · intro x y hy
    rw [hvars] at hy
    exact (hr.known x y hy).trans_le hid
  · rw [hvars]
    exact hr.distinct

/-! ### Changes that keep the constraints -/

theorem evaluate_reading_congr {e : LinearExpr ℚ}
    (hcovered : ∀ u ∈ e.terms, u.coefficient ≠ 0 → ∃ y, s.vars.get? u.unknown = some y)
    (hvars : ∀ x y, s.vars.get? x = some y → t.vars.get? x = some y) (value : Symbol → ℚ) :
    e.evaluate (t.reading value) = e.evaluate (s.reading value) := by
  apply LinearExpr.evaluate_congr
  intro u hu hc
  obtain ⟨y, hy⟩ := hcovered u hu hc
  unfold reading
  rw [hy, hvars _ y hy]

section Grow

variable (hlive : t.live = s.live)
  (hvars : ∀ x y, s.vars.get? x = some y → t.vars.get? x = some y)
include hlive hvars

theorem Tagged.grow (ht : s.Tagged) (hid : s.nextId ≤ t.nextId) : t.Tagged := by
  refine ⟨?_, ?_, ?_, ?_, ?_, ?_⟩
  · rw [hlive]
    exact ht.ascending
  · rw [hlive]
    exact ht.fits
  · rw [hlive]
    exact ht.distinct
  · intro h lv hlv x hx
    rw [hlive] at hlv
    exact (ht.known h lv hlv x hx).trans_le hid
  · rw [hlive]
    exact ht.apart
  · intro h lv hlv u hu hc
    rw [hlive] at hlv
    obtain ⟨y, hy⟩ := ht.covered h lv hlv u hu hc
    exact ⟨y, hvars _ y hy⟩

theorem Tagged.balances_grow_iff (ht : s.Tagged) :
    t.Balances target value ↔ s.Balances target value := by
  unfold Balances
  rw [hlive]
  refine forall_congr' fun h => forall_congr' fun lv => imp_congr_right fun hlv => ?_
  unfold Live.Balanced
  rw [Live.residual_congr (evaluate_reading_congr (ht.covered h lv hlv) hvars value) fun _ _ => rfl]

theorem Models.grow (hm : s.Models target) (hreg : t.Registered) (hid : s.nextId ≤ t.nextId)
    (hs : t.Solved) (hart : t.artificial = none)
    (hsat : ∀ value, t.Satisfies value ↔ s.Satisfies value)
    (hobj : ∀ value, s.Satisfies value → t.objective.eval value = s.objective.eval value) :
    t.Models target where
  solved := hs
  idle := hart
  registered := hreg
  tagged := hm.tagged.grow hlive hvars hid
  satisfies_iff value := by
    rw [hsat, hm.satisfies_iff, hm.tagged.balances_grow_iff hlive hvars]
  objective := by
    obtain ⟨k, hk⟩ := hm.objective
    refine ⟨k, ?_⟩
    intro value hv
    have hv' := (hsat value).1 hv
    rw [hobj value hv', hk value hv']
    unfold cost
    rw [hlive]

end Grow

/-- Only the rows have changed. -/
theorem Models.congr (hm : s.Models target) (hlive : t.live = s.live) (hvars : t.vars = s.vars)
    (hid : s.nextId ≤ t.nextId) (hs : t.Solved) (hart : t.artificial = none)
    (hsat : ∀ value, t.Satisfies value ↔ s.Satisfies value)
    (hobj : ∀ value, s.Satisfies value → t.objective.eval value = s.objective.eval value) :
    t.Models target := by
  refine hm.grow hlive ?_ (hm.registered.congr hvars hid) hid hs hart hsat hobj
  intro x y hy
  rw [hvars]
  exact hy

/-! ### Constraints that come -/

section Insert

variable (ht : s.Tagged) (hnone : s.live.get? h = none) (hlive : t.live = s.live.insert h lv)
  (hvars : ∀ x y, s.vars.get? x = some y → t.vars.get? x = some y)
include ht hlive hvars

theorem Tagged.insert (hfits : lv.Fits)
    (hdistinct : ∀ y, lv.tag.other = some y → y ≠ lv.tag.marker)
    (hold : ∀ x ∈ lv.tag.symbols, s.nextId ≤ x.id)
    (hknown : ∀ x ∈ lv.tag.symbols, x.id < t.nextId) (hid : s.nextId ≤ t.nextId)
    (hcovered : ∀ u ∈ lv.constraint.expr.terms, u.coefficient ≠ 0 →
      ∃ y, t.vars.get? u.unknown = some y) : t.Tagged := by
  have hcases : ∀ h' lv', t.live.get? h' = some lv' →
      h' = h ∧ lv' = lv ∨ s.live.get? h' = some lv' := by
    intro h' lv' hlv'
    rw [hlive] at hlv'
    exact Table.of_get?_insert hlv'
  refine ⟨?_, ?_, ?_, ?_, ?_, ?_⟩
  · rw [hlive]
    exact ht.ascending.insert h lv
  · intro h' lv' hlv'
    rcases hcases h' lv' hlv' with ⟨-, rfl⟩ | hlv'
    · exact hfits
    · exact ht.fits h' lv' hlv'
  · intro h' lv' y hlv'
    rcases hcases h' lv' hlv' with ⟨-, rfl⟩ | hlv'
    · exact hdistinct y
    · exact ht.distinct h' lv' y hlv'
  · intro h' lv' hlv' x hx
    rcases hcases h' lv' hlv' with ⟨-, rfl⟩ | hlv'
    · exact hknown x hx
    · exact (ht.known h' lv' hlv' x hx).trans_le hid
  · -- A symbol of the new constraint has a number that no old one has.
    intro h₁ lv₁ h₂ lv₂ hlv₁ hlv₂ x hx₁ hx₂
    rcases hcases h₁ lv₁ hlv₁ with ⟨rfl, rfl⟩ | hlv₁
    · rcases hcases h₂ lv₂ hlv₂ with ⟨rfl, -⟩ | hlv₂
      · rfl
      · have := hold x hx₁
        have := ht.known h₂ lv₂ hlv₂ x hx₂
        omega
    · rcases hcases h₂ lv₂ hlv₂ with ⟨rfl, rfl⟩ | hlv₂
      · have := hold x hx₂
        have := ht.known h₁ lv₁ hlv₁ x hx₁
        omega
      · exact ht.apart h₁ lv₁ h₂ lv₂ hlv₁ hlv₂ x hx₁ hx₂
  · intro h' lv' hlv' u hu hc
    rcases hcases h' lv' hlv' with ⟨-, rfl⟩ | hlv'
    · exact hcovered u hu hc
    · obtain ⟨y, hy⟩ := ht.covered h' lv' hlv' u hu hc
      exact ⟨y, hvars _ y hy⟩

include hnone

theorem Tagged.balances_insert_iff :
    t.Balances target value ↔
      s.Balances target value ∧ lv.Balanced (t.reading value) (target h) value := by
  have hsame : ∀ h' lv', s.live.get? h' = some lv' →
      (lv'.Balanced (t.reading value) (target h') value ↔
        lv'.Balanced (s.reading value) (target h') value) := by
    intro h' lv' hlv'
    unfold Live.Balanced
    rw [Live.residual_congr (evaluate_reading_congr (ht.covered h' lv' hlv') hvars value)
      fun _ _ => rfl]
  have hne : ∀ h' lv', s.live.get? h' = some lv' → h' ≠ h := by
    rintro h' lv' hlv' rfl
    rw [hnone] at hlv'
    cases hlv'
  constructor
  · intro hb
    constructor
    · intro h' lv' hlv'
      rw [← hsame h' lv' hlv']
      apply hb
      rw [hlive, Table.get?_insert, if_neg (hne h' lv' hlv')]
      exact hlv'
    · apply hb
      rw [hlive, Table.get?_insert_self]
  · rintro ⟨hb, hnew⟩ h' lv' hlv'
    rw [hlive] at hlv'
    rcases Table.of_get?_insert hlv' with ⟨rfl, rfl⟩ | hlv'
    · exact hnew
    · rw [hsame h' lv' hlv']
      exact hb h' lv' hlv'

omit hvars in
theorem Tagged.cost_insert (value : Symbol → ℚ) : t.cost value = s.cost value + lv.cost value := by
  unfold cost
  rw [hlive, ht.ascending.sum_insert h lv fun entry => entry.2.cost value,
    Table.erase_eq_self hnone]
  ring

end Insert

/-! ### Constraints that go -/

section Erase

variable (ht : s.Tagged) (hr : s.Registered) (hlv : s.live.get? h = some lv)
  (hlive : t.live = s.live.erase h)
include ht hlv

theorem Tagged.not_mem_of_ne {h' : Handle} {lv' : Live ℚ} (hlv' : s.live.get? h' = some lv')
    (hne : h' ≠ h) : ∀ x ∈ lv'.tag.symbols, x ≠ lv.tag.marker := by
  rintro x hx rfl
  exact hne (ht.apart h' lv' h lv hlv' hlv _ hx lv.marker_mem)

include hlive

omit hlv in
theorem Tagged.erase (hvars : t.vars = s.vars) (hid : s.nextId ≤ t.nextId) : t.Tagged := by
  have hold : ∀ h' lv', t.live.get? h' = some lv' → s.live.get? h' = some lv' := by
    intro h' lv' hlv'
    rw [hlive] at hlv'
    exact (Table.of_get?_erase hlv').2
  refine ⟨?_, ?_, ?_, ?_, ?_, ?_⟩
  · rw [hlive]
    exact ht.ascending.erase h
  · intro h' lv' hlv'
    exact ht.fits h' lv' (hold h' lv' hlv')
  · intro h' lv' y hlv'
    exact ht.distinct h' lv' y (hold h' lv' hlv')
  · intro h' lv' hlv' x hx
    exact (ht.known h' lv' (hold h' lv' hlv') x hx).trans_le hid
  · intro h₁ lv₁ h₂ lv₂ hlv₁ hlv₂
    exact ht.apart h₁ lv₁ h₂ lv₂ (hold h₁ lv₁ hlv₁) (hold h₂ lv₂ hlv₂)
  · intro h' lv' hlv'
    rw [hvars]
    exact ht.covered h' lv' (hold h' lv' hlv')

theorem Tagged.cost_erase (v : ℚ) :
    t.cost value = s.cost (Function.update value lv.tag.marker v)
      - lv.cost (Function.update value lv.tag.marker v) := by
  have hsame : t.cost (Function.update value lv.tag.marker v) = t.cost value := by
    unfold cost
    congr 1
    apply List.map_congr_left
    rintro ⟨h', lv'⟩ hmem
    rw [hlive] at hmem
    obtain ⟨hne, hget⟩ := Table.of_get?_erase ((ht.ascending.erase h).mem_entries_iff.1 hmem)
    apply Live.cost_congr
    intro x hx
    exact Function.update_of_ne (ht.not_mem_of_ne hlv hget hne x hx) _ _
  rw [← hsame]
  unfold cost
  rw [hlive, ht.ascending.sum_erase hlv fun entry =>
    entry.2.cost (Function.update value lv.tag.marker v)]
  ring

include hr

/-- Without a constraint its marker is free: some value of it makes up for the constraint. -/
theorem Tagged.balances_erase_iff (hvars : t.vars = s.vars) {target' : Handle → ℚ}
    (htarget : ∀ h', h' ≠ h → target' h' = target h') :
    t.Balances target' value ↔ ∃ v, s.Balances target (Function.update value lv.tag.marker v) := by
  have hm : lv.tag.marker.IsRestricted := (ht.fits h lv hlv).kind_ne_external lv.marker_mem
  have hsame : ∀ v h' lv', s.live.get? h' = some lv' → h' ≠ h →
      (lv'.Balanced (s.reading (Function.update value lv.tag.marker v)) (target h')
          (Function.update value lv.tag.marker v) ↔
        lv'.Balanced (t.reading value) (target' h') value) := by
    intro v h' lv' hlv' hne
    unfold Live.Balanced
    rw [hr.reading_update hm, reading_of_vars hvars, htarget h' hne, Live.residual_congr rfl]
    intro x hx
    exact Function.update_of_ne (ht.not_mem_of_ne hlv hlv' hne x hx) _ _
  constructor
  · -- The marker takes the value that makes the constraint's own residual zero.
    intro hb
    refine ⟨value lv.tag.marker - lv.residual (s.reading value) (target h) value / lv.sign, ?_⟩
    intro h' lv' hlv'
    by_cases hne : h' = h
    · subst hne
      rw [hlv] at hlv'
      cases hlv'
      unfold Live.Balanced
      rw [hr.reading_update hm, Live.residual_update_marker (ht.distinct h' lv · hlv)]
      have := lv.sign_ne_zero
      field_simp
      ring
    · rw [hsame _ h' lv' hlv' hne]
      exact hb h' lv' (by rw [hlive, Table.get?_erase_ne _ hne, hlv'])
  · rintro ⟨v, hb⟩ h' lv' hlv'
    rw [hlive] at hlv'
    obtain ⟨hne, hlv'⟩ := Table.of_get?_erase hlv'
    rw [← hsame v h' lv' hlv' hne]
    exact hb h' lv' hlv'

end Erase

end Solver

end ReactiveView
