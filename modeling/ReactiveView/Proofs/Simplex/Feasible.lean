import Mathlib
import ReactiveView.Proofs.Simplex.Loops

/-!
This module contains the signs of a tableau: which kinds of symbols its rows speak about, and that
the restricted symbols are not negative at its corner.
-/

namespace ReactiveView

namespace Row

/-- Whether a row speaks about symbols of one sort only. -/
def Within (row : Row ℚ) (sort : Symbol → Prop) : Prop :=
  ∀ x, row.coefficient x ≠ 0 → sort x

variable {row d : Row ℚ} {e l : Symbol} {sort : Symbol → Prop}

theorem Within.coefficient (h : row.Within sort) (hx : ¬sort e) : row.coefficient e = 0 := by
  by_contra hne
  exact hx (h e hne)

theorem Within.substitute (h : row.Within sort) (hn : row.Normal) (hdn : d.Normal)
    (hd : row.coefficient e ≠ 0 → d.Within sort) : (row.substitute e d).Within sort := by
  by_cases he : row.coefficient e = 0
  · rw [substitute_of_coefficient hn he]
    exact h
  · -- A symbol of the new row comes from the row itself or from the definition.
    intro x hx
    rw [coefficient_substitute hn hdn] at hx
    by_cases hrow : row.coefficient x = 0
    · by_cases hdx : d.coefficient x = 0
      · by_cases hxe : x = e
        · exact absurd hrow (hxe ▸ he)
        · rw [hrow, hdx, if_neg hxe] at hx
          exact absurd (by ring) hx
      · exact hd he x hdx
    · exact h x hrow

theorem Within.solvedFor (h : row.Within sort) (hn : row.Normal) (he : row.coefficient e ≠ 0) :
    (row.solvedFor e).Within sort := by
  intro x hx
  rw [coefficient_solvedFor hn he] at hx
  apply h
  intro hrow
  rw [hrow] at hx
  simp at hx

theorem Within.exchanged (h : row.Within sort) (hn : row.Normal) (hl : sort l) (hle : l ≠ e)
    (he : row.coefficient e ≠ 0) : (row.exchanged l e).Within sort := by
  intro x hx
  rw [coefficient_exchanged hn hle he] at hx
  by_cases hxl : x = l
  · exact hxl ▸ hl
  · apply h
    intro hrow
    rw [hrow, if_neg hxl] at hx
    simp at hx

theorem Within.remove (h : row.Within sort) (e : Symbol) : (row.remove e).Within sort := by
  intro x hx
  rw [coefficient_remove] at hx
  split at hx
  · exact absurd rfl hx
  · exact h x hx

theorem Within.addRow (h : row.Within sort) (hn : row.Normal) (hd : d.Within sort)
    (hdn : d.Normal) (c : ℚ) : (row.addRow d c).Within sort := by
  intro x hx
  rw [coefficient_addRow hn hdn] at hx
  by_cases hrow : row.coefficient x = 0
  · apply hd
    intro hdx
    rw [hrow, hdx] at hx
    simp at hx
  · exact h x hrow

theorem Within.addSymbol (h : row.Within sort) (he : sort e) (c : ℚ) :
    (row.addSymbol e c).Within sort := by
  intro x hx
  rw [coefficient_addSymbol] at hx
  by_cases hxe : x = e
  · exact hxe ▸ he
  · rw [if_neg hxe, add_zero] at hx
    exact h x hx

end Row

/-- Whether a symbol has a sign to keep. -/
def Symbol.IsRestricted (x : Symbol) : Prop := x.kind ≠ .external

/-- Whether a symbol has to be zero. -/
def Symbol.IsDummy (x : Symbol) : Prop := x.kind = .dummy

instance : DecidablePred Symbol.IsRestricted :=
  fun x => inferInstanceAs (Decidable (x.kind ≠ .external))

instance : DecidablePred Symbol.IsDummy :=
  fun x => inferInstanceAs (Decidable (x.kind = .dummy))

theorem Symbol.IsDummy.isRestricted {x : Symbol} (h : x.IsDummy) : x.IsRestricted := by
  unfold IsDummy at h
  unfold IsRestricted
  rw [h]
  simp

namespace Solver

/-- The rows that have to speak about restricted symbols only. -/
def HasRestrictedRow (s : Solver ℚ) (row : Row ℚ) : Prop :=
  (∃ b, s.rows.get? b = some row ∧ b.IsRestricted) ∨ row = s.objective ∨ s.artificial = some row

/-- Variables are used by the definitions of variables only. -/
def Closed (s : Solver ℚ) : Prop :=
  ∀ row, s.HasRestrictedRow row → row.Within Symbol.IsRestricted

/-- No restricted symbol is negative at the corner. -/
def Nonneg (s : Solver ℚ) : Prop :=
  ∀ b row, s.rows.get? b = some row → b.IsRestricted → 0 ≤ row.constant

/-- Basic dummies are sums of dummies. -/
def Pinned (s : Solver ℚ) : Prop :=
  ∀ b row, s.rows.get? b = some row → b.IsDummy →
    row.constant = 0 ∧ row.Within Symbol.IsDummy

/-- No parametric symbol that may grow makes the objective smaller. -/
def Optimal (s : Solver ℚ) : Prop :=
  ∀ x, ¬x.IsDummy → 0 ≤ s.objective.coefficient x

/-- What is noted are restricted symbols, and among them all negative ones. -/
structure Noted (s : Solver ℚ) : Prop where
  restricted : ∀ x ∈ s.infeasible, x.IsRestricted
  negative : ∀ b row, s.rows.get? b = some row → b.IsRestricted → row.constant < 0 →
    b ∈ s.infeasible

variable {s t : Solver ℚ} {row d : Row ℚ} {b e l : Symbol} {goal : Goal}

theorem HasRestrictedRow.basic (h : s.rows.get? b = some row) (hb : b.IsRestricted) :
    s.HasRestrictedRow row := .inl ⟨b, h, hb⟩

theorem HasRestrictedRow.objective : s.HasRestrictedRow s.objective := .inr (.inl rfl)

theorem HasRestrictedRow.artificial (h : s.artificial = some row) : s.HasRestrictedRow row :=
  .inr (.inr h)

theorem HasRestrictedRow.hasRow (h : s.HasRestrictedRow row) : s.HasRow row := by
  rcases h with ⟨b, hb, -⟩ | hobj | hart
  · exact .basic hb
  · exact .inr (.inl hobj)
  · exact .artificial hart

theorem Nonneg.noted (h : s.Nonneg) (hr : ∀ x ∈ s.infeasible, x.IsRestricted) : s.Noted where
  restricted := hr
  negative b row hrow hb hneg := absurd hneg (not_lt.2 (h b row hrow hb))

theorem Noted.nonneg (h : s.Noted) (hnone : s.infeasible = []) : s.Nonneg := by
  intro b row hrow hb
  by_contra hneg
  have := h.negative b row hrow hb (not_le.1 hneg)
  rw [hnone] at this
  cases this

/-! ### Rows that come and go -/

theorem hasRestrictedRow_forget (h : (s.forget b).HasRestrictedRow row) :
    s.HasRestrictedRow row := by
  rcases h with ⟨b', hb', hk⟩ | hobj | hart
  · exact .basic (of_get?_forget hb').2 hk
  · exact .inr (.inl hobj)
  · exact .artificial hart

theorem hasRestrictedRow_substitute (h : (s.substitute e d).HasRestrictedRow row) :
    ∃ row₀, s.HasRestrictedRow row₀ ∧ row = row₀.substitute e d := by
  rcases h with ⟨b, hb, hk⟩ | hobj | hart
  · rw [get?_substitute] at hb
    obtain ⟨row₀, hrow₀, rfl⟩ := Option.map_eq_some_iff.1 hb
    exact ⟨row₀, .basic hrow₀ hk, rfl⟩
  · exact ⟨s.objective, .objective, hobj⟩
  · obtain ⟨row₀, hrow₀, rfl⟩ := Option.map_eq_some_iff.1 hart
    exact ⟨row₀, .artificial hrow₀, rfl⟩

theorem hasRestrictedRow_install (h : (s.install e d).HasRestrictedRow row) :
    (row = d ∧ e.IsRestricted) ∨ (s.substitute e d).HasRestrictedRow row := by
  rcases h with ⟨b, hb, hk⟩ | hobj | hart
  · rcases of_get?_install hb with ⟨rfl, rfl⟩ | hb
    · exact .inl ⟨rfl, hk⟩
    · exact .inr (.basic hb hk)
  · exact .inr (.inr (.inl hobj))
  · exact .inr (.artificial hart)

theorem Closed.forget (h : s.Closed) (b : Symbol) : (s.forget b).Closed :=
  fun row hrow => h row (hasRestrictedRow_forget hrow)

theorem Nonneg.forget (h : s.Nonneg) (b : Symbol) : (s.forget b).Nonneg := by
  intro b' row hrow hb'
  exact h b' row (of_get?_forget hrow).2 hb'

theorem Pinned.forget (h : s.Pinned) (b : Symbol) : (s.forget b).Pinned := by
  intro b' row hrow hb'
  exact h b' row (of_get?_forget hrow).2 hb'

theorem Closed.substitute (h : s.Closed) (hs : s.Solved) (hd : d.Normal)
    (hrest : ∀ row, s.HasRestrictedRow row → row.coefficient e ≠ 0 → d.Within Symbol.IsRestricted) :
    (s.substitute e d).Closed := by
  intro row hrow
  obtain ⟨row₀, hrow₀, rfl⟩ := hasRestrictedRow_substitute hrow
  exact (h row₀ hrow₀).substitute (hs.normal _ hrow₀.hasRow) hd (hrest row₀ hrow₀)

/-- A definition may use variables if it is that of a variable. -/
theorem Closed.install (h : s.Closed) (hs : s.Solved) (hd : d.Normal)
    (he : e.IsRestricted → d.Within Symbol.IsRestricted) : (s.install e d).Closed := by
  intro row hrow
  rcases hasRestrictedRow_install hrow with ⟨rfl, hk⟩ | hrow
  · exact he hk
  · refine h.substitute hs hd ?_ row hrow
    intro row₀ hrow₀ hne
    exact he (h row₀ hrow₀ e hne)

theorem Nonneg.substitute (hs : s.Solved)
    (hrest : ∀ b row, s.rows.get? b = some row → b.IsRestricted →
      0 ≤ row.constant + row.coefficient e * d.constant) : (s.substitute e d).Nonneg := by
  intro b row hrow hb
  rw [get?_substitute] at hrow
  obtain ⟨row₀, hrow₀, rfl⟩ := Option.map_eq_some_iff.1 hrow
  rw [Row.constant_substitute (hs.normal _ (.basic hrow₀))]
  exact hrest b row₀ hrow₀ hb

theorem Nonneg.install (hs : s.Solved) (hd : e.IsRestricted → 0 ≤ d.constant)
    (hrest : ∀ b row, s.rows.get? b = some row → b.IsRestricted →
      0 ≤ row.constant + row.coefficient e * d.constant) : (s.install e d).Nonneg := by
  intro b row hrow hb
  rcases of_get?_install hrow with ⟨rfl, rfl⟩ | hrow
  · exact hd hb
  · exact Nonneg.substitute hs hrest b row hrow hb

theorem Pinned.substitute (h : s.Pinned) (hs : s.Solved) (hd : d.Normal)
    (hrest : ∀ b row, s.rows.get? b = some row → b.IsDummy → row.coefficient e ≠ 0 →
      d.constant = 0 ∧ d.Within Symbol.IsDummy) : (s.substitute e d).Pinned := by
  intro b row hrow hb
  rw [get?_substitute] at hrow
  obtain ⟨row₀, hrow₀, rfl⟩ := Option.map_eq_some_iff.1 hrow
  have hn := hs.normal _ (.basic hrow₀)
  obtain ⟨hzero, hwithin⟩ := h b row₀ hrow₀ hb
  refine ⟨?_, hwithin.substitute hn hd fun hne => (hrest b row₀ hrow₀ hb hne).2⟩
  rw [Row.constant_substitute hn, hzero]
  by_cases hne : row₀.coefficient e = 0
  · rw [hne]
    ring
  · rw [(hrest b row₀ hrow₀ hb hne).1]
    ring

/-- The definition of a dummy has to be a sum of dummies. -/
theorem Pinned.install (h : s.Pinned) (hs : s.Solved) (hd : d.Normal)
    (he : e.IsDummy → d.constant = 0 ∧ d.Within Symbol.IsDummy) : (s.install e d).Pinned := by
  intro b row hrow hb
  rcases of_get?_install hrow with ⟨rfl, rfl⟩ | hrow
  · exact he hb
  · refine h.substitute hs hd ?_ b row hrow hb
    intro b' row' hrow' hb' hne
    exact he ((h b' row' hrow' hb').2 e hne)

theorem Closed.congr (h : s.Closed) (hrows : t.rows = s.rows) (hobj : t.objective = s.objective)
    (hart : t.artificial = s.artificial) : t.Closed := by
  intro row hrow
  apply h
  unfold HasRestrictedRow at *
  rw [← hrows, ← hobj, ← hart]
  exact hrow

theorem Nonneg.congr (h : s.Nonneg) (hrows : t.rows = s.rows) : t.Nonneg := by
  intro b row hrow
  rw [hrows] at hrow
  exact h b row hrow

theorem Pinned.congr (h : s.Pinned) (hrows : t.rows = s.rows) : t.Pinned := by
  intro b row hrow
  rw [hrows] at hrow
  exact h b row hrow

theorem hasRestrictedRow_clear (h : (s.clear e).HasRestrictedRow row) :
    ∃ row₀, s.HasRestrictedRow row₀ ∧ (row = row₀.remove e ∨ row = row₀) := by
  rcases h with ⟨b, hb, hk⟩ | hobj | hart
  · rw [get?_clear] at hb
    obtain ⟨row₀, hrow₀, rfl⟩ := Option.map_eq_some_iff.1 hb
    exact ⟨row₀, .basic hrow₀ hk, .inl rfl⟩
  · exact ⟨s.objective, .objective, .inl hobj⟩
  · exact ⟨row, .artificial hart, .inr rfl⟩

theorem Closed.clear (h : s.Closed) (x : Symbol) : (s.clear x).Closed := by
  intro row hrow
  obtain ⟨row₀, hrow₀, rfl | rfl⟩ := hasRestrictedRow_clear hrow
  · exact (h row₀ hrow₀).remove x
  · exact h _ hrow₀

theorem Nonneg.clear (h : s.Nonneg) (x : Symbol) : (s.clear x).Nonneg := by
  intro b row hrow hb
  rw [get?_clear] at hrow
  obtain ⟨row₀, hrow₀, rfl⟩ := Option.map_eq_some_iff.1 hrow
  exact h b row₀ hrow₀ hb

theorem Pinned.clear (h : s.Pinned) (x : Symbol) : (s.clear x).Pinned := by
  intro b row hrow hb
  rw [get?_clear] at hrow
  obtain ⟨row₀, hrow₀, rfl⟩ := Option.map_eq_some_iff.1 hrow
  exact ⟨(h b row₀ hrow₀ hb).1, (h b row₀ hrow₀ hb).2.remove x⟩

/-! ### Pivots -/

theorem Closed.pivot (h : s.Closed) (hs : s.Solved) (hrow : s.rows.get? l = some row)
    (he : row.coefficient e ≠ 0) (hl : l.IsRestricted) : (s.pivot l e row).Closed := by
  have hle := hs.ne_of_coefficient hrow he
  have hn := hs.normal row (.basic hrow)
  rw [pivot_eq]
  apply (h.forget l).install (hs.forget l) (hn.exchanged hle he)
  intro _
  exact (h row (.basic hrow hl)).exchanged hn hl hle he

theorem Pinned.pivot (h : s.Pinned) (hs : s.Solved) (hrow : s.rows.get? l = some row)
    (he : row.coefficient e ≠ 0) (hdummy : ¬e.IsDummy) : (s.pivot l e row).Pinned := by
  have hle := hs.ne_of_coefficient hrow he
  rw [pivot_eq]
  apply (h.forget l).install (hs.forget l) ((hs.normal row (.basic hrow)).exchanged hle he)
  intro hd
  exact absurd hd hdummy

/-- A pivot keeps signs if the new value of the entering symbol keeps them. -/
theorem Nonneg.pivot (hs : s.Solved) (hrow : s.rows.get? l = some row)
    (he : row.coefficient e ≠ 0) (hentering : 0 ≤ -row.constant / row.coefficient e)
    (hrest : ∀ b row', s.rows.get? b = some row' → b.IsRestricted → b ≠ l →
      0 ≤ row'.constant + row'.coefficient e * (-row.constant / row.coefficient e)) :
    (s.pivot l e row).Nonneg := by
  have hle := hs.ne_of_coefficient hrow he
  have hn := hs.normal row (.basic hrow)
  rw [pivot_eq]
  apply Nonneg.install (hs.forget l)
  · intro _
    rw [Row.constant_exchanged hn hle he]
    exact hentering
  · intro b row' hrow' hb
    rw [Row.constant_exchanged hn hle he]
    obtain ⟨hbl, hrow'⟩ := of_get?_forget hrow'
    exact hrest b row' hrow' hb hbl

/-- The least ratio is the most that an entering symbol can have. -/
theorem Nonneg.of_least_ratio (h : s.Nonneg) {ratio : ℚ} (hratio : 0 ≤ ratio)
    (hmin : ∀ b row, s.rows.get? b = some row → b.IsRestricted → row.coefficient e < 0 →
      ratio ≤ -row.constant / row.coefficient e)
    (hrow : s.rows.get? b = some row) (hb : b.IsRestricted) :
    0 ≤ row.constant + row.coefficient e * ratio := by
  have hk := h b row hrow hb
  rcases lt_or_ge (row.coefficient e) 0 with hneg | hpos
  · have hr := hmin b row hrow hb hneg
    rw [le_div_iff_of_neg hneg] at hr
    linarith
  · have := mul_nonneg hpos hratio
    linarith

/-! ### Notes -/

/-- Whether only restricted symbols are noted. -/
def Notes (s : Solver ℚ) : Prop := ∀ x ∈ s.infeasible, x.IsRestricted

theorem mem_infeasible_substitute (ha : s.rows.Ascending) {x : Symbol} :
    x ∈ (s.substitute e d).infeasible ↔
      (∃ row, (s.substitute e d).rows.get? x = some row ∧ x.IsRestricted ∧ row.constant < 0) ∨
        x ∈ s.infeasible := by
  have ha' : (s.substitute e d).rows.Ascending := ha.mapValues _
  have hnoted : (s.substitute e d).infeasible
      = ((s.substitute e d).rows.entries.filterMap fun (basic, row) =>
          if basic.kind != .external && Scalar.isNegative row.constant then some basic
          else none).reverse ++ s.infeasible := rfl
  rw [hnoted, List.mem_append, List.mem_reverse, List.mem_filterMap]
  apply or_congr_left
  constructor
  · rintro ⟨⟨y, row⟩, hmem, hy⟩
    rw [Option.ite_none_right_eq_some] at hy
    obtain ⟨hcond, hyx⟩ := hy
    cases hyx
    refine ⟨row, ha'.mem_entries_iff.1 hmem, ?_⟩
    simpa [Symbol.IsRestricted] using hcond
  · rintro ⟨row, hrow, hx, hneg⟩
    refine ⟨(x, row), ha'.mem_entries_iff.2 hrow, ?_⟩
    rw [Option.ite_none_right_eq_some]
    refine ⟨?_, rfl⟩
    simpa using ⟨hx, hneg⟩

theorem Notes.substitute (h : s.Notes) (ha : s.rows.Ascending) : (s.substitute e d).Notes := by
  intro x hx
  rcases (mem_infeasible_substitute ha).1 hx with ⟨row, -, hr, -⟩ | hx
  · exact hr
  · exact h x hx

theorem Notes.install (h : s.Notes) (ha : s.rows.Ascending) : (s.install e d).Notes :=
  h.substitute ha

theorem Notes.pivot (h : s.Notes) (ha : s.rows.Ascending) : (s.pivot l e row).Notes :=
  Notes.install (s := s.forget l) h (ha.erase l)

/-! ### The primal loop -/

theorem PrimalStep.exists_row (h : PrimalStep goal s t) (hs : s.Solved) :
    ∃ e l row g, s.goalRow goal = some g ∧ s.HasRestrictedRow g ∧ g.coefficient e < 0 ∧
      ¬e.IsDummy ∧ s.rows.get? l = some row ∧ l.IsRestricted ∧ row.coefficient e < 0 ∧
      (∀ b row', s.rows.get? b = some row' → b.IsRestricted → row'.coefficient e < 0 →
        -row.constant / row.coefficient e ≤ -row'.constant / row'.coefficient e) ∧
      t = s.pivot l e row := by
  cases h with
  | @pivot e l row he hl hrow =>
    obtain ⟨g, hg, hentering⟩ := Option.bind_eq_some_iff.1 he
    have hgrow : s.HasRestrictedRow g := by
      cases goal with
      | main =>
        cases hg
        exact .objective
      | artificial => exact .artificial hg
    obtain ⟨hkind, hneg⟩ := entering?_eq_some (hs.normal g hgrow.hasRow) hentering
    obtain ⟨row', hrow', hlk, hrneg, hmin⟩ := leaving?_eq_some hs.ascending hl
    rw [hrow] at hrow'
    cases hrow'
    exact ⟨e, l, row, g, hg, hgrow, hneg, hkind, hrow, hlk, hrneg, hmin, rfl⟩

theorem PrimalStep.solved (h : PrimalStep goal s t) (hs : s.Solved) : t.Solved := by
  obtain ⟨e, l, row, g, -, -, -, -, hrow, -, hneg, -, rfl⟩ := h.exists_row hs
  exact hs.pivot hrow hneg.ne

theorem PrimalStep.satisfies_iff (h : PrimalStep goal s t) (hs : s.Solved) (value : Symbol → ℚ) :
    t.Satisfies value ↔ s.Satisfies value := by
  obtain ⟨e, l, row, g, -, -, -, -, hrow, -, hneg, -, rfl⟩ := h.exists_row hs
  exact hs.satisfies_pivot hrow hneg.ne

theorem PrimalStep.eval_objective (h : PrimalStep goal s t) (hs : s.Solved) {value : Symbol → ℚ}
    (hsat : s.Satisfies value) : t.objective.eval value = s.objective.eval value := by
  obtain ⟨e, l, row, g, -, -, -, -, hrow, -, hneg, -, rfl⟩ := h.exists_row hs
  exact hs.eval_pivot hrow hneg.ne hsat .objective

theorem PrimalStep.eval_artificial (h : PrimalStep goal s t) (hs : s.Solved)
    (hart : s.artificial = some row) :
    ∃ row', t.artificial = some row' ∧ ∀ value, s.Satisfies value → row'.eval value = row.eval value := by
  obtain ⟨e, l, row', g, -, -, -, -, hrow, -, hneg, -, rfl⟩ := h.exists_row hs
  refine ⟨row.substitute e (row'.exchanged l e), ?_, ?_⟩
  · show s.artificial.map _ = _
    rw [hart]
    rfl
  · intro value hsat
    exact hs.eval_pivot hrow hneg.ne hsat (.artificial hart)

theorem PrimalStep.closed (h : PrimalStep goal s t) (hs : s.Solved) (hc : s.Closed) : t.Closed := by
  obtain ⟨e, l, row, g, -, -, -, -, hrow, hl, hneg, -, rfl⟩ := h.exists_row hs
  exact hc.pivot hs hrow hneg.ne hl

theorem PrimalStep.pinned (h : PrimalStep goal s t) (hs : s.Solved) (hp : s.Pinned) : t.Pinned := by
  obtain ⟨e, l, row, g, -, -, -, hkind, hrow, -, hneg, -, rfl⟩ := h.exists_row hs
  exact hp.pivot hs hrow hneg.ne hkind

theorem PrimalStep.nonneg (h : PrimalStep goal s t) (hs : s.Solved) (hnn : s.Nonneg) :
    t.Nonneg := by
  obtain ⟨e, l, row, g, -, -, -, -, hrow, hl, hneg, hmin, rfl⟩ := h.exists_row hs
  have hratio : 0 ≤ -row.constant / row.coefficient e :=
    div_nonneg_of_nonpos (neg_nonpos.2 (hnn l row hrow hl)) hneg.le
  apply Nonneg.pivot hs hrow hneg.ne hratio
  intro b row' hrow' hb _
  exact hnn.of_least_ratio hratio hmin hrow' hb

theorem PrimalStep.idle (h : PrimalStep goal s t) (hart : s.artificial = none) :
    t.artificial = none := by
  cases h with
  | pivot =>
    show s.artificial.map _ = none
    rw [hart]
    rfl

theorem PrimalStep.notes (h : PrimalStep goal s t) (hs : s.Solved) (hn : s.Notes) : t.Notes := by
  obtain ⟨e, l, row, g, -, -, -, -, -, -, -, -, rfl⟩ := h.exists_row hs
  exact hn.pivot hs.ascending

section PrimalSteps

variable (h : PrimalSteps goal s t) (hs : s.Solved)
include h hs

theorem PrimalSteps.solved : t.Solved := by
  induction h with
  | refl => exact hs
  | tail _ hstep ih => exact hstep.solved ih

theorem PrimalSteps.satisfies_iff (value : Symbol → ℚ) : t.Satisfies value ↔ s.Satisfies value := by
  induction h with
  | refl => exact Iff.rfl
  | tail hsteps hstep ih => exact (hstep.satisfies_iff (PrimalSteps.solved hsteps hs) value).trans ih

theorem PrimalSteps.eval_objective {value : Symbol → ℚ} (hsat : s.Satisfies value) :
    t.objective.eval value = s.objective.eval value := by
  induction h with
  | refl => rfl
  | tail hsteps hstep ih =>
    have hsat' := (PrimalSteps.satisfies_iff hsteps hs value).2 hsat
    rw [hstep.eval_objective (PrimalSteps.solved hsteps hs) hsat', ih]

theorem PrimalSteps.eval_artificial (hart : s.artificial = some row) :
    ∃ row', t.artificial = some row' ∧
      ∀ value, s.Satisfies value → row'.eval value = row.eval value := by
  induction h with
  | refl => exact ⟨row, hart, fun _ _ => rfl⟩
  | tail hsteps hstep ih =>
    obtain ⟨row₁, hart₁, heq₁⟩ := ih
    obtain ⟨row₂, hart₂, heq₂⟩ := hstep.eval_artificial (PrimalSteps.solved hsteps hs) hart₁
    refine ⟨row₂, hart₂, ?_⟩
    intro value hsat
    rw [heq₂ value ((PrimalSteps.satisfies_iff hsteps hs value).2 hsat), heq₁ value hsat]

/-- What every pivot of a solved tableau keeps, the loop keeps. -/
theorem PrimalSteps.keeps {P : Solver ℚ → Prop}
    (hkeeps : ∀ {u v : Solver ℚ}, PrimalStep goal u v → u.Solved → P u → P v) (hP : P s) :
    P t := by
  induction h with
  | refl => exact hP
  | tail hsteps hstep ih => exact hkeeps hstep (PrimalSteps.solved hsteps hs) ih

theorem PrimalSteps.idle (hart : s.artificial = none) : t.artificial = none :=
  h.keeps hs (fun hstep _ => hstep.idle) hart

theorem PrimalSteps.closed (hc : s.Closed) : t.Closed := h.keeps hs PrimalStep.closed hc

theorem PrimalSteps.nonneg (hnn : s.Nonneg) : t.Nonneg := h.keeps hs PrimalStep.nonneg hnn

theorem PrimalSteps.notes (hn : s.Notes) : t.Notes := h.keeps hs PrimalStep.notes hn

theorem PrimalSteps.pinned (hp : s.Pinned) : t.Pinned := h.keeps hs PrimalStep.pinned hp

end PrimalSteps

/-! ### The dual loop -/

/-- What holds while the dual loop mends. -/
structure Mending (s : Solver ℚ) : Prop where
  solved : s.Solved
  closed : s.Closed
  noted : s.Noted

theorem Mending.skip (h : s.Mending) {x : Symbol} {rest : List Symbol}
    (hnoted : s.infeasible = x :: rest)
    (hok : ∀ row, s.rows.get? x = some row → 0 ≤ row.constant) :
    Mending { s with infeasible := rest } where
  solved := h.solved.congr rfl rfl rfl le_rfl
  closed := h.closed.congr rfl rfl rfl
  noted := by
    constructor
    · intro y hy
      apply h.noted.restricted
      rw [hnoted]
      exact List.mem_cons_of_mem _ hy
    · intro b row hrow hb hneg
      have hmem := h.noted.negative b row hrow hb hneg
      rw [hnoted] at hmem
      rcases List.mem_cons.1 hmem with rfl | hmem
      · exact absurd hneg (not_lt.2 (hok row hrow))
      · exact hmem

theorem Mending.pivot (h : s.Mending) {rest : List Symbol} (hnoted : s.infeasible = l :: rest)
    (hrow : s.rows.get? l = some row) (hneg : row.constant < 0) (he : 0 < row.coefficient e) :
    Mending ({ s with infeasible := rest }.pivot l e row) := by
  have hle := h.solved.ne_of_coefficient hrow he.ne'
  have hn := h.solved.normal row (.basic hrow)
  have hs : Solver.Solved { s with infeasible := rest } := h.solved.congr rfl rfl rfl le_rfl
  have hl : l.IsRestricted := by
    apply h.noted.restricted
    rw [hnoted]
    exact List.mem_cons_self
  have hmem : ∀ x, x ∈ ({ s with infeasible := rest }.pivot l e row).infeasible ↔ _ :=
    fun x => mem_infeasible_substitute (e := e) (d := row.exchanged l e) (x := x)
      (hs.forget l).ascending
  refine ⟨hs.pivot hrow he.ne', Closed.pivot (h.closed.congr rfl rfl rfl) hs hrow he.ne' hl, ?_, ?_⟩
  · intro x hx
    rcases (hmem x).1 hx with ⟨row', -, hxr, -⟩ | hx
    · exact hxr
    · apply h.noted.restricted
      rw [hnoted]
      exact List.mem_cons_of_mem _ hx
  · -- What the pivot makes negative it notes itself; the entering symbol it makes positive.
    intro b row' hrow' hb hneg'
    rw [hmem b]
    rw [pivot_eq] at hrow'
    rcases of_get?_install hrow' with ⟨-, rfl⟩ | hrow'
    · rw [Row.constant_exchanged hn hle he.ne'] at hneg'
      have := div_pos (neg_pos.2 hneg) he
      linarith
    · exact .inl ⟨row', hrow', hb, hneg'⟩

theorem DualStep.mending (h : DualStep s t) (hm : s.Mending) : t.Mending := by
  cases h with
  | skip hnoted hok => exact hm.skip hnoted hok
  | pivot hnoted hrow hneg he =>
    exact hm.pivot hnoted hrow hneg (mending?_eq_some (hm.solved.normal _ (.basic hrow)) he).1

theorem DualStep.satisfies_iff (h : DualStep s t) (hs : s.Solved) (value : Symbol → ℚ) :
    t.Satisfies value ↔ s.Satisfies value := by
  cases h with
  | skip => exact Iff.rfl
  | @pivot l e rest row hnoted hrow hneg he =>
    have hpos := (mending?_eq_some (hs.normal _ (.basic hrow)) he).1
    have hs' : Solver.Solved { s with infeasible := rest } := hs.congr rfl rfl rfl le_rfl
    exact hs'.satisfies_pivot hrow hpos.ne'

theorem DualStep.eval_objective (h : DualStep s t) (hs : s.Solved) {value : Symbol → ℚ}
    (hsat : s.Satisfies value) : t.objective.eval value = s.objective.eval value := by
  cases h with
  | skip => rfl
  | @pivot l e rest row hnoted hrow hneg he =>
    have hpos := (mending?_eq_some (hs.normal _ (.basic hrow)) he).1
    have hs' : Solver.Solved { s with infeasible := rest } := hs.congr rfl rfl rfl le_rfl
    exact hs'.eval_pivot hrow hpos.ne' (hsat.congr rfl) .objective

theorem DualStep.idle (h : DualStep s t) (hart : s.artificial = none) :
    t.artificial = none := by
  cases h with
  | skip => exact hart
  | pivot =>
    show s.artificial.map _ = none
    rw [hart]
    rfl

theorem DualStep.pinned (h : DualStep s t) (hs : s.Solved) (hp : s.Pinned) : t.Pinned := by
  cases h with
  | skip => exact hp.congr rfl
  | @pivot l e rest row hnoted hrow hneg he =>
    obtain ⟨hpos, hkind, -⟩ := mending?_eq_some (hs.normal _ (.basic hrow)) he
    have hs' : Solver.Solved { s with infeasible := rest } := hs.congr rfl rfl rfl le_rfl
    exact Pinned.pivot (hp.congr rfl) hs' hrow hpos.ne' hkind

/-- The least ratio keeps the objective from finding a way down. -/
theorem DualStep.optimal (h : DualStep s t) (hs : s.Solved) (ho : s.Optimal) : t.Optimal := by
  cases h with
  | skip => exact ho
  | @pivot l e rest row hnoted hrow hneg he =>
    have hn := hs.normal row (.basic hrow)
    obtain ⟨hpos, hkind, hmin⟩ := mending?_eq_some hn he
    have hle := hs.ne_of_coefficient hrow hpos.ne'
    intro x hx
    show 0 ≤ (s.objective.substitute e (row.exchanged l e)).coefficient x
    rw [Row.coefficient_substitute (hs.normal _ .objective) (hn.exchanged hle hpos.ne'),
      Row.coefficient_exchanged hn hle hpos.ne']
    by_cases hxe : x = e
    · subst hxe
      simp
    · rw [if_neg hxe, if_neg hxe, sub_zero]
      have hoe : 0 ≤ s.objective.coefficient e / row.coefficient e :=
        div_nonneg (ho e hkind) hpos.le
      have hox := ho x hx
      -- The new coefficient of `x` is the old one less its share of that of `e`.
      have hsplit : s.objective.coefficient e * ((-row.coefficient x + if x = l then 1 else 0)
            / row.coefficient e)
          = s.objective.coefficient e / row.coefficient e
            * (-row.coefficient x + if x = l then 1 else 0) := by
        ring
      rw [hsplit]
      by_cases hxl : x = l
      · rw [if_pos hxl, hxl, hs.solved row l (.basic hrow) ⟨row, hrow⟩]
        have hol := hxl ▸ hox
        linarith
      · rw [if_neg hxl, add_zero]
        rcases le_or_gt (row.coefficient x) 0 with hle0 | hgt
        · have := mul_nonneg hoe (neg_nonneg.2 hle0)
          linarith
        · have hr := hmin x hgt hx
          rw [le_div_iff₀ hgt] at hr
          linarith

section DualSteps

variable (h : DualSteps s t) (hm : s.Mending)
include h hm

theorem DualSteps.mending : t.Mending := by
  induction h with
  | refl => exact hm
  | tail _ hstep ih => exact hstep.mending ih

theorem DualSteps.satisfies_iff (value : Symbol → ℚ) : t.Satisfies value ↔ s.Satisfies value := by
  induction h with
  | refl => exact Iff.rfl
  | tail hsteps hstep ih =>
    exact (hstep.satisfies_iff (DualSteps.mending hsteps hm).solved value).trans ih

theorem DualSteps.eval_objective {value : Symbol → ℚ} (hsat : s.Satisfies value) :
    t.objective.eval value = s.objective.eval value := by
  induction h with
  | refl => rfl
  | tail hsteps hstep ih =>
    have hsat' := (DualSteps.satisfies_iff hsteps hm value).2 hsat
    rw [hstep.eval_objective (DualSteps.mending hsteps hm).solved hsat', ih]

theorem DualSteps.keeps {P : Solver ℚ → Prop}
    (hkeeps : ∀ {u v : Solver ℚ}, DualStep u v → u.Solved → P u → P v) (hP : P s) : P t := by
  induction h with
  | refl => exact hP
  | tail hsteps hstep ih => exact hkeeps hstep (DualSteps.mending hsteps hm).solved ih

theorem DualSteps.idle (hart : s.artificial = none) : t.artificial = none :=
  h.keeps hm (fun hstep _ => hstep.idle) hart

theorem DualSteps.pinned (hp : s.Pinned) : t.Pinned := h.keeps hm DualStep.pinned hp

theorem DualSteps.optimal (ho : s.Optimal) : t.Optimal := h.keeps hm DualStep.optimal ho

end DualSteps

end Solver

end ReactiveView
