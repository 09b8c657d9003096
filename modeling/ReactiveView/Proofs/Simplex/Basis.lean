import Mathlib
import ReactiveView.Proofs.Simplex.Row
import ReactiveView.Simplex.Pivot

/-!
This module contains the tableau as a system of equations. A tableau in solved form is solved by
exactly one assignment for each choice of the parametric symbols, and pivots keep its solutions.
-/

namespace ReactiveView

namespace Solver

/-- Whether a row is one of the tableau: of a basic symbol, or to be minimised. -/
def HasRow (s : Solver ℚ) (row : Row ℚ) : Prop :=
  (∃ b, s.rows.get? b = some row) ∨ row = s.objective ∨ s.artificial = some row

/-- Whether a row defines the symbol. -/
def IsBasic (s : Solver ℚ) (b : Symbol) : Prop :=
  ∃ row, s.rows.get? b = some row

/-- Whether an assignment of the symbols satisfies all row equations. -/
def Satisfies (s : Solver ℚ) (value : Symbol → ℚ) : Prop :=
  ∀ b row, s.rows.get? b = some row → value b = row.eval value

/-- The rows speak about parametric symbols only, and about none that is yet to come. -/
structure Solved (s : Solver ℚ) : Prop where
  ascending : s.rows.Ascending
  normal : ∀ row, s.HasRow row → row.Normal
  solved : ∀ row b, s.HasRow row → s.IsBasic b → row.coefficient b = 0
  known : ∀ row x, s.HasRow row → row.coefficient x ≠ 0 → x.id < s.nextId
  basic_known : ∀ b, s.IsBasic b → b.id < s.nextId

/-- Whether a row can become the definition of a parametric symbol. -/
structure Defines (s : Solver ℚ) (e : Symbol) (d : Row ℚ) : Prop where
  normal : d.Normal
  parametric : ¬s.IsBasic e
  own : d.coefficient e = 0
  solved : ∀ b, s.IsBasic b → d.coefficient b = 0
  known : ∀ x, d.coefficient x ≠ 0 → x.id < s.nextId
  symbol_known : e.id < s.nextId

/-- The system without the row of a basic symbol. -/
def forget (s : Solver ℚ) (b : Symbol) : Solver ℚ := { s with rows := s.rows.erase b }

/-- The system with one more equation, solved for a parametric symbol. -/
def install (s : Solver ℚ) (e : Symbol) (d : Row ℚ) : Solver ℚ :=
  { s.substitute e d with rows := (s.substitute e d).rows.insert e d }

/-- The system with a symbol struck out of every row and of the objective. -/
def clear (s : Solver ℚ) (x : Symbol) : Solver ℚ :=
  { s with
    rows := s.rows.mapValues fun row => row.remove x
    objective := s.objective.remove x }

/-- The solution with given values of the parametric symbols. -/
def complete (s : Solver ℚ) (value : Symbol → ℚ) : Symbol → ℚ := fun b =>
  match s.rows.get? b with
  | some row => row.eval value
  | none => value b

/-- The solution whose parametric symbols are zero. -/
def corner (s : Solver ℚ) : Symbol → ℚ := s.complete fun _ => 0

variable {s t : Solver ℚ} {row d : Row ℚ} {b e l x : Symbol} {value : Symbol → ℚ} {v : ℚ}

theorem HasRow.basic (h : s.rows.get? b = some row) : s.HasRow row := .inl ⟨b, h⟩

theorem HasRow.objective : s.HasRow s.objective := .inr (.inl rfl)

theorem HasRow.artificial (h : s.artificial = some row) : s.HasRow row := .inr (.inr h)

theorem not_isBasic_iff : ¬s.IsBasic b ↔ s.rows.get? b = none := by
  unfold IsBasic
  rw [← Option.ne_none_iff_exists', not_not]

theorem Solved.congr (h : s.Solved) (hrows : t.rows = s.rows) (hobj : t.objective = s.objective)
    (hart : t.artificial = s.artificial) (hid : s.nextId ≤ t.nextId) : t.Solved := by
  have hrow : ∀ row, t.HasRow row ↔ s.HasRow row := by
    intro row
    unfold HasRow
    rw [hrows, hobj, hart]
  have hbasic : ∀ b, t.IsBasic b ↔ s.IsBasic b := by
    intro b
    unfold IsBasic
    rw [hrows]
  refine ⟨hrows ▸ h.ascending, ?_, ?_, ?_, ?_⟩
  · intro row hr
    exact h.normal row ((hrow row).1 hr)
  · intro row b hr hb
    exact h.solved row b ((hrow row).1 hr) ((hbasic b).1 hb)
  · intro row x hr hx
    exact (h.known row x ((hrow row).1 hr) hx).trans_le hid
  · intro b hb
    exact (h.basic_known b ((hbasic b).1 hb)).trans_le hid

theorem Satisfies.congr (h : s.Satisfies value) (hrows : t.rows = s.rows) : t.Satisfies value := by
  intro b row hrow
  rw [hrows] at hrow
  exact h b row hrow

/-! ### Solutions -/

theorem Solved.not_isBasic (h : s.Solved) (hrow : s.HasRow row) (hx : row.coefficient x ≠ 0) :
    ¬s.IsBasic x :=
  fun hb => hx (h.solved row x hrow hb)

theorem complete_of_not_isBasic (h : ¬s.IsBasic b) : s.complete value b = value b := by
  unfold complete
  rw [not_isBasic_iff.1 h]

theorem complete_of_get? (h : s.rows.get? b = some row) : s.complete value b = row.eval value := by
  unfold complete
  rw [h]

theorem Solved.eval_complete (h : s.Solved) (hrow : s.HasRow row) (value : Symbol → ℚ) :
    row.eval (s.complete value) = row.eval value := by
  apply Row.eval_congr (h.normal row hrow)
  intro x hx
  exact complete_of_not_isBasic (h.not_isBasic hrow hx)

theorem Solved.satisfies_complete (h : s.Solved) (value : Symbol → ℚ) :
    s.Satisfies (s.complete value) := by
  intro b row hrow
  rw [complete_of_get? hrow, h.eval_complete (.basic hrow)]

theorem corner_of_not_isBasic (h : ¬s.IsBasic b) : s.corner b = 0 :=
  complete_of_not_isBasic h

theorem corner_of_get? (h : s.rows.get? b = some row) : s.corner b = row.constant := by
  unfold corner
  rw [complete_of_get? h, Row.eval_zero]

theorem Solved.eval_corner (h : s.Solved) (hrow : s.HasRow row) :
    row.eval s.corner = row.constant := by
  unfold corner
  rw [h.eval_complete hrow, Row.eval_zero]

theorem Solved.satisfies_corner (h : s.Solved) : s.Satisfies s.corner :=
  h.satisfies_complete _

/-- A symbol that no row speaks about is free. -/
theorem Solved.satisfies_update_iff (h : s.Solved) (hx : ¬s.IsBasic x)
    (hfree : ∀ row, s.HasRow row → row.coefficient x = 0) (v : ℚ) :
    s.Satisfies (Function.update value x v) ↔ s.Satisfies value := by
  apply forall_congr'
  intro b
  apply forall_congr'
  intro row
  apply imp_congr_right
  intro hrow
  have hbx : b ≠ x := by
    rintro rfl
    exact hx ⟨row, hrow⟩
  rw [Function.update_of_ne hbx,
    Row.eval_update_of_coefficient (h.normal row (.basic hrow)) (hfree row (.basic hrow))]

theorem Solved.fresh (h : s.Solved) (hx : s.nextId ≤ x.id) :
    ¬s.IsBasic x ∧ ∀ row, s.HasRow row → row.coefficient x = 0 := by
  constructor
  · intro hb
    have := h.basic_known x hb
    omega
  · intro row hrow
    by_contra hne
    have := h.known row x hrow hne
    omega

/-! ### Substitution -/

theorem get?_substitute (s : Solver ℚ) (e : Symbol) (d : Row ℚ) (b : Symbol) :
    (s.substitute e d).rows.get? b = (s.rows.get? b).map fun row => row.substitute e d :=
  Table.get?_mapValues _ _ _

theorem isBasic_substitute : (s.substitute e d).IsBasic b ↔ s.IsBasic b := by
  unfold IsBasic
  rw [get?_substitute]
  cases s.rows.get? b with
  | none => simp
  | some row => simp

theorem hasRow_substitute (h : (s.substitute e d).HasRow row) :
    ∃ row₀, s.HasRow row₀ ∧ row = row₀.substitute e d := by
  rcases h with ⟨b, hb⟩ | hobj | hart
  · rw [get?_substitute] at hb
    obtain ⟨row₀, hrow₀, rfl⟩ := Option.map_eq_some_iff.1 hb
    exact ⟨row₀, .basic hrow₀, rfl⟩
  · exact ⟨s.objective, .objective, hobj⟩
  · obtain ⟨row₀, hrow₀, rfl⟩ := Option.map_eq_some_iff.1 hart
    exact ⟨row₀, .artificial hrow₀, rfl⟩

theorem Solved.coefficient_substitute_self (h : s.Solved) (hd : s.Defines e d)
    (hrow : (s.substitute e d).HasRow row) : row.coefficient e = 0 := by
  obtain ⟨row₀, hrow₀, rfl⟩ := hasRow_substitute hrow
  rw [Row.coefficient_substitute (h.normal _ hrow₀) hd.normal, hd.own, if_pos rfl]
  ring

theorem Solved.substitute (h : s.Solved) (hd : s.Defines e d) : (s.substitute e d).Solved where
  ascending := h.ascending.mapValues _
  normal := by
    intro row hrow
    obtain ⟨row₀, hrow₀, rfl⟩ := hasRow_substitute hrow
    exact (h.normal _ hrow₀).substitute _ _
  solved := by
    intro row b hrow hb
    obtain ⟨row₀, hrow₀, rfl⟩ := hasRow_substitute hrow
    rw [isBasic_substitute] at hb
    have hbe : b ≠ e := by
      rintro rfl
      exact hd.parametric hb
    rw [Row.coefficient_substitute (h.normal _ hrow₀) hd.normal, h.solved _ _ hrow₀ hb,
      hd.solved b hb, if_neg hbe]
    ring
  known := by
    intro row x hrow hx
    obtain ⟨row₀, hrow₀, rfl⟩ := hasRow_substitute hrow
    rw [Row.coefficient_substitute (h.normal _ hrow₀) hd.normal] at hx
    by_cases hx₀ : row₀.coefficient x = 0
    · by_cases hxd : d.coefficient x = 0
      · by_cases hxe : x = e
        · exact hxe ▸ hd.symbol_known
        · rw [hx₀, hxd, if_neg hxe] at hx
          exact absurd (by ring) hx
      · exact hd.known x hxd
    · exact h.known _ _ hrow₀ hx₀
  basic_known := by
    intro b hb
    exact h.basic_known b (isBasic_substitute.1 hb)

theorem Solved.satisfies_substitute (h : s.Solved) (he : value e = d.eval value) :
    (s.substitute e d).Satisfies value ↔ s.Satisfies value := by
  have hsame : ∀ b row, s.rows.get? b = some row →
      (row.substitute e d).eval value = row.eval value := by
    intro b row hrow
    rw [Row.eval_substitute (h.normal _ (.basic hrow)), he]
    ring
  constructor
  · intro hsat b row hrow
    rw [← hsame b row hrow]
    exact hsat b _ (by rw [get?_substitute, hrow]; rfl)
  · intro hsat b row hrow
    rw [get?_substitute] at hrow
    obtain ⟨row₀, hrow₀, rfl⟩ := Option.map_eq_some_iff.1 hrow
    rw [hsame b row₀ hrow₀]
    exact hsat b row₀ hrow₀

/-! ### Rows that go -/

theorem get?_forget (s : Solver ℚ) (b b' : Symbol) :
    (s.forget b).rows.get? b' = if b' = b then none else s.rows.get? b' :=
  Table.get?_erase _ _ _

theorem of_get?_forget {b' : Symbol} (h : (s.forget b).rows.get? b' = some row) :
    b' ≠ b ∧ s.rows.get? b' = some row :=
  Table.of_get?_erase h

theorem isBasic_forget : (s.forget b).IsBasic x ↔ x ≠ b ∧ s.IsBasic x := by
  unfold IsBasic
  rw [get?_forget]
  by_cases hx : x = b
  · simp [hx]
  · simp [hx]

theorem hasRow_forget (h : (s.forget b).HasRow row) : s.HasRow row := by
  rcases h with ⟨b', hb'⟩ | hobj | hart
  · exact .basic (of_get?_forget hb').2
  · exact .inr (.inl hobj)
  · exact .artificial hart

theorem Solved.forget (h : s.Solved) (b : Symbol) : (s.forget b).Solved where
  ascending := h.ascending.erase b
  normal row hrow := h.normal row (hasRow_forget hrow)
  solved row b' hrow hb' := h.solved row b' (hasRow_forget hrow) (isBasic_forget.1 hb').2
  known row x hrow hx := h.known row x (hasRow_forget hrow) hx
  basic_known b' hb' := h.basic_known b' (isBasic_forget.1 hb').2

theorem satisfies_iff_forget (hrow : s.rows.get? b = some row) :
    s.Satisfies value ↔ (s.forget b).Satisfies value ∧ value b = row.eval value := by
  constructor
  · intro hsat
    refine ⟨?_, hsat b row hrow⟩
    intro b' row' hrow'
    exact hsat b' row' (of_get?_forget hrow').2
  · rintro ⟨hsat, hb⟩ b' row' hrow'
    by_cases hbb : b' = b
    · subst hbb
      rw [hrow] at hrow'
      cases hrow'
      exact hb
    · exact hsat b' row' (by rw [get?_forget, if_neg hbb, hrow'])

/-- What is left without a row are the solutions with that symbol set free. -/
theorem Solved.satisfies_forget_iff (h : s.Solved) (hrow : s.rows.get? b = some row) :
    (s.forget b).Satisfies value ↔ s.Satisfies (Function.update value b (row.eval value)) := by
  have hfree : ∀ row', s.HasRow row' → row'.coefficient b = 0 :=
    fun row' hrow' => h.solved row' b hrow' ⟨row, hrow⟩
  rw [satisfies_iff_forget hrow, Function.update_self,
    Row.eval_update_of_coefficient (h.normal row (.basic hrow)) (hfree row (.basic hrow)),
    (h.forget b).satisfies_update_iff (fun hb => (isBasic_forget.1 hb).1 rfl)
      fun row' hrow' => hfree row' (hasRow_forget hrow')]
  simp

/-! ### Rows that come -/

theorem get?_install (s : Solver ℚ) (e : Symbol) (d : Row ℚ) (b : Symbol) :
    (s.install e d).rows.get? b
      = if b = e then some d else (s.rows.get? b).map fun row => row.substitute e d := by
  unfold install
  dsimp only
  rw [Table.get?_insert, get?_substitute]

theorem of_get?_install (h : (s.install e d).rows.get? b = some row) :
    b = e ∧ row = d ∨ (s.substitute e d).rows.get? b = some row :=
  Table.of_get?_insert h

theorem isBasic_install : (s.install e d).IsBasic b ↔ b = e ∨ s.IsBasic b := by
  unfold IsBasic
  rw [get?_install]
  by_cases hb : b = e
  · simp [hb]
  · simp [hb]

theorem hasRow_install (h : (s.install e d).HasRow row) :
    row = d ∨ (s.substitute e d).HasRow row := by
  rcases h with ⟨b, hb⟩ | hobj | hart
  · rcases of_get?_install hb with ⟨-, rfl⟩ | hb
    · exact .inl rfl
    · exact .inr (.basic hb)
  · exact .inr (.inr (.inl hobj))
  · exact .inr (.artificial hart)

theorem Solved.install (h : s.Solved) (hd : s.Defines e d) : (s.install e d).Solved where
  ascending := (h.substitute hd).ascending.insert _ _
  normal := by
    intro row hrow
    rcases hasRow_install hrow with rfl | hrow
    · exact hd.normal
    · exact (h.substitute hd).normal row hrow
  solved := by
    intro row b hrow hb
    rcases isBasic_install.1 hb with rfl | hold
    · rcases hasRow_install hrow with rfl | hrow
      · exact hd.own
      · exact h.coefficient_substitute_self hd hrow
    · rcases hasRow_install hrow with rfl | hrow
      · exact hd.solved b hold
      · exact (h.substitute hd).solved row b hrow (isBasic_substitute.2 hold)
  known := by
    intro row x hrow hx
    rcases hasRow_install hrow with rfl | hrow
    · exact hd.known x hx
    · exact (h.substitute hd).known row x hrow hx
  basic_known := by
    intro b hb
    rcases isBasic_install.1 hb with rfl | hb
    · exact hd.symbol_known
    · exact h.basic_known b hb

theorem forget_install (he : ¬s.IsBasic e) (d : Row ℚ) :
    (s.install e d).forget e = s.substitute e d := by
  have hrows : ((s.substitute e d).rows.insert e d).erase e = (s.substitute e d).rows :=
    Table.erase_insert d (not_isBasic_iff.1 fun hb => he (isBasic_substitute.1 hb))
  unfold Solver.forget Solver.install
  dsimp only
  rw [hrows]

theorem Solved.satisfies_install (h : s.Solved) (hd : s.Defines e d) :
    (s.install e d).Satisfies value ↔ s.Satisfies value ∧ value e = d.eval value := by
  rw [satisfies_iff_forget (by rw [get?_install, if_pos rfl]), and_congr_left_iff]
  intro he
  rw [forget_install hd.parametric, h.satisfies_substitute he]

/-! ### Pivots -/

theorem pivot_eq (s : Solver ℚ) (l e : Symbol) (row : Row ℚ) :
    s.pivot l e row = (s.forget l).install e (row.exchanged l e) := rfl

section Pivot

variable (h : s.Solved) (hrow : s.rows.get? l = some row) (he : row.coefficient e ≠ 0)
include h hrow he

theorem Solved.ne_of_coefficient : l ≠ e := by
  rintro rfl
  exact he (h.solved row l (.basic hrow) ⟨row, hrow⟩)

theorem Solved.defines_exchanged : (s.forget l).Defines e (row.exchanged l e) := by
  have hle := h.ne_of_coefficient hrow he
  have hn := h.normal row (.basic hrow)
  refine ⟨hn.exchanged hle he, ?_, ?_, ?_, ?_, h.known row e (.basic hrow) he⟩
  · intro hb
    exact he (h.solved row e (.basic hrow) (isBasic_forget.1 hb).2)
  · rw [Row.coefficient_exchanged hn hle he, if_pos rfl]
  · intro b hb
    obtain ⟨hbl, hb⟩ := isBasic_forget.1 hb
    rw [Row.coefficient_exchanged hn hle he, if_neg hbl, h.solved row b (.basic hrow) hb]
    simp
  · intro x hx
    rw [Row.coefficient_exchanged hn hle he] at hx
    split at hx
    · exact absurd rfl hx
    · by_cases hxl : x = l
      · exact hxl ▸ h.basic_known l ⟨row, hrow⟩
      · rw [if_neg hxl, add_zero] at hx
        apply h.known row x (.basic hrow)
        rintro h0
        exact hx (by rw [h0]; simp)

theorem Solved.pivot : (s.pivot l e row).Solved := by
  rw [pivot_eq]
  exact (h.forget l).install (h.defines_exchanged hrow he)

theorem Solved.satisfies_pivot : (s.pivot l e row).Satisfies value ↔ s.Satisfies value := by
  have hle := h.ne_of_coefficient hrow he
  have hn := h.normal row (.basic hrow)
  rw [pivot_eq, (h.forget l).satisfies_install (h.defines_exchanged hrow he),
    Row.eq_eval_exchanged_iff hn hle he, satisfies_iff_forget hrow]

/-- Along a pivot a row to be minimised keeps its value on every solution. -/
theorem Solved.eval_pivot (hsat : s.Satisfies value) {goal : Row ℚ} (hgoal : s.HasRow goal) :
    (goal.substitute e (row.exchanged l e)).eval value = goal.eval value := by
  have hle := h.ne_of_coefficient hrow he
  have hn := h.normal row (.basic hrow)
  rw [Row.eval_substitute (h.normal goal hgoal),
    ← (Row.eq_eval_exchanged_iff hn hle he).2 (hsat l row hrow)]
  ring

end Pivot

/-! ### Symbols that go -/

theorem get?_clear (s : Solver ℚ) (x b : Symbol) :
    (s.clear x).rows.get? b = (s.rows.get? b).map fun row => row.remove x :=
  Table.get?_mapValues _ _ _

theorem isBasic_clear : (s.clear x).IsBasic b ↔ s.IsBasic b := by
  unfold IsBasic
  rw [get?_clear]
  cases s.rows.get? b with
  | none => simp
  | some row => simp

theorem hasRow_clear (h : (s.clear x).HasRow row) :
    ∃ row₀, s.HasRow row₀ ∧ (row = row₀.remove x ∨ row = row₀) := by
  rcases h with ⟨b, hb⟩ | hobj | hart
  · rw [get?_clear] at hb
    obtain ⟨row₀, hrow₀, rfl⟩ := Option.map_eq_some_iff.1 hb
    exact ⟨row₀, .basic hrow₀, .inl rfl⟩
  · exact ⟨s.objective, .objective, .inl hobj⟩
  · exact ⟨row, .artificial hart, .inr rfl⟩

theorem Solved.clear (h : s.Solved) (x : Symbol) : (s.clear x).Solved where
  ascending := h.ascending.mapValues _
  normal := by
    intro row hrow
    obtain ⟨row₀, hrow₀, rfl | rfl⟩ := hasRow_clear hrow
    · exact (h.normal _ hrow₀).remove x
    · exact h.normal _ hrow₀
  solved := by
    intro row b hrow hb
    have hb := isBasic_clear.1 hb
    obtain ⟨row₀, hrow₀, rfl | rfl⟩ := hasRow_clear hrow
    · rw [Row.coefficient_remove, h.solved _ _ hrow₀ hb, ite_self]
    · exact h.solved _ _ hrow₀ hb
  known := by
    intro row y hrow hy
    obtain ⟨row₀, hrow₀, rfl | rfl⟩ := hasRow_clear hrow
    · rw [Row.coefficient_remove] at hy
      split at hy
      · exact absurd rfl hy
      · exact h.known _ _ hrow₀ hy
    · exact h.known _ _ hrow₀ hy
  basic_known b hb := h.basic_known b (isBasic_clear.1 hb)

theorem eval_remove_eq_update (h : row.Normal) (x : Symbol) (value : Symbol → ℚ) :
    (row.remove x).eval value = row.eval (Function.update value x 0) := by
  rw [Row.eval_update h, Row.eval_eq_remove h.ascending x value]
  ring

theorem Solved.satisfies_clear (h : s.Solved) (hx : ¬s.IsBasic x) :
    (s.clear x).Satisfies value ↔ s.Satisfies (Function.update value x 0) := by
  have hsame : ∀ b row, s.rows.get? b = some row →
      (value b = (row.remove x).eval value ↔
        Function.update value x 0 b = row.eval (Function.update value x 0)) := by
    intro b row hrow
    have hbx : b ≠ x := by
      rintro rfl
      exact hx ⟨row, hrow⟩
    rw [Function.update_of_ne hbx, eval_remove_eq_update (h.normal row (.basic hrow))]
  constructor
  · intro hsat b row hrow
    rw [← hsame b row hrow]
    exact hsat b _ (by rw [get?_clear, hrow]; rfl)
  · intro hsat b row hrow
    rw [get?_clear] at hrow
    obtain ⟨row₀, hrow₀, rfl⟩ := Option.map_eq_some_iff.1 hrow
    rw [hsame b row₀ hrow₀]
    exact hsat b row₀ hrow₀

end Solver

end ReactiveView
