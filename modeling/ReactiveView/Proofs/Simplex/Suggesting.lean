import Mathlib
import ReactiveView.Proofs.Simplex.Removing

/-!
This module contains suggestions for edit variables. A new target moves the constants of the rows as
if one symbol of the edit's constraint had moved; the dual loop then mends the signs.
-/

namespace ReactiveView

namespace Solver

variable {s t u : Solver ℚ} {row : Row ℚ} {target target' : Handle → ℚ} {key : Handle}
variable {lv : Live ℚ} {m y b : Symbol} {r : Except SolverError Unit} {value : Symbol → ℚ}
variable {d δ : ℚ} {move : Symbol → Row ℚ → ℚ}

/-! ### Minimisation on demand -/

/-- How minimisation on demand ends. -/
inductive Solves (s : Solver ℚ) : Except SolverError Unit → Solver ℚ → Prop
  | clean (hdirty : s.dirty = false) : Solves s (.ok ()) s
  | minimised {u : Solver ℚ} (hsteps : PrimalSteps .main s u) (hend : PrimalEnd .main u (.ok ())) :
      Solves s (.ok ()) { u with dirty := false }
  | failed {u : Solver ℚ} {e : SolverError} (hsteps : PrimalSteps .main s u)
      (hend : PrimalEnd .main u (.error e)) : Solves s (.error e) u

theorem perform_solve (ha : s.rows.Ascending) (h : s.perform solve = (r, t)) : Solves s r t := by
  unfold solve at h
  rw [perform_bind] at h
  simp only [perform_get] at h
  cases hdirty : s.dirty with
  | false =>
    rw [hdirty] at h
    cases h
    exact .clean hdirty
  | true =>
    rw [hdirty, if_pos rfl, perform_bind] at h
    rcases hmin : s.perform (minimise .main) with ⟨_ | _, u⟩
    · obtain ⟨hsteps, hend⟩ := perform_minimise ha hmin
      rw [hmin] at h
      cases h
      exact .failed hsteps hend
    · obtain ⟨hsteps, hend⟩ := perform_minimise ha hmin
      rw [hmin] at h
      cases h
      exact .minimised hsteps hend

section Solves

variable (h : Solves s r t)
include h

theorem Solves.sameNames : s.SameNames t := by
  cases h with
  | clean => exact ⟨rfl, rfl, rfl, rfl, rfl⟩
  | minimised hsteps =>
    exact ⟨hsteps.sameFrame.live, hsteps.sameFrame.vars, hsteps.sameFrame.edits,
      hsteps.sameFrame.nextId, hsteps.sameFrame.autoSolve⟩
  | failed hsteps => exact hsteps.sameFrame.sameNames

theorem Solves.sound (hs : s.Sound target) : t.Sound target := by
  cases h with
  | clean => exact hs
  | minimised hsteps => exact (hsteps.sound hs).congr_dirty
  | failed hsteps => exact hsteps.sound hs

theorem Solves.pinned (hs : s.Solved) (hp : s.Pinned) : t.Pinned := by
  cases h with
  | clean => exact hp
  | minimised hsteps => exact (hsteps.pinned hs hp).congr rfl
  | failed hsteps => exact hsteps.pinned hs hp

theorem Solves.optimal (hs : s.Valid target) (hr : r = .ok ()) : t.dirty = false ∧ t.Optimal := by
  cases h with
  | clean hdirty => exact ⟨hdirty, hs.settled hdirty⟩
  | minimised hsteps hend =>
    exact ⟨rfl, hend.optimal (hsteps.solved hs.sound.models.solved)⟩
  | failed => cases hr

theorem Solves.isInternal {e : SolverError} (hr : r = .error e) : e.isInternal = true := by
  cases h with
  | clean => cases hr
  | minimised => cases hr
  | failed _ hend =>
    cases hr
    exact hend.isInternal

end Solves

/-! ### Rows whose constants move -/

theorem add_zero_eq (row : Row ℚ) : row.add 0 = row := by
  unfold Row.add
  rw [add_zero]

/-- The system after the constants of rows have moved. -/
structure Displaced (s : Solver ℚ) (move : Symbol → Row ℚ → ℚ) (t : Solver ℚ) : Prop where
  ascending : t.rows.Ascending
  get? : ∀ b, t.rows.get? b = (s.rows.get? b).map fun row => row.add (move b row)
  objective : t.objective = s.objective
  artificial : t.artificial = s.artificial
  frame : s.SameFrame t

section Displaced

variable (h : s.Displaced move t)
include h

theorem Displaced.isBasic_iff : t.IsBasic b ↔ s.IsBasic b := by
  unfold IsBasic
  rw [h.get?]
  cases s.rows.get? b with
  | none => simp
  | some row => simp

theorem Displaced.hasRow (hrow : t.HasRow row) :
    ∃ row₀ v, s.HasRow row₀ ∧ row = row₀.add v := by
  rcases hrow with ⟨b, hb⟩ | hobj | hart
  · rw [h.get?] at hb
    obtain ⟨row₀, hrow₀, rfl⟩ := Option.map_eq_some_iff.1 hb
    exact ⟨row₀, _, .basic hrow₀, rfl⟩
  · refine ⟨s.objective, 0, .objective, ?_⟩
    rw [hobj, h.objective]
    exact (add_zero_eq _).symm
  · rw [h.artificial] at hart
    exact ⟨row, 0, .artificial hart, (add_zero_eq _).symm⟩

theorem Displaced.solved (hs : s.Solved) : t.Solved where
  ascending := h.ascending
  normal := by
    intro row hrow
    obtain ⟨row₀, v, hrow₀, rfl⟩ := h.hasRow hrow
    exact (hs.normal row₀ hrow₀).add v
  solved := by
    intro row b hrow hb
    obtain ⟨row₀, v, hrow₀, rfl⟩ := h.hasRow hrow
    rw [Row.coefficient_add]
    exact hs.solved row₀ b hrow₀ (h.isBasic_iff.1 hb)
  known := by
    intro row x hrow hx
    obtain ⟨row₀, v, hrow₀, rfl⟩ := h.hasRow hrow
    rw [h.frame.nextId]
    rw [Row.coefficient_add] at hx
    exact hs.known row₀ x hrow₀ hx
  basic_known := by
    intro b hb
    rw [h.frame.nextId]
    exact hs.basic_known b (h.isBasic_iff.1 hb)

theorem Displaced.closed (hc : s.Closed) : t.Closed := by
  rintro row (⟨b, hb, hk⟩ | hobj | hart)
  · rw [h.get?] at hb
    obtain ⟨row₀, hrow₀, rfl⟩ := Option.map_eq_some_iff.1 hb
    intro x hx
    rw [Row.coefficient_add] at hx
    exact hc row₀ (.basic hrow₀ hk) x hx
  · rw [hobj, h.objective]
    exact hc _ .objective
  · rw [h.artificial] at hart
    exact hc row (.artificial hart)

theorem Displaced.pinned (hp : s.Pinned)
    (hmove : ∀ b row, s.rows.get? b = some row → b.IsDummy → move b row = 0) : t.Pinned := by
  intro b row hrow hb
  rw [h.get?] at hrow
  obtain ⟨row₀, hrow₀, rfl⟩ := Option.map_eq_some_iff.1 hrow
  obtain ⟨hzero, hwithin⟩ := hp b row₀ hrow₀ hb
  refine ⟨?_, ?_⟩
  · rw [Row.constant_add, hzero, hmove b row₀ hrow₀ hb, add_zero]
  · intro x hx
    rw [Row.coefficient_add] at hx
    exact hwithin x hx

theorem Displaced.noted (hn : s.Nonneg) (hrestricted : t.Notes)
    (hmoved : ∀ b row, s.rows.get? b = some row → b.IsRestricted → move b row ≠ 0 →
      (row.add (move b row)).constant < 0 → b ∈ t.infeasible) : t.Noted where
  restricted := hrestricted
  negative := by
    intro b row hrow hb hneg
    rw [h.get?] at hrow
    obtain ⟨row₀, hrow₀, rfl⟩ := Option.map_eq_some_iff.1 hrow
    apply hmoved b row₀ hrow₀ hb _ hneg
    intro hzero
    rw [Row.constant_add, hzero, add_zero] at hneg
    exact absurd hneg (not_lt.2 (hn b row₀ hrow₀ hb))

/-- The rows say of an assignment what they said of another one, where a symbol is moved. -/
theorem Displaced.satisfies_iff
    (hmove : ∀ b row, s.rows.get? b = some row → ∀ value : Symbol → ℚ,
      (value b = row.eval value + move b row ↔
        Function.update value y (value y + d) b
          = row.eval (Function.update value y (value y + d)))) :
    t.Satisfies value ↔ s.Satisfies (Function.update value y (value y + d)) := by
  constructor
  · intro hsat b row hrow
    rw [← hmove b row hrow, ← Row.eval_add]
    exact hsat b _ (by rw [h.get?, hrow]; rfl)
  · intro hsat b row hrow
    rw [h.get?] at hrow
    obtain ⟨row₀, hrow₀, rfl⟩ := Option.map_eq_some_iff.1 hrow
    rw [Row.eval_add, hmove b row₀ hrow₀]
    exact hsat b row₀ hrow₀

end Displaced

/-! ### The ways of a shift -/

theorem displaced_shiftRow (ha : s.rows.Ascending) (hrow : s.rows.get? y = some row) (d : ℚ) :
    s.Displaced (fun b _ => if b = y then d else 0) (s.shiftRow y row d) where
  ascending := ha.insert _ _
  get? b := by
    unfold shiftRow
    dsimp only
    rw [Table.get?_insert]
    by_cases hb : b = y
    · subst hb
      rw [if_pos rfl, if_pos rfl, hrow]
      rfl
    · simp only [if_neg hb, add_zero_eq, Option.map_id']
  objective := rfl
  artificial := rfl
  frame := ⟨rfl, rfl, rfl, rfl, rfl, rfl⟩

/-- One step of a shift of all rows. -/
def shiftEntry (m : Symbol) (δ : ℚ) (s : Solver ℚ) (entry : Symbol × Row ℚ) : Solver ℚ :=
  if entry.2.coefficient m = 0 then s
  else
    { s with
      rows := s.rows.insert entry.1 (entry.2.add (δ * entry.2.coefficient m))
      infeasible :=
        if (entry.2.add (δ * entry.2.coefficient m)).constant < 0 ∧ entry.1.IsRestricted then
          entry.1 :: s.infeasible
        else s.infeasible }

theorem shiftAll_eq (s : Solver ℚ) (m : Symbol) (δ : ℚ) :
    s.shiftAll m δ = s.rows.entries.foldl (shiftEntry m δ) s := by
  unfold shiftAll
  congr 1
  funext u entry
  unfold shiftEntry
  by_cases hc : entry.2.coefficient m = 0
  · simp [hc]
  · simp only [Scalar.same_rat, Scalar.zero_rat, Scalar.isNegative_rat, decide_eq_true_eq, hc,
      if_false, Bool.and_eq_true, bne_iff_ne]
    rfl

/-- Rows of a list that are still to be shifted, and those that have been. -/
theorem get?_foldl_shiftEntry (m : Symbol) (δ : ℚ) (l : List (Symbol × Row ℚ)) (s : Solver ℚ)
    (hnodup : (l.map Prod.fst).Nodup) (hget : ∀ entry ∈ l, s.rows.get? entry.1 = some entry.2)
    (b : Symbol) :
    (l.foldl (shiftEntry m δ) s).rows.get? b
      = (s.rows.get? b).map fun row =>
          if b ∈ l.map Prod.fst then row.add (δ * row.coefficient m) else row := by
  -- The entries were listed before the shift, so each must still be in place when its turn comes.
  induction l generalizing s with
  | nil => simp
  | cons entry rest ih =>
    obtain ⟨hnew, hnodup⟩ := List.nodup_cons.1 hnodup
    have hentry := hget entry List.mem_cons_self
    have hstep : ∀ b, (shiftEntry m δ s entry).rows.get? b
        = if b = entry.1 then some (entry.2.add (δ * entry.2.coefficient m))
          else s.rows.get? b := by
      intro b
      unfold shiftEntry
      split
      · next hc =>
        split
        · next hb => rw [hb, hentry, hc, mul_zero, add_zero_eq]
        · rfl
      · exact Table.get?_insert _ _ _ _
    have hrest : ∀ e ∈ rest, (shiftEntry m δ s entry).rows.get? e.1 = some e.2 := by
      intro e he
      have hne : e.1 ≠ entry.1 := by
        intro heq
        exact hnew (heq ▸ List.mem_map_of_mem he)
      rw [hstep, if_neg hne]
      exact hget e (List.mem_cons_of_mem _ he)
    rw [List.foldl_cons, ih _ hnodup hrest, hstep, List.map_cons]
    by_cases hb : b = entry.1
    · subst hb
      rw [if_pos rfl, hentry]
      simp [hnew]
    · simp only [if_neg hb, List.mem_cons, or_iff_right hb]

theorem sameFrame_shiftEntry (m : Symbol) (δ : ℚ) (s : Solver ℚ) (entry : Symbol × Row ℚ) :
    s.SameFrame (shiftEntry m δ s entry) ∧ (shiftEntry m δ s entry).objective = s.objective ∧
      (shiftEntry m δ s entry).artificial = s.artificial := by
  unfold shiftEntry
  split
  · exact ⟨.refl s, rfl, rfl⟩
  · exact ⟨⟨rfl, rfl, rfl, rfl, rfl, rfl⟩, rfl, rfl⟩

theorem sameFrame_foldl_shiftEntry (m : Symbol) (δ : ℚ) (l : List (Symbol × Row ℚ))
    (s : Solver ℚ) :
    s.SameFrame (l.foldl (shiftEntry m δ) s) ∧
      (l.foldl (shiftEntry m δ) s).objective = s.objective ∧
      (l.foldl (shiftEntry m δ) s).artificial = s.artificial := by
  induction l generalizing s with
  | nil => exact ⟨.refl s, rfl, rfl⟩
  | cons entry rest ih =>
    obtain ⟨hframe, hobj, hart⟩ := sameFrame_shiftEntry m δ s entry
    obtain ⟨hframe', hobj', hart'⟩ := ih (shiftEntry m δ s entry)
    exact ⟨hframe.trans hframe', hobj'.trans hobj, hart'.trans hart⟩

theorem ascending_foldl_shiftEntry (m : Symbol) (δ : ℚ) (l : List (Symbol × Row ℚ))
    (ha : s.rows.Ascending) : (l.foldl (shiftEntry m δ) s).rows.Ascending := by
  induction l generalizing s with
  | nil => exact ha
  | cons entry rest ih =>
    apply ih
    unfold shiftEntry
    split
    · exact ha
    · exact ha.insert _ _

theorem mem_infeasible_foldl_shiftEntry (m : Symbol) (δ : ℚ) (l : List (Symbol × Row ℚ))
    (s : Solver ℚ) (x : Symbol) :
    x ∈ (l.foldl (shiftEntry m δ) s).infeasible ↔
      x ∈ s.infeasible ∨ ∃ entry ∈ l, entry.1 = x ∧ x.IsRestricted ∧
        entry.2.coefficient m ≠ 0 ∧ (entry.2.add (δ * entry.2.coefficient m)).constant < 0 := by
  induction l generalizing s with
  | nil => simp
  | cons entry rest ih =>
    have hstep : x ∈ (shiftEntry m δ s entry).infeasible ↔ x ∈ s.infeasible ∨
        (entry.1 = x ∧ x.IsRestricted ∧ entry.2.coefficient m ≠ 0 ∧
          (entry.2.add (δ * entry.2.coefficient m)).constant < 0) := by
      unfold shiftEntry
      split
      · next hc => simp [hc]
      · next hc =>
        dsimp only
        split
        · next hneg =>
          rw [List.mem_cons]
          constructor
          · rintro (rfl | hx)
            · exact .inr ⟨rfl, hneg.2, hc, hneg.1⟩
            · exact .inl hx
          · rintro (hx | ⟨rfl, -⟩)
            · exact .inr hx
            · exact .inl rfl
        · next hneg =>
          constructor
          · exact .inl
          · rintro (hx | ⟨rfl, hr, -, hlt⟩)
            · exact hx
            · exact absurd ⟨hlt, hr⟩ hneg
    rw [List.foldl_cons, ih, hstep, or_assoc]
    simp only [List.mem_cons, exists_eq_or_imp]

theorem displaced_shiftAll (ha : s.rows.Ascending) (m : Symbol) (δ : ℚ) :
    s.Displaced (fun _ row => δ * row.coefficient m) (s.shiftAll m δ) := by
  rw [shiftAll_eq]
  obtain ⟨hframe, hobj, hart⟩ := sameFrame_foldl_shiftEntry m δ s.rows.entries s
  refine ⟨ascending_foldl_shiftEntry m δ _ ha, ?_, hobj, hart, hframe⟩
  intro b
  rw [get?_foldl_shiftEntry m δ _ s ha.nodup_keys fun entry hentry => ha.mem_entries_iff.1 hentry]
  cases hrow : s.rows.get? b with
  | none => rfl
  | some row =>
    have hmem : b ∈ s.rows.entries.map Prod.fst := Table.mem_keys_iff.2 ⟨row, hrow⟩
    simp [hmem]

/-- What a shift comes to: the solutions are those of before with one symbol moved, and whatever has
turned negative is noted. -/
structure Shifts (s : Solver ℚ) (y : Symbol) (d : ℚ) (t : Solver ℚ) : Prop where
  displaced : ∃ move, s.Displaced move t ∧
    (s.Pinned → ¬y.IsDummy → ∀ b row, s.rows.get? b = some row → b.IsDummy → move b row = 0)
  satisfies_iff : ∀ value,
    t.Satisfies value ↔ s.Satisfies (Function.update value y (value y + d))
  noted : s.Nonneg → s.Notes → t.Noted

theorem Solved.shifts_shiftRow (hs : s.Solved) (hrow : s.rows.get? y = some row)
    (hy : y.IsRestricted) (d : ℚ) : s.Shifts y (-d) (s.shiftRow y row d) := by
  have hdis := displaced_shiftRow hs.ascending hrow d
  have hfree : ∀ b row', s.rows.get? b = some row' → row'.coefficient y = 0 :=
    fun b row' hrow' => hs.solved row' y (.basic hrow') ⟨row, hrow⟩
  have hmem : ∀ x, x ∈ (s.shiftRow y row d).infeasible ↔
      (x = y ∧ (row.add d).constant < 0) ∨ x ∈ s.infeasible := by
    intro x
    unfold shiftRow
    simp only [Scalar.isNegative_rat, decide_eq_true_eq]
    split
    · next hneg => rw [List.mem_cons, and_iff_left hneg]
    · next hneg => simp only [hneg, and_false, false_or]
  refine ⟨⟨_, hdis, ?_⟩, ?_, ?_⟩
  · intro _ hdummy b _ _ hb
    rw [if_neg]
    rintro rfl
    exact hdummy hb
  · intro value
    apply hdis.satisfies_iff
    intro b row' hrow' value
    rw [Row.eval_update_of_coefficient (hs.normal row' (.basic hrow')) (hfree b row' hrow')]
    by_cases hb : b = y
    · subst hb
      rw [if_pos rfl, Function.update_self]
      constructor
      · intro h
        linarith
      · intro h
        linarith
    · rw [if_neg hb, Function.update_of_ne hb, add_zero]
  · intro hn hnotes
    apply hdis.noted hn
    · intro x hx
      rcases (hmem x).1 hx with ⟨rfl, -⟩ | hx
      · exact hy
      · exact hnotes x hx
    · intro b row' hrow' _ hmove hneg
      split at hmove
      · next hb =>
        subst hb
        rw [hrow] at hrow'
        cases hrow'
        rw [if_pos rfl] at hneg
        exact (hmem b).2 (.inl ⟨rfl, hneg⟩)
      · exact absurd rfl hmove

theorem Solved.shifts_shiftAll (hs : s.Solved) (hm : ¬s.IsBasic m) (δ : ℚ) :
    s.Shifts m δ (s.shiftAll m δ) := by
  have hdis := displaced_shiftAll hs.ascending m δ
  have hmem := mem_infeasible_foldl_shiftEntry m δ s.rows.entries s
  rw [← shiftAll_eq] at hmem
  refine ⟨⟨_, hdis, ?_⟩, ?_, ?_⟩
  · intro hp hdummy b row hrow hb
    rw [(hp b row hrow hb).2.coefficient hdummy, mul_zero]
  · intro value
    apply hdis.satisfies_iff
    intro b row' hrow' value
    have hb : b ≠ m := by
      rintro rfl
      exact hm ⟨row', hrow'⟩
    rw [Function.update_of_ne hb, Row.eval_update (hs.normal row' (.basic hrow'))]
    ring_nf
  · intro hn hnotes
    apply hdis.noted hn
    · intro x hx
      rcases (hmem x).1 hx with hx | ⟨entry, -, -, hr, -⟩
      · exact hnotes x hx
      · exact hr
    · intro b row' hrow' hr hmove hneg
      refine (hmem b).2 (.inr ⟨(b, row'), Table.mem_of_get? hrow', rfl, hr, ?_, hneg⟩)
      rintro hzero
      exact hmove (by rw [hzero, mul_zero])

/-- A new target moves the marker of an edit's constraint, or its other symbol the other way. -/
theorem Solved.shifts_shift (hs : s.Solved) {tag : Tag} (hm : tag.marker.IsRestricted)
    (ho : ∀ y, tag.other = some y → y.IsRestricted) (δ : ℚ) :
    s.Shifts tag.marker δ (s.shift tag δ) ∨
      ∃ y, tag.other = some y ∧ s.Shifts y (-δ) (s.shift tag δ) := by
  unfold shift
  cases hrow : s.rows.get? tag.marker with
  | some row =>
    have := hs.shifts_shiftRow hrow hm (-δ)
    rw [neg_neg] at this
    exact .inl this
  | none =>
    have hall := hs.shifts_shiftAll (not_isBasic_iff.2 hrow) δ
    cases hother : tag.other with
    | none => exact .inl hall
    | some y =>
      cases hrow' : s.rows.get? y with
      | none =>
        simp only [Option.bind_some, hrow', Option.map_none]
        exact .inl hall
      | some row' =>
        simp only [Option.bind_some, hrow', Option.map_some]
        exact .inr ⟨y, rfl, hs.shifts_shiftRow hrow' (ho y hother) δ⟩

/-! ### What a new target means -/

theorem exists_cost_update (s : Solver ℚ) (y : Symbol) (d : ℚ) :
    ∃ j, ∀ value : Symbol → ℚ,
      s.cost (Function.update value y (value y + d)) = s.cost value + j := by
  unfold cost
  induction s.live.entries with
  | nil => exact ⟨0, fun _ => by simp⟩
  | cons entry rest ih =>
    obtain ⟨j, hj⟩ := ih
    obtain ⟨i, hi⟩ := Live.exists_cost_update entry.2 y d
    refine ⟨i + j, ?_⟩
    intro value
    rw [List.map_cons, List.sum_cons, List.map_cons, List.sum_cons, hj value, hi value]
    ring

theorem Models.retarget (hm : s.Models target) (hlv : s.live.get? key = some lv)
    (hshifts : s.Shifts y d t) (hy : y ∈ lv.tag.symbols)
    (hresidual : ∀ reading value τ,
      lv.residual reading τ (Function.update value y (value y + d))
        = lv.residual reading (τ + δ) value)
    (htarget : target' key = target key + δ)
    (hothers : ∀ key', key' ≠ key → target' key' = target key') : t.Models target' := by
  obtain ⟨move, hdis, -⟩ := hshifts.displaced
  have hyr : y.IsRestricted := (hm.tagged.fits key lv hlv).kind_ne_external hy
  refine ⟨hdis.solved hm.solved, hdis.artificial.trans hm.idle,
    hm.registered.congr hdis.frame.vars hdis.frame.nextId.ge,
    hm.tagged.grow hdis.frame.live (fun x z hz => hdis.frame.vars ▸ hz) hdis.frame.nextId.ge, ?_, ?_⟩
  · intro value
    rw [hshifts.satisfies_iff, hm.satisfies_iff]
    unfold Balances
    rw [hdis.frame.live]
    refine forall_congr' fun key' => forall_congr' fun lv' => imp_congr_right fun hlv' => ?_
    unfold Live.Balanced
    rw [hm.registered.reading_update hyr, reading_of_vars hdis.frame.vars]
    -- The constraint's own equation has its target moved; the others do not mention the symbol.
    by_cases hkey : key' = key
    · subst hkey
      rw [hlv] at hlv'
      cases hlv'
      rw [hresidual, htarget]
    · have hne : ∀ x ∈ lv'.tag.symbols, x ≠ y := by
        rintro x hx rfl
        exact hkey (hm.tagged.apart key' lv' key lv hlv' hlv x hx hy)
      rw [hothers key' hkey, Live.residual_congr rfl fun x hx => Function.update_of_ne (hne x hx) _ _]
  · obtain ⟨k, hk⟩ := hm.objective
    obtain ⟨j, hj⟩ := exists_cost_update s y d
    refine ⟨k + j - s.objective.coefficient y * d, ?_⟩
    intro value hsat
    have hsat' := (hshifts.satisfies_iff value).1 hsat
    have hobj := hk _ hsat'
    rw [hj, Row.eval_update (hm.solved.normal _ .objective)] at hobj
    have hcost : t.cost value = s.cost value := by
      unfold cost
      rw [hdis.frame.live]
    rw [hdis.objective, hcost]
    linarith

/-! ### The constraint of an edit variable -/

theorem Models.elastic (hm : s.Models target) (hlv : s.live.get? key = some lv)
    (hrel : lv.constraint.relation = .equal) (hsoft : ¬lv.constraint.IsRequired) :
    lv.tag.marker.kind = .error ∧ ∃ other, lv.Elastic other ∧ other.kind = .error := by
  have hfits := hm.tagged.fits key lv hlv
  unfold Live.Fits at hfits
  have hsoft : lv.constraint.strength.isRequired = false := by
    simpa [Constraint.IsRequired] using hsoft
  rw [hrel, hsoft] at hfits
  obtain ⟨hk, other, ho, hko⟩ := hfits
  exact ⟨hk, other, ⟨hrel, ho, hm.tagged.distinct key lv other hlv ho⟩, hko⟩

/-- After a shift the tableau represents the constraints at the new target. -/
structure Retargets (s : Solver ℚ) (target : Handle → ℚ) (t : Solver ℚ) : Prop where
  models : t.Models target
  closed : t.Closed
  noted : t.Noted
  pinned : s.Pinned → t.Pinned
  objective : t.objective = s.objective
  frame : s.SameFrame t

theorem Sound.retargets (hs : s.Sound target) (hlv : s.live.get? key = some lv)
    (hrel : lv.constraint.relation = .equal) (hsoft : ¬lv.constraint.IsRequired)
    (htarget : target' key = target key + δ)
    (hothers : ∀ key', key' ≠ key → target' key' = target key') :
    Retargets s target' (s.shift lv.tag δ) := by
  obtain ⟨hkm, other, hel, hko⟩ := hs.models.elastic hlv hrel hsoft
  have hm : lv.tag.marker.IsRestricted := by simp [Symbol.IsRestricted, hkm]
  have ho : ∀ y, lv.tag.other = some y → y.IsRestricted :=
    fun y hy => (hs.models.tagged.fits key lv hlv).kind_ne_external (Tag.other_mem hy)
  have hdm : ¬lv.tag.marker.IsDummy := by simp [Symbol.IsDummy, hkm]
  have hdo : ¬other.IsDummy := by simp [Symbol.IsDummy, hko]
  rcases hs.models.solved.shifts_shift hm ho δ with hshifts | ⟨y, hy, hshifts⟩
  · obtain ⟨move, hdis, hpins⟩ := hshifts.displaced
    refine ⟨?_, hdis.closed hs.closed, hshifts.noted hs.nonneg hs.notes, ?_, hdis.objective,
      hdis.frame⟩
    · exact hs.models.retarget hlv hshifts lv.marker_mem hel.residual_marker htarget hothers
    · intro hp
      exact hdis.pinned hp (hpins hp hdm)
  · rw [hel.other_eq] at hy
    cases hy
    obtain ⟨move, hdis, hpins⟩ := hshifts.displaced
    refine ⟨?_, hdis.closed hs.closed, hshifts.noted hs.nonneg hs.notes, ?_, hdis.objective,
      hdis.frame⟩
    · exact hs.models.retarget hlv hshifts (Tag.other_mem hel.other_eq) hel.residual_other htarget
        hothers
    · intro hp
      exact hdis.pinned hp (hpins hp hdo)

/-! ### The ways of a suggestion -/

/-- How a suggestion ends: minimisation that was due fails, the variable is not edited, or the rows
are mended. -/
inductive Suggests (s : Solver ℚ) (x : Variable) (v : ℚ) :
    Except SolverError Unit → Solver ℚ → Prop
  | unsolved {e : SolverError} {t : Solver ℚ} (hsolves : Solves s (.error e) t) :
      Suggests s x v (.error e) t
  | unknown {t : Solver ℚ} (hsolves : Solves s (.ok ()) t) (hnone : t.edits.get? x = none) :
      Suggests s x v (.error .unknownEdit) t
  | mends {u t : Solver ℚ} {edit : Edit ℚ} {r : Except SolverError Unit}
      (hsolves : Solves s (.ok ()) u) (hedit : u.edits.get? x = some edit)
      (hend : DualEnd (Solver.shift { u with edits := u.edits.insert x { edit with target := v } }
        edit.tag (v - edit.target)) t r) : Suggests s x v r t

theorem perform_suggest (ha : s.rows.Ascending) {x : Variable} {v : ℚ}
    (h : s.perform (suggest x v) = (r, t)) : Suggests s x v r t := by
  unfold suggest at h
  rw [perform_bind] at h
  rcases hsolve : s.perform solve with ⟨_ | _, u⟩
  · rw [hsolve] at h
    cases h
    exact .unsolved (perform_solve ha hsolve)
  · have hsolves := perform_solve ha hsolve
    rw [hsolve] at h
    dsimp only at h
    rw [perform_bind] at h
    simp only [perform_get] at h
    split at h
    · next hnone =>
      cases h
      exact .unknown hsolves hnone
    · next edit hedit =>
      rw [perform_bind] at h
      simp only [perform_set] at h
      exact .mends hsolves hedit (perform_mend h)

theorem DualSteps.sound (h : DualSteps s t) (hm : s.Models target) (hc : s.Closed)
    (hn : s.Noted) (hdone : t.infeasible = []) : t.Sound target where
  models := hm.congr h.sameFrame.live h.sameFrame.vars h.sameFrame.nextId.ge
    (h.mending ⟨hm.solved, hc, hn⟩).solved (h.idle ⟨hm.solved, hc, hn⟩ hm.idle)
    (fun value => h.satisfies_iff ⟨hm.solved, hc, hn⟩ value)
    fun _ hsat => h.eval_objective ⟨hm.solved, hc, hn⟩ hsat
  closed := (h.mending ⟨hm.solved, hc, hn⟩).closed
  nonneg := (h.mending ⟨hm.solved, hc, hn⟩).noted.nonneg hdone
  notes := (h.mending ⟨hm.solved, hc, hn⟩).noted.restricted

end Solver

end ReactiveView
