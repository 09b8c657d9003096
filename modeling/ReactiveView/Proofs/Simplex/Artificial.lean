import Mathlib
import ReactiveView.Proofs.Simplex.Construct

/-!
This module contains the artificial phase: a row that no symbol of its own can be solved for is
joined to the tableau under a slack of its own, which is then driven to zero if that is possible.
-/

namespace ReactiveView

namespace Row

variable {row : Row ℚ} {value : Symbol → ℚ}

/-- Where only dummies could make a row smaller, and they rest, its constant is the least value. -/
theorem constant_le_eval (hn : row.Normal) (hw : row.Within Symbol.IsRestricted)
    (hleast : ∀ x : Symbol, ¬x.IsDummy → 0 ≤ row.coefficient x)
    (hpos : ∀ x : Symbol, x.IsRestricted → 0 ≤ value x)
    (hdummy : ∀ x : Symbol, x.IsDummy → value x = 0) : row.constant ≤ row.eval value := by
  unfold eval
  apply le_add_of_nonneg_right
  apply List.sum_nonneg
  intro v hv
  obtain ⟨⟨x, c⟩, hmem, rfl⟩ := List.mem_map.1 hv
  obtain ⟨rfl, hc⟩ := hn.mem_entries_iff.1 hmem
  change 0 ≤ row.coefficient x * value x
  by_cases hx : x.IsDummy
  · rw [hdummy x hx, mul_zero]
  · exact mul_nonneg (hleast x hx) (hpos x (hw x hc))

end Row

namespace Solver

/-- The symbol of an artificial row. -/
def art (s : Solver ℚ) : Symbol := ⟨s.nextId, .slack⟩

/-- The system with a row joined to it under a slack of its own, to be minimised. -/
def adjoin (s : Solver ℚ) (row : Row ℚ) : Solver ℚ :=
  { s with
    nextId := s.nextId + 1
    rows := s.rows.insert s.art row
    artificial := some row }

/-- The system without an artificial row to minimise. -/
def idle (s : Solver ℚ) : Solver ℚ := { s with artificial := none }

variable {s t u : Solver ℚ} {row row' g : Row ℚ} {a b e x : Symbol} {value : Symbol → ℚ}

theorem Solved.idle (h : s.Solved) : s.idle.Solved := by
  have hrow : ∀ row, s.idle.HasRow row → s.HasRow row := by
    rintro row (⟨b, hb⟩ | hobj | hart)
    · exact .basic hb
    · exact .inr (.inl hobj)
    · cases hart
  exact ⟨h.ascending, fun row hr => h.normal row (hrow row hr),
    fun row b hr hb => h.solved row b (hrow row hr) hb,
    fun row x hr hx => h.known row x (hrow row hr) hx, h.basic_known⟩

theorem Closed.idle (h : s.Closed) : s.idle.Closed := by
  rintro row (⟨b, hb, hk⟩ | hobj | hart)
  · exact h row (.basic hb hk)
  · exact h row (.inr (.inl hobj))
  · cases hart

/-! ### Joining the row -/

section Adjoin

variable (hs : s.Solved) (hp : s.Parametric row)

include hs in
theorem Solved.art_fresh : ¬s.IsBasic s.art ∧ ∀ row, s.HasRow row → row.coefficient s.art = 0 :=
  hs.fresh le_rfl

include hp in
theorem Parametric.coefficient_art : row.coefficient s.art = 0 := by
  by_contra hne
  exact absurd (hp.known _ hne) (lt_irrefl _)

theorem get?_adjoin (s : Solver ℚ) (row : Row ℚ) (b : Symbol) :
    (s.adjoin row).rows.get? b = if b = s.art then some row else s.rows.get? b :=
  Table.get?_insert _ _ _ _

theorem of_get?_adjoin (h : (s.adjoin row).rows.get? b = some row') :
    b = s.art ∧ row' = row ∨ s.rows.get? b = some row' :=
  Table.of_get?_insert h

theorem hasRow_adjoin (h : (s.adjoin row).HasRow row') : row' = row ∨ s.HasRow row' := by
  rcases h with ⟨b, hb⟩ | hobj | hart
  · rcases of_get?_adjoin hb with ⟨-, rfl⟩ | hb
    · exact .inl rfl
    · exact .inr (.basic hb)
  · exact .inr (.inr (.inl hobj))
  · cases hart
    exact .inl rfl

theorem isBasic_adjoin (h : (s.adjoin row).IsBasic b) : b = s.art ∨ s.IsBasic b := by
  obtain ⟨row', hrow'⟩ := h
  rcases of_get?_adjoin hrow' with ⟨heq, -⟩ | hrow'
  · exact .inl heq
  · exact .inr ⟨row', hrow'⟩

include hs hp

theorem Solved.adjoin : (s.adjoin row).Solved where
  ascending := hs.ascending.insert _ _
  normal := by
    intro row' hrow'
    rcases hasRow_adjoin hrow' with rfl | hrow'
    · exact hp.normal
    · exact hs.normal row' hrow'
  solved := by
    intro row' b hrow' hb
    rcases isBasic_adjoin hb with rfl | hold
    · rcases hasRow_adjoin hrow' with rfl | hrow'
      · exact hp.coefficient_art
      · exact hs.art_fresh.2 row' hrow'
    · rcases hasRow_adjoin hrow' with rfl | hrow'
      · exact hp.solved b hold
      · exact hs.solved row' b hrow' hold
  known := by
    intro row' x hrow' hx
    show x.id < s.nextId + 1
    rcases hasRow_adjoin hrow' with rfl | hrow'
    · exact (hp.known x hx).trans (Nat.lt_succ_self _)
    · exact (hs.known row' x hrow' hx).trans (Nat.lt_succ_self _)
  basic_known := by
    intro b hb
    show b.id < s.nextId + 1
    rcases isBasic_adjoin hb with rfl | hb
    · exact Nat.lt_succ_self _
    · exact (hs.basic_known b hb).trans (Nat.lt_succ_self _)

omit hp in
theorem Solved.satisfies_adjoin :
    (s.adjoin row).Satisfies value ↔ s.Satisfies value ∧ value s.art = row.eval value := by
  constructor
  · intro hsat
    constructor
    · intro b row' hrow'
      have hne : b ≠ s.art := by
        rintro rfl
        exact hs.art_fresh.1 ⟨row', hrow'⟩
      exact hsat b row' (by rw [get?_adjoin, if_neg hne, hrow'])
    · exact hsat s.art row (by rw [get?_adjoin, if_pos rfl])
  · rintro ⟨hsat, hart⟩ b row' hrow'
    rcases of_get?_adjoin hrow' with ⟨rfl, rfl⟩ | hrow'
    · exact hart
    · exact hsat b row' hrow'

omit hs hp in
theorem Closed.adjoin (hc : s.Closed) (hw : row.Within Symbol.IsRestricted) :
    (s.adjoin row).Closed := by
  rintro row' (⟨b, hb, hk⟩ | hobj | hart)
  · rcases of_get?_adjoin hb with ⟨-, rfl⟩ | hb
    · exact hw
    · exact hc row' (.basic hb hk)
  · exact hc row' (.inr (.inl hobj))
  · cases hart
    exact hw

omit hs hp in
theorem Nonneg.adjoin (hn : s.Nonneg) (hpos : 0 ≤ row.constant) : (s.adjoin row).Nonneg := by
  intro b row' hrow' hb
  rcases of_get?_adjoin hrow' with ⟨-, rfl⟩ | hrow'
  · exact hpos
  · exact hn b row' hrow' hb

omit hs hp in
theorem Pinned.adjoin (hpin : s.Pinned) : (s.adjoin row).Pinned := by
  intro b row' hrow' hb
  rcases of_get?_adjoin hrow' with ⟨rfl, -⟩ | hrow'
  · cases hb
  · exact hpin b row' hrow' hb

end Adjoin

/-! ### Taking the row out again -/

/-- How the artificial row is taken out after it has been minimised: its symbol may be parametric,
constant, pinned to dummies, or exchanged for a symbol of its row. -/
inductive Retires (u : Solver ℚ) (a : Symbol) (g : Row ℚ) : Bool → Solver ℚ → Prop
  | parametric (hrow : u.rows.get? a = none) :
      Retires u a g (decide (g.constant = 0)) ((u.idle.forget a).clear a)
  | constant {row : Row ℚ} (hrow : u.rows.get? a = some row) (hempty : row.Within fun _ => False) :
      Retires u a g (decide (g.constant = 0)) (u.idle.forget a)
  | stuck {row : Row ℚ} (hrow : u.rows.get? a = some row)
      (hkinds : ∀ x, row.coefficient x ≠ 0 → x.isPivotable = false) :
      Retires u a g false (u.idle.forget a)
  | exchanged {row : Row ℚ} {e : Symbol} (hrow : u.rows.get? a = some row)
      (he : row.coefficient e ≠ 0) (hkind : e.isPivotable = true) :
      Retires u a g (decide (g.constant = 0)) ((u.idle.pivot a e row).clear a)

theorem perform_addArtificial_eq (s : Solver ℚ) (row : Row ℚ) :
    s.perform (addArtificial row) =
      match (s.adjoin row).perform (minimise .artificial) with
      | (.error e, u) => (.error e, u)
      | (.ok (), u) =>
        let success := match u.artificial with
          | some g => decide (g.constant = 0)
          | none => false
        match u.rows.get? s.art with
        | none => (.ok success, (u.idle.forget s.art).clear s.art)
        | some row' =>
          if row'.cells.isEmpty then (.ok success, u.idle.forget s.art)
          else
            match row'.cells.keys.find? Symbol.isPivotable with
            | none => (.ok false, u.idle.forget s.art)
            | some e => (.ok success, (u.idle.pivot s.art e row').clear s.art) := by
  unfold addArtificial
  rw [perform_bind]
  simp only [perform_get]
  rw [perform_bind]
  simp only [newSymbol, perform_set]
  rw [perform_bind]
  have hadjoin : ({ s with
      nextId := s.nextId + 1, rows := s.rows.insert ⟨s.nextId, .slack⟩ row,
      artificial := some row } : Solver ℚ) = s.adjoin row := rfl
  rw [hadjoin]
  rcases (s.adjoin row).perform (minimise .artificial) with ⟨_ | _, u⟩
  · rfl
  · dsimp only
    rw [perform_bind]
    simp only [perform_get]
    rw [perform_bind]
    simp only [perform_set]
    have hart : (⟨s.nextId, .slack⟩ : Symbol) = s.art := rfl
    rw [hart]
    cases hrow : u.rows.get? s.art with
    | none =>
      dsimp only
      rw [perform_bind, addArtificial.dropSymbol, perform_modify]
      simp only [perform_pure, Scalar.negligible_rat]
      cases u.artificial <;> rfl
    | some row' =>
      dsimp only
      split
      · simp only [perform_pure, Scalar.negligible_rat]
        cases u.artificial <;> rfl
      · cases hfind : row'.cells.keys.find? Symbol.isPivotable with
        | none => rfl
        | some e =>
          dsimp only
          rw [perform_bind, perform_modify]
          dsimp only
          rw [perform_bind, addArtificial.dropSymbol, perform_modify]
          simp only [perform_pure, Scalar.negligible_rat]
          cases u.artificial <;> rfl

/-- How the artificial phase ends. -/
inductive ArtificialEnd (s : Solver ℚ) (row : Row ℚ) : Except SolverError Bool → Solver ℚ → Prop
  | failed {u : Solver ℚ} {e : SolverError} (hsteps : PrimalSteps .artificial (s.adjoin row) u)
      (hend : PrimalEnd .artificial u (.error e)) : ArtificialEnd s row (.error e) u
  | retired {u t : Solver ℚ} {g : Row ℚ} {success : Bool}
      (hsteps : PrimalSteps .artificial (s.adjoin row) u)
      (hart : u.artificial = some g) (hleast : entering? g = none)
      (hretires : Retires u s.art g success t) : ArtificialEnd s row (.ok success) t

theorem perform_addArtificial (hs : s.Solved) (hp : s.Parametric row) {r : Except SolverError Bool}
    (h : s.perform (addArtificial row) = (r, t)) : ArtificialEnd s row r t := by
  have hs' := hs.adjoin hp
  rw [perform_addArtificial_eq] at h
  rcases hmin : (s.adjoin row).perform (minimise .artificial) with ⟨r', u⟩
  rw [hmin] at h
  obtain ⟨hsteps, hend⟩ := perform_minimise hs'.ascending hmin
  cases r' with
  | error e =>
    cases h
    exact .failed hsteps hend
  | ok _ =>
    have hu := hsteps.solved hs'
    obtain ⟨g, hg, -⟩ := hsteps.eval_artificial hs' rfl
    cases hend with
    | least hleast =>
      have hleast : entering? g = none := by
        unfold goalRow at hleast
        rw [hg] at hleast
        exact hleast
      dsimp only at h
      rw [hg] at h
      dsimp only at h
      split at h
      · next hnone =>
        cases h
        exact .retired hsteps hg hleast (.parametric hnone)
      · next row' hrow' =>
        have hn := hu.normal row' (.basic hrow')
        split at h
        · next hempty =>
          cases h
          refine .retired hsteps hg hleast (.constant hrow' ?_)
          intro x hx
          have hmem := hn.mem_entries_iff.2 ⟨rfl, hx⟩
          unfold Table.isEmpty at hempty
          rw [List.isEmpty_iff] at hempty
          rw [hempty] at hmem
          cases hmem
        · split at h
          · next hnone =>
            cases h
            refine .retired hsteps hg hleast (.stuck hrow' ?_)
            intro x hx
            simpa using List.find?_eq_none.1 hnone x (hn.mem_keys_iff.2 hx)
          · next e hfind =>
            cases h
            exact .retired hsteps hg hleast (.exchanged hrow'
              (hn.mem_keys_iff.1 (List.mem_of_find?_eq_some hfind)) (List.find?_some hfind))

section Retires

variable {success : Bool} (h : Retires u a g success t) (hu : u.Solved)
include h

theorem Retires.sameFrame : u.SameFrame t := by
  cases h with
  | parametric => exact ⟨rfl, rfl, rfl, rfl, rfl, rfl⟩
  | constant => exact ⟨rfl, rfl, rfl, rfl, rfl, rfl⟩
  | stuck => exact ⟨rfl, rfl, rfl, rfl, rfl, rfl⟩
  | exchanged => exact ⟨rfl, rfl, rfl, rfl, rfl, rfl⟩

theorem Retires.idle : t.artificial = none := by
  cases h <;> rfl

include hu

theorem Retires.solved : t.Solved := by
  cases h with
  | parametric => exact (hu.idle.forget a).clear a
  | constant => exact hu.idle.forget a
  | stuck => exact hu.idle.forget a
  | exchanged hrow he => exact (hu.idle.pivot hrow he).clear a

theorem Retires.notes (hnotes : u.Notes) : t.Notes := by
  cases h with
  | parametric => exact hnotes
  | constant => exact hnotes
  | stuck => exact hnotes
  | exchanged => exact Notes.pivot (s := u.idle) hnotes hu.ascending

theorem Retires.closed (hc : u.Closed) (ha : a.IsRestricted) : t.Closed := by
  cases h with
  | parametric => exact (hc.idle.forget a).clear a
  | constant => exact hc.idle.forget a
  | stuck => exact hc.idle.forget a
  | exchanged hrow he => exact (hc.idle.pivot hu.idle hrow he ha).clear a

theorem Retires.pinned (hp : u.Pinned) : t.Pinned := by
  have hp' : u.idle.Pinned := hp.congr rfl
  cases h with
  | parametric => exact (hp'.forget a).clear a
  | constant => exact hp'.forget a
  | stuck => exact hp'.forget a
  | @exchanged row e hrow he hkind =>
    refine (hp'.pivot hu.idle hrow he ?_).clear a
    intro hdummy
    unfold Symbol.IsDummy at hdummy
    simp [Symbol.isPivotable, hdummy] at hkind

variable (hart : u.artificial = some g)
  (hg : ∀ value, u.Satisfies value → value a = g.eval value)
include hart hg

omit h in
theorem Retires.constant_eq (hrow : u.rows.get? a = some row) : row.constant = g.constant := by
  have := hg _ hu.satisfies_corner
  rw [corner_of_get? hrow, hu.eval_corner (.artificial hart)] at this
  exact this

/-- If the row reaches zero then what is left are the solutions that make it zero. -/
theorem Retires.satisfies_iff (hsuccess : success = true) :
    t.Satisfies value ↔ u.Satisfies (Function.update value a 0) := by
  cases h with
  | parametric hrow =>
    have hsame : (u.idle.forget a).rows = u.rows := Table.erase_eq_self hrow
    rw [(hu.idle.forget a).satisfies_clear fun hb => (isBasic_forget.1 hb).1 rfl]
    exact ⟨fun hsat => hsat.congr hsame.symm, fun hsat => hsat.congr hsame⟩
  | @constant row hrow hempty =>
    have hzero : row.eval value = 0 := by
      have hnone : ∀ x, row.coefficient x ≠ 0 → value x = (fun _ => (0 : ℚ)) x :=
        fun x hx => (hempty x hx).elim
      rw [Row.eval_congr (hu.normal row (.basic hrow)) hnone, Row.eval_zero,
        Retires.constant_eq hu hart hg hrow]
      exact of_decide_eq_true hsuccess
    rw [hu.idle.satisfies_forget_iff hrow, hzero]
    exact Iff.rfl
  | stuck => cases hsuccess
  | @exchanged row e hrow he hkind =>
    have hne := hu.ne_of_coefficient hrow he
    have hparametric : ¬(u.idle.pivot a e row).IsBasic a := by
      intro hb
      rw [pivot_eq] at hb
      rcases isBasic_install.1 hb with heq | hb
      · exact hne heq
      · exact (isBasic_forget.1 hb).1 rfl
    rw [(hu.idle.pivot hrow he).satisfies_clear hparametric, hu.idle.satisfies_pivot hrow he]
    exact Iff.rfl

theorem Retires.eval_objective (hsuccess : success = true) (hsat : t.Satisfies value) :
    t.objective.eval value = u.objective.eval (Function.update value a 0) := by
  have hsat' := (h.satisfies_iff hu hart hg hsuccess).1 hsat
  cases h with
  | parametric => exact eval_remove_eq_update (hu.normal _ .objective) a value
  | constant hrow =>
    exact (Row.eval_update_of_coefficient (hu.normal _ .objective)
      (hu.solved _ a .objective ⟨_, hrow⟩)).symm
  | stuck => cases hsuccess
  | exchanged hrow he =>
    refine (eval_remove_eq_update ((hu.idle.pivot hrow he).normal _ .objective) a value).trans ?_
    exact hu.idle.eval_pivot hrow he hsat' .objective

theorem Retires.nonneg (hn : u.Nonneg) (hsuccess : success = true) : t.Nonneg := by
  have hn' : u.idle.Nonneg := hn.congr rfl
  cases h with
  | parametric => exact (hn'.forget a).clear a
  | constant => exact hn'.forget a
  | stuck => cases hsuccess
  | @exchanged row e hrow he hkind =>
    -- The pivot may go either way because it moves nothing.
    have hzero : -row.constant / row.coefficient e = 0 := by
      rw [Retires.constant_eq hu hart hg hrow, of_decide_eq_true hsuccess, neg_zero, zero_div]
    refine (Nonneg.pivot hu.idle hrow he hzero.ge ?_).clear a
    intro b row' hrow' hb _
    rw [hzero, mul_zero, add_zero]
    exact hn b row' hrow' hb

/-- If the row cannot reach zero then every solution that keeps signs and pins makes it positive,
provided that it is not a matter of dummies alone. -/
theorem Retires.eval_pos (hfailed : success = false) (hn : u.Nonneg) (hc : u.Closed)
    (hleast : entering? g = none) (ha : a.IsRestricted)
    (hmoves : ∃ v v', u.Satisfies v ∧ u.Satisfies v' ∧ (∀ x : Symbol, x.IsDummy → v x = v' x) ∧
      v a ≠ v' a)
    (hsat : u.Satisfies value) (hpos : ∀ x : Symbol, x.IsRestricted → 0 ≤ value x)
    (hdummy : ∀ x : Symbol, x.IsDummy → value x = 0) : 0 < value a := by
  have hgn := hu.normal g (.artificial hart)
  have hgc := hc g (.artificial hart)
  have hge : g.constant ≤ g.eval value :=
    Row.constant_le_eval hgn hgc (fun x hx => entering?_eq_none hgn hleast hx) hpos hdummy
  have hcorner : 0 ≤ g.constant := by
    rw [← hu.eval_corner (.artificial hart), ← hg _ hu.satisfies_corner]
    by_cases hb : u.IsBasic a
    · obtain ⟨row, hrow⟩ := hb
      rw [corner_of_get? hrow]
      exact hn a row hrow ha
    · rw [corner_of_not_isBasic hb]
  -- At zero only a row of dummies fails, and then the symbol cannot move while they rest.
  have hgpos : 0 < g.constant := by
    apply lt_of_le_of_ne hcorner
    intro hzero
    cases h with
    | parametric => simp [← hzero] at hfailed
    | constant => simp [← hzero] at hfailed
    | exchanged => simp [← hzero] at hfailed
    | @stuck row hrow hkinds =>
      obtain ⟨v, v', hv, hv', hsame, hne⟩ := hmoves
      apply hne
      rw [hv a row hrow, hv' a row hrow]
      apply Row.eval_congr (hu.normal row (.basic hrow))
      intro x hx
      apply hsame
      have hr := hc row (.basic hrow ha) x hx
      have hk := hkinds x hx
      unfold Symbol.IsRestricted at hr
      unfold Symbol.IsDummy
      cases hkind : x.kind with
      | external => exact absurd hkind hr
      | slack => simp [Symbol.isPivotable, hkind] at hk
      | error => simp [Symbol.isPivotable, hkind] at hk
      | dummy => rfl
  rw [hg value hsat]
  exact hgpos.trans_le hge

end Retires

end Solver

end ReactiveView
