import Mathlib
import ReactiveView.Proofs.Simplex.Artificial

/-!
This module contains the addition of a constraint. Its equation joins the tableau, or the tableau
stays as it was; it is refused only where no solution could keep the signs and the pins.
-/

namespace ReactiveView

namespace Solver

/-- Whether an assignment keeps the signs of the restricted symbols and the dummies at zero. -/
structure Admissible (value : Symbol → ℚ) : Prop where
  nonneg : ∀ x : Symbol, x.IsRestricted → 0 ≤ value x
  dummy : ∀ x : Symbol, x.IsDummy → value x = 0

/-- What it means that an equation has joined the tableau, as far as the solutions and the
invariants are concerned. -/
structure Joins (s : Solver ℚ) (row : Row ℚ) (t : Solver ℚ) : Prop where
  solved : t.Solved
  idle : t.artificial = none
  live : t.live = s.live
  vars : t.vars = s.vars
  edits : t.edits = s.edits
  autoSolve : t.autoSolve = s.autoSolve
  dirty : t.dirty = s.dirty
  nextId : s.nextId ≤ t.nextId
  satisfies_iff : ∀ value, t.Satisfies value ↔ s.Satisfies value ∧ row.eval value = 0
  objective : ∀ value, t.Satisfies value → t.objective.eval value = s.objective.eval value
  closed : s.Closed → t.Closed
  nonneg : s.Closed → s.Nonneg → t.Nonneg
  pinned : s.Pinned → t.Pinned
  notes : s.Notes → t.Notes

variable {s t u : Solver ℚ} {row : Row ℚ} {y : Symbol} {value : Symbol → ℚ} {tag : Tag}

/-! ### Rows solved for a symbol of their own -/

/-- What the symbol is like that a row can be solved for at once. -/
inductive Subject (row : Row ℚ) (tag : Tag) (y : Symbol) : Prop
  | free (hkind : y.kind = .external)
  | own (hmem : y ∈ tag.symbols) (hkind : y.isPivotable = true) (hneg : row.coefficient y < 0)
      (hwithin : row.Within Symbol.IsRestricted)
  | redundant (hmarker : y = tag.marker) (hwithin : row.Within Symbol.IsDummy)
      (hzero : row.constant = 0)

section Install

variable (hs : s.Solved) (hp : s.Parametric row) (hy : row.coefficient y ≠ 0)
include hs hp hy

omit hs in
theorem Parametric.defines_solvedFor : s.Defines y (row.solvedFor y) where
  normal := hp.normal.solvedFor hy
  parametric hb := hy (hp.solved y hb)
  own := by rw [Row.coefficient_solvedFor hp.normal hy, if_pos rfl]
  solved b hb := by
    rw [Row.coefficient_solvedFor hp.normal hy, hp.solved b hb]
    simp
  known x hx := by
    apply hp.known
    intro h0
    rw [Row.coefficient_solvedFor hp.normal hy, h0] at hx
    simp at hx
  symbol_known := hp.known y hy

theorem joins_install (hidle : s.artificial = none) (hpos : 0 ≤ row.constant)
    (hfresh : y ∈ tag.symbols → ∀ b row', s.rows.get? b = some row' → row'.coefficient y = 0)
    (hsub : Subject row tag y) : s.Joins row (s.install y (row.solvedFor y)) := by
  have hd := hp.defines_solvedFor hy
  have hn := hp.normal
  refine ⟨hs.install hd, ?_, rfl, rfl, rfl, rfl, rfl, le_rfl, ?_, ?_, ?_, ?_, ?_, ?_⟩
  · show s.artificial.map _ = none
    rw [hidle]
    rfl
  · intro value
    rw [hs.satisfies_install hd, Row.eq_eval_solvedFor_iff hn hy]
  · intro value hsat
    have hdef := ((hs.satisfies_install hd).1 hsat).2
    show (s.objective.substitute y (row.solvedFor y)).eval value = _
    rw [Row.eval_substitute (hs.normal _ .objective), ← hdef]
    ring
  · intro hc
    apply hc.install hs hd.normal
    intro hr
    cases hsub with
    | free hkind => exact absurd hkind hr
    | own _ _ _ hwithin => exact hwithin.solvedFor hn hy
    | redundant _ hwithin _ =>
      intro x hx
      exact (hwithin.solvedFor hn hy x hx).isRestricted
  · intro hc hnn
    apply Nonneg.install hs
    · intro hr
      rw [Row.constant_solvedFor hn hy]
      cases hsub with
      | free hkind => exact absurd hkind hr
      | own _ _ hneg _ => exact div_nonneg_of_nonpos (neg_nonpos.2 hpos) hneg.le
      | redundant _ _ hzero => rw [hzero, neg_zero, zero_div]
    · intro b row' hrow' hb
      have hzero : row'.coefficient y = 0 := by
        cases hsub with
        | free hkind => exact (hc row' (.basic hrow' hb)).coefficient fun hr => hr hkind
        | own hmem => exact hfresh hmem b row' hrow'
        | redundant hmarker => exact hfresh (hmarker ▸ List.mem_cons_self) b row' hrow'
      rw [hzero, zero_mul, add_zero]
      exact hnn b row' hrow' hb
  · intro hpin
    apply hpin.install hs hd.normal
    intro hdummy
    cases hsub with
    | free hkind => exact absurd hkind hdummy.isRestricted
    | own _ hkind =>
      unfold Symbol.IsDummy at hdummy
      simp [Symbol.isPivotable, hdummy] at hkind
    | redundant _ hwithin hzero =>
      refine ⟨?_, hwithin.solvedFor hn hy⟩
      rw [Row.constant_solvedFor hn hy, hzero, neg_zero, zero_div]
  · intro hnotes
    exact hnotes.install hs.ascending

end Install

/-! ### Rows that go through the artificial phase -/

section ArtificialEnd

variable (hs : s.Solved) (hp : s.Parametric row)
include hs hp

/-- The artificial row stands for the artificial symbol on every solution. -/
theorem PrimalSteps.art_eq {g : Row ℚ} (hsteps : PrimalSteps .artificial (s.adjoin row) u)
    (hart : u.artificial = some g) (hsat : u.Satisfies value) : value s.art = g.eval value := by
  have hs' := hs.adjoin hp
  have hsat' := (hsteps.satisfies_iff hs' value).1 hsat
  obtain ⟨g', hg', heq⟩ := hsteps.eval_artificial hs' rfl
  rw [hart] at hg'
  cases hg'
  rw [heq value hsat']
  exact (hs.satisfies_adjoin.1 hsat').2

theorem ArtificialEnd.joins (h : ArtificialEnd s row (.ok true) t)
    (hw : row.Within Symbol.IsRestricted) (hpos : 0 ≤ row.constant) : s.Joins row t := by
  cases h with
  | @retired u t g success hsteps hart hleast hretires =>
    have hs' := hs.adjoin hp
    have hu := hsteps.solved hs'
    have hg := fun v (hv : u.Satisfies v) => hsteps.art_eq hs hp hart hv
    have hframe := hsteps.sameFrame.trans hretires.sameFrame
    have hzero : ∀ value : Symbol → ℚ,
        row.eval (Function.update value s.art 0) = row.eval value :=
      fun value => Row.eval_update_of_coefficient hp.normal hp.coefficient_art
    have hsat : ∀ value, t.Satisfies value ↔ s.Satisfies value ∧ row.eval value = 0 := by
      intro value
      rw [hretires.satisfies_iff hu hart hg rfl, hsteps.satisfies_iff hs', hs.satisfies_adjoin,
        hs.satisfies_update_iff hs.art_fresh.1 hs.art_fresh.2, Function.update_self, hzero, eq_comm]
    refine ⟨hretires.solved hu, hretires.idle, hframe.live, hframe.vars, hframe.edits,
      hframe.autoSolve, hframe.dirty, ?_, hsat, ?_, ?_, ?_, ?_, ?_⟩
    · rw [hframe.nextId]
      exact Nat.le_succ _
    · intro value hv
      have hv' := (hretires.satisfies_iff hu hart hg rfl).1 hv
      rw [hretires.eval_objective hu hart hg rfl hv,
        hsteps.eval_objective hs' ((hsteps.satisfies_iff hs' _).1 hv')]
      exact Row.eval_update_of_coefficient (hs.normal _ .objective) (hs.art_fresh.2 _ .objective)
    · intro hc
      exact hretires.closed hu (hsteps.closed hs' (hc.adjoin hw)) (by simp [Symbol.IsRestricted, art])
    · intro _ hn
      exact hretires.nonneg hu hart hg (hsteps.nonneg hs' (hn.adjoin hpos)) rfl
    · intro hpin
      exact hretires.pinned hu (hsteps.pinned hs' hpin.adjoin)
    · intro hnotes
      exact hretires.notes hu (hsteps.notes hs' hnotes)

/-- What is refused after the artificial phase has no admissible solution. -/
theorem ArtificialEnd.refuted (h : ArtificialEnd s row (.ok false) t)
    (hw : row.Within Symbol.IsRestricted) (hpos : 0 ≤ row.constant)
    (hdummies : ¬row.Within Symbol.IsDummy) (hc : s.Closed) (hn : s.Nonneg) (hpin : s.Pinned)
    (hsat : s.Satisfies value) (hadm : Admissible value) : row.eval value ≠ 0 := by
  intro hzero
  cases h with
  | @retired u t g success hsteps hart hleast hretires =>
    have hs' := hs.adjoin hp
    have hu := hsteps.solved hs'
    have hg := fun v (hv : u.Satisfies v) => hsteps.art_eq hs hp hart hv
    have hart' : s.art.IsRestricted := by simp [Symbol.IsRestricted, art]
    have hu_iff : ∀ v, u.Satisfies v ↔ s.Satisfies v ∧ v s.art = row.eval v := by
      intro v
      rw [hsteps.satisfies_iff hs', hs.satisfies_adjoin]
    -- Along a symbol of the row that is no dummy the artificial symbol moves, and no dummy does.
    have hmoves : ∃ v v', u.Satisfies v ∧ u.Satisfies v' ∧
        (∀ x : Symbol, x.IsDummy → v x = v' x) ∧ v s.art ≠ v' s.art := by
      unfold Row.Within at hdummies
      push Not at hdummies
      obtain ⟨x, hx, hxd⟩ := hdummies
      have hxb : ¬s.IsBasic x := fun hb => hx (hp.solved x hb)
      let v := (s.adjoin row).corner
      let v' := (s.adjoin row).complete (Function.update (fun _ => 0) x 1)
      have hv := hs'.satisfies_corner
      have hv' := hs'.satisfies_complete (Function.update (fun _ => 0) x 1)
      refine ⟨v, v', (hsteps.satisfies_iff hs' v).2 hv, (hsteps.satisfies_iff hs' v').2 hv', ?_, ?_⟩
      · intro z hz
        have hzx : z ≠ x := by
          rintro rfl
          exact hxd hz
        by_cases hb : (s.adjoin row).IsBasic z
        · obtain ⟨row', hrow'⟩ := hb
          have hn' := hs'.normal row' (.basic hrow')
          show (s.adjoin row).corner z = (s.adjoin row).complete _ z
          rw [corner_of_get? hrow', complete_of_get? hrow', Row.eval_single hn',
            (hpin.adjoin z row' hrow' hz).2.coefficient hxd, add_zero]
        · show (s.adjoin row).corner z = (s.adjoin row).complete _ z
          rw [corner_of_not_isBasic hb, complete_of_not_isBasic hb, Function.update_of_ne hzx]
      · have hget : (s.adjoin row).rows.get? s.art = some row := by
          rw [get?_adjoin, if_pos rfl]
        show (s.adjoin row).corner s.art ≠ (s.adjoin row).complete _ s.art
        rw [corner_of_get? hget, complete_of_get? hget, Row.eval_single hp.normal]
        intro heq
        exact hx (by linarith)
    have hvalue : u.Satisfies (Function.update value s.art 0) := by
      rw [hu_iff, hs.satisfies_update_iff hs.art_fresh.1 hs.art_fresh.2, Function.update_self,
        Row.eval_update_of_coefficient hp.normal hp.coefficient_art]
      exact ⟨hsat, hzero.symm⟩
    have := hretires.eval_pos hu hart hg rfl (hsteps.nonneg hs' (hn.adjoin hpos))
      (hsteps.closed hs' (hc.adjoin hw)) hleast hart' hmoves hvalue ?_ ?_
    · rw [Function.update_self] at this
      exact lt_irrefl _ this
    · intro x hx
      rw [Function.update_apply]
      split
      · exact le_rfl
      · exact hadm.nonneg x hx
    · intro x hx
      rw [Function.update_apply]
      split
      · rfl
      · exact hadm.dummy x hx

end ArtificialEnd

/-! ### Minimisation after a change -/

theorem perform_followUp_eq (s : Solver ℚ) :
    s.perform followUp
      = if s.autoSolve then s.perform (minimise .main) else (.ok (), { s with dirty := true }) := by
  unfold followUp
  rw [perform_bind]
  simp only [perform_get]
  split
  · rfl
  · rfl

/-- How a change ends: with minimisation, or with a note that it is due. -/
inductive Follows (s : Solver ℚ) : Except SolverError Unit → Solver ℚ → Prop
  | minimised {r : Except SolverError Unit} {t : Solver ℚ} (hauto : s.autoSolve = true)
      (hsteps : PrimalSteps .main s t) (hend : PrimalEnd .main t r) : Follows s r t
  | due (hauto : s.autoSolve = false) : Follows s (.ok ()) { s with dirty := true }

theorem perform_followUp (ha : s.rows.Ascending) {r : Except SolverError Unit}
    (h : s.perform followUp = (r, t)) : Follows s r t := by
  rw [perform_followUp_eq] at h
  split at h
  · next hauto =>
    obtain ⟨hsteps, hend⟩ := perform_minimise ha h
    exact .minimised hauto hsteps hend
  · next hauto =>
    cases h
    exact .due (by simpa using hauto)

/-! ### The ways of an addition -/

/-- The system with a constraint listed as one of its own. -/
def enlist (s : Solver ℚ) (h : Handle) (lv : Live ℚ) : Solver ℚ :=
  { s with live := s.live.insert h lv }

theorem live_enlist (hlive : t.live = s.live) (h : Handle) (lv : Live ℚ) :
    (t.enlist h lv).live = s.live.insert h lv := by
  unfold enlist
  rw [hlive]

/-- What it means that a refused addition has left the tableau alone, names apart. -/
structure Restores (s u t : Solver ℚ) : Prop where
  rows : t.rows = s.rows
  objective : t.objective = s.objective
  idle : t.artificial = none
  live : t.live = s.live
  vars : t.vars = u.vars
  edits : t.edits = s.edits
  autoSolve : t.autoSolve = s.autoSolve
  dirty : t.dirty = s.dirty
  nextId : u.nextId ≤ t.nextId
  notes : s.Notes → t.Notes

/-- How an addition ends: the constraint is known already, its equation is refused for good reason,
it joins the tableau, or the artificial phase fails. -/
inductive Adds (s : Solver ℚ) (h : Handle) (c : Constraint ℚ) :
    Except SolverError Unit → Solver ℚ → Prop
  | duplicate (hlive : s.live.get? h ≠ none) : Adds s h c (.error .duplicateConstraint) s
  | refused {row : Row ℚ} {tag : Tag} {u t : Solver ℚ} (hnone : s.live.get? h = none)
      (hchart : s.Charted c row tag u) (hrequired : c.IsRequired) (hrestores : Restores s u t)
      (hrefuted : s.Closed → s.Nonneg → s.Pinned → ∀ value, s.Satisfies value →
        Admissible value → row.eval value ≠ 0) : Adds s h c (.error .unsatisfiable) t
  | joined {row : Row ℚ} {tag : Tag} {u v t : Solver ℚ} {r : Except SolverError Unit}
      (hnone : s.live.get? h = none) (hchart : s.Charted c row tag u) (hjoins : u.Joins row v)
      (hfollows : Follows (v.enlist h ⟨c, tag⟩) r t) : Adds s h c r t
  | failed {row : Row ℚ} {tag : Tag} {u t : Solver ℚ} {e : SolverError}
      (hnone : s.live.get? h = none) (hchart : s.Charted c row tag u)
      (hwithin : row.Within Symbol.IsRestricted)
      (hend : ArtificialEnd u row (.error e) t) : Adds s h c (.error e) t

theorem perform_addAs_eq (s : Solver ℚ) (h : Handle) (c : Constraint ℚ) {row : Row ℚ} {tag : Tag}
    (hrow : s.rowOf c = (row, tag, u)) :
    s.perform (addAs h c) =
      if s.live.contains h then (.error .duplicateConstraint, s)
      else
        if (subject? row tag).isNone && row.onlyDummies && !decide (row.constant = 0) then
          (.error .unsatisfiable, { u with objective := s.objective })
        else
          match if (subject? row tag).isNone && row.onlyDummies then some tag.marker
              else subject? row tag with
          | some y => ((u.install y (row.solvedFor y)).enlist h ⟨c, tag⟩).perform followUp
          | none =>
            match u.perform (addArtificial row) with
            | (.error e, v) => (.error e, v)
            | (.ok false, v) =>
              (.error .unsatisfiable,
                { v with rows := u.rows, objective := s.objective, infeasible := [] })
            | (.ok true, v) => (v.enlist h ⟨c, tag⟩).perform followUp := by
  unfold addAs
  rw [perform_bind]
  simp only [perform_get]
  split
  · rw [perform_bind]
    simp only [perform_throw]
  · rw [perform_bind]
    simp only [perform_get, hrow, Scalar.negligible_rat]
    rw [perform_bind]
    simp only [perform_set]
    split
    · rw [perform_bind]
      simp only [perform_set]
      rw [perform_bind]
      simp only [perform_throw]
    · generalize (if ((subject? row tag).isNone && row.onlyDummies) = true then some tag.marker
        else subject? row tag) = subject
      cases subject with
      | some y =>
        dsimp only
        rw [perform_bind]
        simp only [perform_set]
        rw [perform_bind]
        simp only [perform_modify]
        rfl
      | none =>
        dsimp only
        rw [perform_bind]
        rcases u.perform (addArtificial row) with ⟨_ | success, v⟩
        · rfl
        · dsimp only
          cases success with
          | false =>
            simp only [Bool.not_false, if_true]
            rw [perform_bind]
            simp only [perform_modify]
            rw [perform_bind]
            simp only [perform_throw]
          | true =>
            simp only [Bool.not_true, Bool.false_eq_true, if_false]
            rw [perform_bind]
            simp only [perform_modify]
            rfl

/-- A row of dummies with a constant is never zero where the dummies are. -/
theorem Admissible.eval_of_dummies (hadm : Admissible value) (hn : row.Normal)
    (hw : row.Within Symbol.IsDummy) : row.eval value = row.constant := by
  rw [← Row.eval_zero]
  apply Row.eval_congr hn
  intro x hx
  exact hadm.dummy x (hw x hx)

theorem ArtificialEnd.restores {b : Bool} (h : ArtificialEnd u row (.ok b) t)
    {c : Constraint ℚ} (hchart : s.Charted c row tag u) :
    Restores s u { t with rows := u.rows, objective := s.objective, infeasible := [] } := by
  cases h with
  | retired hsteps _ _ hretires =>
    have hframe := hsteps.sameFrame.trans hretires.sameFrame
    refine ⟨hchart.grown.rows, rfl, hretires.idle, hframe.live.trans hchart.grown.live, hframe.vars,
      hframe.edits.trans hchart.grown.edits, hframe.autoSolve.trans hchart.grown.autoSolve,
      hframe.dirty.trans hchart.grown.dirty, ?_, ?_⟩
    · show u.nextId ≤ t.nextId
      rw [hframe.nextId]
      exact Nat.le_succ _
    · intro _ x hx
      cases hx

/-! ### The symbol of a new row -/

section Charted

variable {c : Constraint ℚ} (hchart : s.Charted c row tag u)
include hchart

/-- The symbol that the row of a new constraint is solved for at once. -/
theorem Charted.subject
    (hrefuse : ¬((subject? row tag).isNone && row.onlyDummies && !decide (row.constant = 0)) = true)
    (hy : (if (subject? row tag).isNone && row.onlyDummies then some tag.marker
      else subject? row tag) = some y) : row.coefficient y ≠ 0 ∧ Subject row tag y := by
  have hn := hchart.parametric.normal
  split at hy
  · next hcond =>
    cases hy
    refine ⟨hchart.marker_ne_zero, ?_⟩
    rw [hcond, Bool.true_and] at hrefuse
    rw [Bool.and_eq_true] at hcond
    exact .redundant rfl ((onlyDummies_iff hn).1 hcond.2) (by simpa using hrefuse)
  · obtain ⟨hne, hkind | ⟨hmem, hkind, hneg, hwithin⟩⟩ := subject?_eq_some hn hy
    · exact ⟨hne, .free hkind⟩
    · exact ⟨hne, .own hmem hkind hneg hwithin⟩

/-- The row of a new constraint joins by being solved for a symbol. -/
theorem Charted.joins (hs : s.Solved) (hidle : s.artificial = none) (hne : row.coefficient y ≠ 0)
    (hsub : Subject row tag y) : u.Joins row (u.install y (row.solvedFor y)) := by
  refine joins_install (hchart.solved hs) hchart.parametric hne
    (hchart.grown.artificial.trans hidle) hchart.nonneg ?_ hsub
  intro hmem b row' hrow'
  rw [hchart.grown.rows] at hrow'
  exact hchart.coefficient_eq_zero hs (.basic hrow') y hmem

end Charted

theorem subject?_eq_none_of_ite
    (hy : (if (subject? row tag).isNone && row.onlyDummies then some tag.marker
      else subject? row tag) = none) : subject? row tag = none ∧ ¬row.onlyDummies = true := by
  split at hy
  · cases hy
  · next hcond =>
    rw [hy] at hcond
    exact ⟨hy, by simpa using hcond⟩

theorem perform_addAs (hs : s.Solved) (hidle : s.artificial = none) (hr : s.Registered)
    {h : Handle} {c : Constraint ℚ} {r : Except SolverError Unit}
    (hperform : s.perform (addAs h c) = (r, t)) : Adds s h c r t := by
  have hchart := charted_rowOf hs hr c
  rcases hrow : s.rowOf c with ⟨row, tag, u⟩
  rw [hrow] at hchart
  dsimp only at hchart
  have hu := hchart.solved hs
  have hp := hchart.parametric
  have hn := hp.normal
  rw [perform_addAs_eq s h c hrow] at hperform
  split at hperform
  · next hlive =>
    cases hperform
    refine .duplicate ?_
    obtain ⟨lv, hlv⟩ := Table.contains_iff.1 hlive
    rw [hlv]
    simp
  · next hlive =>
    have hnone : s.live.get? h = none := by
      by_contra hsome
      exact hlive (Table.contains_iff.2 (Option.ne_none_iff_exists'.1 hsome))
    have hrequired : subject? row tag = none → c.IsRequired := by
      intro hsubject
      by_contra hsoft
      exact hchart.exists_subject hsoft hsubject
    split at hperform
    · next hrefuse =>
      cases hperform
      simp only [Bool.and_eq_true, Bool.not_eq_true', decide_eq_false_iff_not,
        Option.isNone_iff_eq_none] at hrefuse
      obtain ⟨⟨hsubject, hdummies⟩, hne⟩ := hrefuse
      refine .refused hnone hchart (hrequired hsubject) ?_ ?_
      · exact ⟨hchart.grown.rows, rfl, hchart.grown.artificial.trans hidle, hchart.grown.live, rfl,
          hchart.grown.edits, hchart.grown.autoSolve, hchart.grown.dirty, le_rfl,
          fun hnotes x hx => hnotes x (hchart.grown.infeasible ▸ hx)⟩
      · intro _ _ _ value _ hadm
        rw [hadm.eval_of_dummies hn ((onlyDummies_iff hn).1 hdummies)]
        exact hne
    · next hrefuse =>
      split at hperform
      · next y hy =>
        obtain ⟨hne, hsub⟩ := hchart.subject hrefuse hy
        have hjoins := hchart.joins hs hidle hne hsub
        have ha : ((u.install y (row.solvedFor y)).enlist h ⟨c, tag⟩).rows.Ascending :=
          hjoins.solved.ascending
        exact .joined hnone hchart hjoins (perform_followUp ha hperform)
      · next hy =>
        obtain ⟨hsubject, hdummies⟩ := subject?_eq_none_of_ite hy
        have hwithin := (subject?_eq_none hn hsubject).1
        rcases hart : u.perform (addArtificial row) with ⟨_ | success, v⟩
        · rw [hart] at hperform
          cases hperform
          exact .failed hnone hchart hwithin (perform_addArtificial hu hp hart)
        · have hend := perform_addArtificial hu hp hart
          rw [hart] at hperform
          cases success with
          | false =>
            cases hperform
            refine .refused hnone hchart (hrequired hsubject) (hend.restores hchart) ?_
            intro hc hnn hpin value hsat hadm
            refine hend.refuted hu hp hwithin hchart.nonneg ?_ (hchart.closed hc)
              (hnn.congr hchart.grown.rows) (hpin.congr hchart.grown.rows)
              (hchart.grown.satisfies_iff.2 hsat) hadm
            rwa [← onlyDummies_iff hn]
          | true =>
            have hjoins := hend.joins hu hp hwithin hchart.nonneg
            have ha : (v.enlist h ⟨c, tag⟩).rows.Ascending := hjoins.solved.ascending
            exact .joined hnone hchart hjoins (perform_followUp ha hperform)

end Solver

end ReactiveView
