import Mathlib
import ReactiveView.Proofs.Simplex.Cycling
import ReactiveView.Proofs.Simplex.Rejecting

/-!
This module contains that the primal loop ends. No basis comes back and there are no more bases than
sets of symbols, so the budget of the loop never runs out, wherever an operation calls it.
-/

namespace ReactiveView

namespace Solver

variable {s t u v : Solver ℚ} {goal : Goal} {sort : Symbol → Prop} {row : Row ℚ} {e l x y : Symbol}
variable {key : Handle} {c : Constraint ℚ} {tag : Tag} {target : Handle → ℚ}

/-! ### Bases -/

/-- The numbers of the basic symbols. -/
def basis (s : Solver ℚ) : Finset Nat := (s.rows.keys.map Symbol.id).toFinset

theorem mem_basis_iff {i : Nat} : i ∈ s.basis ↔ ∃ x, s.IsBasic x ∧ x.id = i := by
  unfold basis
  rw [List.mem_toFinset, List.mem_map]
  simp only [Table.mem_keys_iff]
  rfl

/-- Symbols that have been issued are told apart by their numbers, so bases are. -/
theorem Stocks.isBasic_iff (hs : s.Stocks sort) (ht : t.Stocks sort) (h : t.basis = s.basis) :
    t.IsBasic x ↔ s.IsBasic x := by
  have hsub {a b : Solver ℚ} (ha : a.Stocks sort) (hb : b.Stocks sort) (hab : a.basis = b.basis)
      (hx : a.IsBasic x) : b.IsBasic x := by
    obtain ⟨y, hy, hid⟩ := mem_basis_iff.1 (hab ▸ mem_basis_iff.2 ⟨x, hx, rfl⟩)
    have hsx := hx.elim fun _ hrow => (ha.symbols.basic hrow).1
    have hsy := hy.elim fun _ hrow => (hb.symbols.basic hrow).1
    rwa [← ha.distinct y x hsy hsx hid]
  exact ⟨hsub ht hs h, hsub hs ht h.symm⟩

theorem Solved.basis_subset (hs : s.Solved) : s.basis ⊆ Finset.range s.nextId := by
  intro i hi
  obtain ⟨x, hx, rfl⟩ := mem_basis_iff.1 hi
  exact Finset.mem_range.2 (hs.basic_known x hx)

theorem PrimalStep.reworks (h : PrimalStep goal s t) : s.Reworks t := by
  cases h with
  | pivot he hl hrow =>
    refine reworks_pivot hrow fun sort h => ?_
    obtain ⟨g, hg, he⟩ := Option.bind_eq_some_iff.1 he
    obtain ⟨c, hmem⟩ := mem_of_entering? he
    exact h.goalRow hg _ hmem

theorem PrimalSteps.reworks (h : PrimalSteps goal s t) : s.Reworks t := by
  induction h with
  | refl => exact .refl s
  | tail _ hstep ih => exact ih.trans hstep.reworks

/-! ### The end of the loop -/

/-- A system from which the primal loop can be run: in solved form, with a corner that keeps the
signs and symbols that are told apart by their numbers. -/
structure Ready (s : Solver ℚ) : Prop where
  solved : s.Solved
  nonneg : s.Nonneg
  coherent : s.Coherent

theorem Ready.steps (h : s.Ready) (hsteps : PrimalSteps goal s t) : t.Ready :=
  ⟨hsteps.solved h.solved, hsteps.nonneg h.solved h.nonneg, hsteps.reworks.coherent h.coherent⟩

theorem Ready.not_comes_back (h : s.Ready) (hsteps : Relation.TransGen (PrimalStep goal) s t) :
    ¬∀ x, t.IsBasic x ↔ s.IsBasic x :=
  fun hbasis => Loops.impossible ⟨h.solved, h.nonneg, hsteps, hbasis⟩

/-- A sequence of systems that each come from the one before by a pivot. -/
def IsPath (goal : Goal) (path : Nat → Solver ℚ) (n : Nat) : Prop :=
  ∀ i < n, PrimalStep goal (path i) (path (i + 1))

theorem IsPath.steps {path : Nat → Solver ℚ} {n : Nat} (h : IsPath goal path n) {i j : Nat}
    (hij : i ≤ j) (hj : j ≤ n) : PrimalSteps goal (path i) (path j) := by
  induction hij with
  | refl => exact .refl
  | @step j hij ih => exact (ih (Nat.le_of_succ_le hj)).tail (h j hj)

/-- There are fewer pivots than sets of numbers. -/
theorem Ready.lt_of_isPath {path : Nat → Solver ℚ} {n : Nat} (hs : (path 0).Ready)
    (h : IsPath goal path n) : n < 2 ^ (path 0).nextId := by
  obtain ⟨sort, hsort⟩ := hs.coherent
  have hstocks {i : Nat} (hi : i ≤ n) : (path i).Stocks sort :=
    hsort.reworks (h.steps (Nat.zero_le i) hi).reworks
  -- Different places of the path have different bases.
  have hinj : Set.InjOn (fun i => (path i).basis) (Finset.range (n + 1)) := by
    have hne {i j : Nat} (hij : i < j) (hj : j ≤ n) : (path j).basis ≠ (path i).basis := by
      intro heq
      refine (hs.steps (h.steps (Nat.zero_le i) (hij.le.trans hj))).not_comes_back
        (Relation.TransGen.head' (h i (hij.trans_le hj)) (h.steps hij hj)) fun x => ?_
      exact (hstocks (hij.le.trans hj)).isBasic_iff (hstocks hj) heq
    intro i hi j hj heq
    rw [Finset.coe_range, Set.mem_Iio] at hi hj
    rcases lt_trichotomy i j with hij | hij | hij
    · exact absurd heq.symm (hne hij (Nat.le_of_lt_succ hj))
    · exact hij
    · exact absurd heq (hne hij (Nat.le_of_lt_succ hi))
  have hmaps : Set.MapsTo (fun i => (path i).basis) (Finset.range (n + 1))
      (Finset.range (path 0).nextId).powerset := by
    intro i hi
    rw [Finset.coe_range, Set.mem_Iio] at hi
    have hsteps := h.steps (Nat.zero_le i) (Nat.le_of_lt_succ hi)
    have hsub := (hs.steps hsteps).solved.basis_subset
    rw [hsteps.sameFrame.nextId] at hsub
    exact Finset.mem_coe.2 (Finset.mem_powerset.2 hsub)
  have hcard := Finset.card_le_card_of_injOn _ hmaps hinj
  rwa [Finset.card_range, Finset.card_powerset, Finset.card_range] at hcard

/-- A loop that runs out of its budget has used it up. -/
theorem exists_isPath_of_pivotLimit {n : Nat}
    (h : s.perform (minimiseFor goal n) = (.error .pivotLimit, t)) :
    ∃ path : Nat → Solver ℚ, path 0 = s ∧ IsPath goal path n := by
  induction n generalizing s with
  | zero => exact ⟨fun _ => s, rfl, fun _ hi => absurd hi (Nat.not_lt_zero _)⟩
  | succ n ih =>
    rw [perform_minimiseFor_succ] at h
    split at h
    · cases h
    · next e he =>
      split at h
      · cases h
      · next l hl =>
        split at h
        · cases h
        · next row hrow =>
          obtain ⟨path, hpath, hsteps⟩ := ih h
          refine ⟨fun i => Nat.casesOn i s path, rfl, fun i hi => ?_⟩
          cases i with
          | zero =>
            show PrimalStep goal s (path 0)
            rw [hpath]
            exact .pivot he hl hrow
          | succ i => exact hsteps i (Nat.lt_of_succ_lt_succ hi)

/-- A loop that has come to its end does not use more of a greater budget. -/
theorem perform_minimiseFor_mono {n m : Nat} {r : Except SolverError Unit}
    (h : s.perform (minimiseFor goal n) = (r, t)) (hr : r ≠ .error .pivotLimit) (hnm : n ≤ m) :
    s.perform (minimiseFor goal m) = (r, t) := by
  induction n generalizing s m with
  | zero =>
    cases h
    exact absurd rfl hr
  | succ n ih =>
    obtain ⟨m, rfl⟩ := Nat.exists_eq_add_of_lt (Nat.lt_of_succ_le hnm)
    rw [perform_minimiseFor_succ] at h ⊢
    split at h
    · exact h
    · split at h
      · exact h
      · split at h
        · exact h
        · exact ih h (Nat.le_add_right n m)

/-- The primal loop ends: no basis comes back, there are fewer pivots than sets of symbols, and every
budget that is no smaller is enough to come to the same end. -/
structure Ends (goal : Goal) (s : Solver ℚ) : Prop where
  not_comes_back : ∀ u v, PrimalSteps goal s u → Relation.TransGen (PrimalStep goal) u v →
    ¬∀ x, v.IsBasic x ↔ u.IsBasic x
  bounded : ∀ path n, path 0 = s → IsPath goal path n → n < 2 ^ s.nextId
  comes_to_end : ∃ r t, r ≠ .error .pivotLimit ∧
    ∀ n, 2 ^ s.nextId ≤ n → s.perform (minimiseFor goal n) = (r, t)

theorem Ready.ends (h : s.Ready) (goal : Goal) : Ends goal s where
  not_comes_back u v hsu huv := (h.steps hsu).not_comes_back huv
  bounded path n hpath hsteps := by
    subst hpath
    exact h.lt_of_isPath hsteps
  comes_to_end := by
    rcases hperform : s.perform (minimiseFor goal (2 ^ s.nextId)) with ⟨r, t⟩
    have hr : r ≠ .error .pivotLimit := by
      rintro rfl
      obtain ⟨path, rfl, hsteps⟩ := exists_isPath_of_pivotLimit hperform
      exact absurd (h.lt_of_isPath hsteps) (lt_irrefl _)
    exact ⟨r, t, hr, fun n hn => perform_minimiseFor_mono hperform hr hn⟩

theorem Ends.perform_minimise_ne (h : Ends goal s) :
    (s.perform (minimise goal)).1 ≠ .error .pivotLimit := by
  obtain ⟨r, t, hr, hall⟩ := h.comes_to_end
  rw [minimise, perform_bind]
  simp only [perform_get]
  rw [hall s.pivotBudget (Nat.le_succ _)]
  exact hr

/-! ### Where the loop is called -/

/-- Where the operations on a system call the primal loop: for the main goal on demand, after a
constraint has joined and after one has gone; for the artificial goal while one is added. -/
inductive Minimises (s : Solver ℚ) : Goal → Solver ℚ → Prop
  | demanded : Minimises s .main s
  | tried {c : Constraint ℚ} {row : Row ℚ} {tag : Tag} {u : Solver ℚ}
      (hrow : s.rowOf c = (row, tag, u)) (hsubject : subject? row tag = none) :
      Minimises s .artificial (u.adjoin row)
  | solved {key : Handle} {c : Constraint ℚ} {row : Row ℚ} {tag : Tag} {u : Solver ℚ} {y : Symbol}
      (hrow : s.rowOf c = (row, tag, u)) (hne : row.coefficient y ≠ 0)
      (hsubject : Subject row tag y) :
      Minimises s .main ((u.install y (row.solvedFor y)).enlist key ⟨c, tag⟩)
  | joined {key : Handle} {c : Constraint ℚ} {row : Row ℚ} {tag : Tag} {u v : Solver ℚ}
      (hrow : s.rowOf c = (row, tag, u)) (hsubject : subject? row tag = none)
      (htry : u.perform (addArtificial row) = (.ok true, v)) :
      Minimises s .main (v.enlist key ⟨c, tag⟩)
  | withdrawn {key : Handle} {lv : Live ℚ} (hlv : s.live.get? key = some lv)
      (hb : s.IsBasic lv.tag.marker) :
      Minimises s .main ((s.discharged key lv).forget lv.tag.marker)
  | givenWay {key : Handle} {lv : Live ℚ} {l : Symbol} {row : Row ℚ}
      (hlv : s.live.get? key = some lv) (hb : ¬s.IsBasic lv.tag.marker)
      (hway : s.givingWay? lv.tag.marker = some l) (hrow : s.rows.get? l = some row) :
      Minimises s .main (((s.discharged key lv).forget l).substitute lv.tag.marker
        (row.exchanged l lv.tag.marker))

theorem Coherent.rowOf (h : s.Coherent) (hrow : s.rowOf c = (row, tag, u)) :
    ∃ sort, u.Stocks sort ∧ row.Over sort ∧ ∀ y ∈ tag.symbols, sort y := by
  obtain ⟨sort, hsort⟩ := h
  obtain ⟨sort', hnew, hover, htag⟩ := hsort.rowOf c
  rw [hrow] at hnew hover htag
  exact ⟨sort', hnew.stocks, hover, htag⟩

theorem Stocks.enlist (h : s.Stocks sort) (htag : ∀ y ∈ tag.symbols, sort y) :
    (s.enlist key ⟨c, tag⟩).Stocks sort :=
  h.congr (fun ho => ho.enlist htag key) rfl

theorem Stocks.discharged {lv : Live ℚ} (h : s.Stocks sort) (hlv : s.live.get? key = some lv) :
    (s.discharged key lv).Stocks sort := by
  rw [← discharge_eq]
  exact h.congr (fun ho => (ho.delist key).discharge _ (ho.tags key lv hlv)) (nextId_discharge ..)

/-- Wherever the loop is called it can be run. -/
theorem Minimises.ready (h : s.Minimises goal u) (hs : s.Sound target) (hc : s.Coherent) :
    u.Ready := by
  have hsolved := hs.models.solved
  have hchart {c : Constraint ℚ} {row : Row ℚ} {tag : Tag} {u : Solver ℚ}
      (hrow : s.rowOf c = (row, tag, u)) : s.Charted c row tag u := by
    have := charted_rowOf hsolved hs.models.registered c
    rwa [hrow] at this
  cases h with
  | demanded => exact ⟨hsolved, hs.nonneg, hc⟩
  | @tried c row tag u hrow hsubject =>
    have hchart := hchart hrow
    obtain ⟨sort, hsort, hover, -⟩ := hc.rowOf hrow
    exact ⟨(hchart.solved hsolved).adjoin hchart.parametric,
      (hs.nonneg.congr hchart.grown.rows).adjoin hchart.nonneg, _, hsort.adjoin hover⟩
  | @solved key c row tag u y hrow hne hsubject =>
    have hchart := hchart hrow
    have hjoins := hchart.joins hsolved hs.models.idle hne hsubject
    obtain ⟨sort, hsort, hover, htag⟩ := hc.rowOf hrow
    have hy : sort y := by
      have hmem := hchart.parametric.normal.mem_entries_iff.2 ⟨rfl, hne⟩
      exact hover _ hmem
    refine ⟨hjoins.solved.congr rfl rfl rfl le_rfl,
      (hjoins.nonneg (hchart.closed hs.closed) (hs.nonneg.congr hchart.grown.rows)).congr rfl,
      sort, Stocks.enlist (hsort.congr (fun ho => ?_) rfl) htag⟩
    exact (ho.substitute (hover.solvedFor y) y).insertRow hy (hover.solvedFor y)
  | @joined key c row tag u v hrow hsubject htry =>
    have hchart := hchart hrow
    have hu := hchart.solved hsolved
    have hjoins := (perform_addArtificial hu hchart.parametric htry).joins hu hchart.parametric
      (subject?_eq_none hchart.parametric.normal hsubject).1 hchart.nonneg
    obtain ⟨sort, hsort, hover, htag⟩ := hc.rowOf hrow
    obtain ⟨sort', hsort', hmono⟩ :=
      (leads_of_run_eq htry (leads_addArtificial_tries hsort hover)).stocks
    exact ⟨hjoins.solved.congr rfl rfl rfl le_rfl,
      (hjoins.nonneg (hchart.closed hs.closed) (hs.nonneg.congr hchart.grown.rows)).congr rfl,
      sort', hsort'.enlist fun y hy => hmono y (htag y hy)⟩
  | @withdrawn key lv hlv hb =>
    have hsound := hs.withdraw_basic hlv hb target fun _ _ => rfl
    obtain ⟨sort, hsort⟩ := hc
    exact ⟨hsound.models.solved, hsound.nonneg, sort,
      (hsort.discharged hlv).congr (·.eraseRow _) rfl⟩
  | @givenWay key lv l row hlv hb hway hrow =>
    obtain ⟨row', hrow', hgives⟩ := givingWay?_eq_some hsolved.ascending hway
    cases hrow.symm.trans hrow'
    have hsound := hs.withdraw_gives hlv hb hrow hgives target fun _ _ => rfl
    obtain ⟨sort, hsort⟩ := hc
    refine ⟨hsound.models.solved, hsound.nonneg, sort, (hsort.discharged hlv).congr (fun ho => ?_) rfl⟩
    obtain ⟨hl, hover⟩ := ho.basic (x := l) hrow
    exact (ho.eraseRow l).substitute (hover.exchanged hl _) _

/-! ### Requests -/

/-- The artificial phase fails as its loop does. -/
theorem perform_minimise_of_addArtificial {error : SolverError}
    (h : s.perform (addArtificial row) = (.error error, t)) :
    (s.adjoin row).perform (minimise .artificial) = (.error error, t) := by
  rw [perform_addArtificial_eq] at h
  split at h
  · next hmin =>
    cases h
    exact hmin
  · dsimp only at h
    split at h
    · cases h
    · split at h
      · cases h
      · split at h
        · cases h
        · cases h

section Answers

variable (hs : s.Sound target) (hc : s.Coherent)
include hs hc

theorem Minimises.followUp_ne (h : s.Minimises .main u) :
    (u.perform followUp).1 ≠ .error .pivotLimit := by
  rw [perform_followUp_eq]
  split
  · exact ((h.ready hs hc).ends .main).perform_minimise_ne
  · simp

theorem Sound.addAs_ne (key : Handle) (c : Constraint ℚ) :
    (s.perform (addAs key c)).1 ≠ .error .pivotLimit := by
  rcases hrow : s.rowOf c with ⟨row, tag, u⟩
  have hchart := charted_rowOf hs.models.solved hs.models.registered c
  rw [hrow] at hchart
  rw [perform_addAs_eq s key c hrow]
  split
  · simp
  · split
    · simp
    · next hrefuse =>
      split
      · next y hy =>
        obtain ⟨hne, hsubject⟩ := hchart.subject hrefuse hy
        exact (Minimises.solved hrow hne hsubject).followUp_ne hs hc
      · next hy =>
        have hsubject := (subject?_eq_none_of_ite hy).1
        split
        · next error v htry =>
          have hready := (Minimises.tried hrow hsubject).ready hs hc
          have hne := (hready.ends .artificial).perform_minimise_ne
          rw [perform_minimise_of_addArtificial htry] at hne
          exact hne
        · simp
        · next v htry => exact (Minimises.joined hrow hsubject htry).followUp_ne hs hc

theorem Sound.removeAs_ne (key : Handle) :
    (s.perform (removeAs key)).1 ≠ .error .pivotLimit := by
  rw [perform_removeAs_eq]
  split
  · simp
  · next lv hlv =>
    split
    · next hb => exact (Minimises.withdrawn hlv (Table.contains_iff.1 hb)).followUp_ne hs hc
    · next hb =>
      split
      · simp
      · next l hway =>
        split
        · simp
        · next row hrow =>
          refine (Minimises.givenWay hlv (fun hbasic => hb ?_) hway hrow).followUp_ne hs hc
          exact Table.contains_iff.2 hbasic

theorem Sound.solve_ne : (s.perform solve).1 ≠ .error .pivotLimit := by
  have hmin := ((Minimises.demanded.ready hs hc).ends .main).perform_minimise_ne
  unfold Solver.solve
  rw [perform_bind]
  simp only [perform_get]
  split
  · rw [perform_bind]
    rcases hperform : s.perform (minimise .main) with ⟨_ | _, t⟩
    · rw [hperform] at hmin
      exact hmin
    · simp
  · simp

end Answers

variable {requests : List Request}

/-- No budget runs out, unless it is that of the dual loop. -/
theorem Consistent.perform_ne (hs : s.Consistent) (hc : s.Coherent) {request : Request}
    (hrequest : ∀ x v, request ≠ .suggest x v) :
    (s.perform request.operation).1 ≠ .error .pivotLimit := by
  have hsound := hs.valid.sound
  cases request with
  | add c => exact hsound.addAs_ne hc _ c
  | remove c => exact hsound.removeAs_ne hc _
  | addEdit x strength =>
    show (s.perform (Solver.addEdit x strength)).1 ≠ _
    rw [perform_addEdit_eq]
    split
    · simp
    · split
      · simp
      · have hadd := hsound.addAs_ne hc (.edit s.nextId) (s.editConstraint x strength)
        split
        · next hperform =>
          rw [hperform] at hadd
          exact hadd
        · split
          · simp
          · simp
  | removeEdit x =>
    show (s.perform (Solver.removeEdit x)).1 ≠ _
    rw [perform_removeEdit_eq]
    split
    · simp
    · exact hsound.congr_edits.removeAs_ne (hc.congr_edits _) _
  | suggest x v => exact absurd rfl (hrequest x v)
  | setAutoSolve enabled =>
    show (s.perform (Solver.setAutoSolve enabled)).1 ≠ _
    rw [perform_setAutoSolve_eq]
    split
    · exact hs.congr_autoSolve.valid.sound.solve_ne (hc.congr_modes _ _)
    · simp
  | solve => exact hsound.solve_ne hc

/-- In every system that requests can lead to, the primal loop ends wherever an operation calls it,
on the main and on the artificial goal. The budgets of the loop never run out. -/
theorem Runs.loops_end (h : Runs Anything requests s) :
    (∀ goal u, s.Minimises goal u → Ends goal u) ∧
      ∀ request : Request, (∀ x v, request ≠ .suggest x v) →
        (s.perform request.operation).1 ≠ .error .pivotLimit := by
  have hs := h.consistent
  have hc := h.reached.idle.coherent
  exact ⟨fun goal u hu => (hu.ready hs.valid.sound hc).ends goal,
    fun _ hrequest => hs.perform_ne hc hrequest⟩

/-- Two variables that are held together, and wishes for both. -/
def tiedRequests : List Request :=
  let x : LinearExpr ℚ := .ofVariable ⟨0⟩
  let y : LinearExpr ℚ := .ofVariable ⟨1⟩
  [.setAutoSolve false, .add (Constraint.make 2 x .equal .weak),
    .add (Constraint.make 3 y .equal .weak), .add (Constraint.between 0 x .atLeast y),
    .add (Constraint.between 1 y .atLeast x),
    .add (Constraint.make 4 (x.minus (.ofConstant 20)) .equal .strong)]

/-- The first pivot of the loop is degenerate. -/
theorem Runs.loops_end_tied :
    ∃ s e l row, Runs Anything tiedRequests s ∧ entering? s.objective = some e ∧
      s.leaving? e = some l ∧ s.rows.get? l = some row ∧ row.constant = 0 ∧ Ends .main s := by
  have hserved : ((served tiedRequests).bind fun s => (entering? s.objective).bind fun e =>
      (s.leaving? e).bind fun l => (s.rows.get? l).map Row.constant) = some 0 := by decide +kernel
  obtain ⟨s, hs, hserved⟩ := Option.bind_eq_some_iff.1 hserved
  obtain ⟨e, he, hserved⟩ := Option.bind_eq_some_iff.1 hserved
  obtain ⟨l, hl, hserved⟩ := Option.bind_eq_some_iff.1 hserved
  obtain ⟨row, hrow, hzero⟩ := Option.map_eq_some_iff.1 hserved
  have hruns : Runs Anything tiedRequests s := runs_of_served (fun _ _ _ => trivial) hs
  exact ⟨s, e, l, row, hruns, he, hl, hrow, hzero, hruns.loops_end.1 .main s .demanded⟩

end Solver

end ReactiveView
