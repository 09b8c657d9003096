import Mathlib
import ReactiveView.Proofs.Simplex.Feasible

/-!
This module contains that the primal loop never comes back to a basis. The argument is Bland's: on a
way that comes back the corner does not move, and of the symbols that go in and out the latest one
cannot both enter and leave, since the oldest candidate enters and the oldest of the rows with the
least ratio leaves.
-/

namespace ReactiveView

namespace Symbol

/-- The place of a symbol in the order of symbols. -/
def place (x : Symbol) : Nat := 4 * x.id + x.kind.rank

variable {x y : Symbol}

theorem rank_lt (kind : SymbolKind) : kind.rank < 4 := by
  cases kind <;> decide

theorem place_lt_of_compare (h : compare x y = .lt) : x.place < y.place := by
  have hx := rank_lt x.kind
  unfold place
  rcases Ordering.then_eq_lt.1 h with hid | ⟨hid, hrank⟩
  · have : x.id < y.id := Nat.compare_eq_lt.1 hid
    omega
  · have hid : x.id = y.id := Nat.compare_eq_eq.1 hid
    have hrank : x.kind.rank < y.kind.rank := Nat.compare_eq_lt.1 hrank
    omega

theorem place_injective : Function.Injective place := by
  rintro ⟨i, k⟩ ⟨j, k'⟩ h
  have hk := rank_lt k
  have hk' := rank_lt k'
  have h : 4 * i + k.rank = 4 * j + k'.rank := h
  have hid : i = j := by omega
  have hrank : k.rank = k'.rank := by omega
  subst hid
  cases k <;> cases k' <;> first | rfl | cases hrank

end Symbol

namespace Row

variable {row : Row ℚ} {value value' : Symbol → ℚ}

/-- Where a row falls it falls by one of its symbols. -/
theorem exists_of_eval_lt (h : row.Normal) (hlt : row.eval value' < row.eval value) :
    ∃ x, row.coefficient x * (value' x - value x) < 0 := by
  by_contra hnone
  push Not at hnone
  refine absurd hlt (not_lt.2 ?_)
  unfold eval
  refine add_le_add_right (List.sum_le_sum ?_) _
  rintro ⟨x, c⟩ hmem
  obtain ⟨rfl, -⟩ := h.mem_entries_iff.1 hmem
  have := hnone x
  dsimp only
  linarith

end Row

namespace Solver

variable {s t u v a b : Solver ℚ} {goal : Goal} {row row' g g' : Row ℚ} {e l x y : Symbol}

/-! ### The oldest candidates -/

/-- The symbol that enters is the oldest of those that lower the goal. -/
theorem place_le_of_entering? (hn : g.Normal) (h : entering? g = some e) (hx : ¬x.IsDummy)
    (hneg : g.coefficient x < 0) : e.place ≤ x.place := by
  unfold entering? Table.findEntry? at h
  obtain ⟨⟨y, c⟩, hfind, rfl⟩ := Option.map_eq_some_iff.1 h
  obtain ⟨-, before, behind, hsplit, hbefore⟩ := List.find?_eq_some_iff_append.1 hfind
  have hmem := hn.mem_entries_iff.2 ⟨rfl, hneg.ne⟩
  have hascending : g.cells.entries.Pairwise fun a b => compare a.1 b.1 = .lt := hn.ascending
  rw [hsplit] at hmem hascending
  rcases List.mem_append.1 hmem with hmem | hmem
  · have := hbefore _ hmem
    unfold Symbol.IsDummy at hx
    simp [hx, hneg] at this
  · rcases List.mem_cons.1 hmem with heq | hmem
    · cases heq
      exact le_rfl
    · have hbehind := (List.pairwise_cons.1 (List.pairwise_append.1 hascending).2.1).1
      exact (Symbol.place_lt_of_compare (hbehind _ hmem)).le

section Candidate

variable {β : Type} {p : β → Prop} [DecidablePred p] {ratio : β → ℚ} {key : β → Symbol} {r : ℚ}

/-- What is no less than the candidate changes nothing. -/
theorem offerAll_of_le {l : List β} (h : ∀ b ∈ l, p b → r ≤ ratio b) :
    offerAll p ratio key (some (r, x)) l = some (r, x) := by
  unfold offerAll
  induction l with
  | nil => rfl
  | cons b rest ih =>
    rw [List.forall_mem_cons] at h
    rw [List.foldl_cons]
    split
    · next hb =>
      have hoffer : Candidate.offer (some (r, x)) (ratio b) (key b) = some (r, x) :=
        if_neg (by simpa using h.1 hb)
      rw [hoffer]
      exact ih h.2
    · exact ih h.2

/-- Of equal ratios the first one is kept. -/
theorem mem_of_offerAll {before behind : List β} {b : β} (hb : p b)
    (hmin : ∀ b' ∈ before ++ b :: behind, p b' → ratio b ≤ ratio b')
    (h : (offerAll p ratio key none (before ++ b :: behind)).map Prod.snd = some x) :
    ∃ b' ∈ before ++ [b], key b' = x := by
  have hleast : Candidate.IsLeast p ratio key _ (before ++ [b]) := isLeast_offerAll (before ++ [b])
  have hfold : offerAll p ratio key none (before ++ b :: behind)
      = offerAll p ratio key (offerAll p ratio key none (before ++ [b])) behind := by
    unfold offerAll
    rw [← List.foldl_append, List.append_assoc, List.singleton_append]
  rw [hfold] at h
  have hmem : b ∈ before ++ [b] := List.mem_append_right _ List.mem_cons_self
  cases hc : offerAll p ratio key none (before ++ [b]) with
  | none =>
    rw [hc] at hleast
    exact absurd hb (hleast b hmem)
  | some c =>
    obtain ⟨r, y⟩ := c
    rw [hc] at hleast h
    obtain ⟨b', hmem', -, -, hkey, hr⟩ := hleast
    rw [offerAll_of_le fun b'' hb'' hp => (hr b hmem hb).trans (hmin b''
      (List.mem_append_right _ (List.mem_cons_of_mem _ hb'')) hp)] at h
    cases h
    exact ⟨b', hmem', hkey⟩

end Candidate

/-- The symbol that leaves is the oldest of those with the least ratio. -/
theorem place_le_of_leaving? (ha : s.rows.Ascending) (h : s.leaving? e = some l)
    (hrow : s.rows.get? l = some row) (hrow' : s.rows.get? x = some row') (hx : x.IsRestricted)
    (hneg : row'.coefficient e < 0)
    (hratio : -row'.constant / row'.coefficient e ≤ -row.constant / row.coefficient e) :
    l.place ≤ x.place := by
  obtain ⟨row₁, hrow₁, -, -, hmin⟩ := leaving?_eq_some ha h
  rw [hrow] at hrow₁
  cases hrow₁
  obtain ⟨before, behind, hsplit⟩ := List.append_of_mem (ha.mem_entries_iff.2 hrow')
  have hascending : s.rows.entries.Pairwise fun a b => compare a.1 b.1 = .lt := ha
  rw [leaving?_eq_offerAll, hsplit] at h
  obtain ⟨entry, hmem, rfl⟩ := mem_of_offerAll (b := (x, row')) ⟨hx, hneg⟩ (fun entry hentry hp => by
    refine hratio.trans (hmin entry.1 entry.2 (ha.mem_entries_iff.1 ?_) hp.1 hp.2)
    rw [hsplit]
    exact hentry) h
  rw [hsplit] at hascending
  rcases List.mem_append.1 hmem with hmem | hmem
  · exact (Symbol.place_lt_of_compare
      ((List.pairwise_append.1 hascending).2.2 entry hmem _ List.mem_cons_self)).le
  · rw [List.mem_singleton.1 hmem]

/-! ### Corners -/

/-- The corner is the only solution without parametric symbols. -/
theorem Satisfies.eq_corner {value : Symbol → ℚ} (h : s.Satisfies value) (hs : s.Solved)
    (hzero : ∀ x, ¬s.IsBasic x → value x = 0) : value = s.corner := by
  funext x
  by_cases hx : s.IsBasic x
  · obtain ⟨row, hrow⟩ := hx
    rw [h x row hrow, corner_of_get? hrow, ← Row.eval_zero]
    exact Row.eval_congr (hs.normal row (.basic hrow)) fun y hy =>
      hzero y (hs.not_isBasic (.basic hrow) hy)
  · rw [hzero x hx, corner_of_not_isBasic hx]

theorem isBasic_pivot : (s.pivot l e row).IsBasic x ↔ x = e ∨ x ≠ l ∧ s.IsBasic x := by
  rw [pivot_eq, isBasic_install, isBasic_forget]

/-- A pivot on a row without a constant stays at the corner. -/
theorem Solved.corner_pivot (hs : s.Solved) (hrow : s.rows.get? l = some row)
    (he : row.coefficient e ≠ 0) (hzero : row.constant = 0) :
    (s.pivot l e row).corner = s.corner := by
  symm
  refine Satisfies.eq_corner ((hs.satisfies_pivot hrow he).2 hs.satisfies_corner)
    (hs.pivot hrow he) fun x hx => ?_
  rw [isBasic_pivot, not_or, not_and] at hx
  by_cases hxl : x = l
  · rw [hxl, corner_of_get? hrow, hzero]
  · exact corner_of_not_isBasic (hx.2 hxl)

/-! ### The value of the goal -/

/-- The value of a goal at the corner. -/
def level (s : Solver ℚ) (goal : Goal) : ℚ := ((s.goalRow goal).map Row.constant).getD 0

theorem level_of_goalRow (hg : s.goalRow goal = some g) : s.level goal = g.constant := by
  unfold level
  rw [hg]
  rfl

theorem hasRow_of_goalRow (hg : s.goalRow goal = some g) : s.HasRow g := by
  cases goal with
  | main =>
    cases hg
    exact .objective
  | artificial => exact .artificial hg

theorem goalRow_pivot (hg : s.goalRow goal = some g) :
    (s.pivot l e row).goalRow goal = some (g.substitute e (row.exchanged l e)) := by
  cases goal with
  | main =>
    cases hg
    rfl
  | artificial => exact congrArg (Option.map _) hg

theorem PrimalStep.exists_goalRow (h : PrimalStep goal s t) : ∃ g, s.goalRow goal = some g := by
  cases h with
  | pivot he => exact (Option.bind_eq_some_iff.1 he).imp fun _ h => h.1

theorem PrimalSteps.eval_goalRow (h : PrimalSteps goal s t) (hs : s.Solved)
    (hg : s.goalRow goal = some g) :
    ∃ g', t.goalRow goal = some g' ∧
      ∀ value, s.Satisfies value → g'.eval value = g.eval value := by
  cases goal with
  | main =>
    cases hg
    exact ⟨_, rfl, fun value hsat => h.eval_objective hs hsat⟩
  | artificial => exact h.eval_artificial hs hg

/-- A pivot does not raise the goal, and moves away from the corner only where the goal falls. -/
theorem PrimalStep.level_le (h : PrimalStep goal s t) (hs : s.Solved) (hn : s.Nonneg) :
    t.level goal ≤ s.level goal ∧ (t.level goal = s.level goal → t.corner = s.corner) := by
  obtain ⟨e, l, row, g, hg, hgrow, hneg, -, hrow, hl, hrneg, -, rfl⟩ := h.exists_row hs
  have hle := hs.ne_of_coefficient hrow hrneg.ne
  have hlevel : (s.pivot l e row).level goal
      = s.level goal + g.coefficient e * (-row.constant / row.coefficient e) := by
    rw [level_of_goalRow (goalRow_pivot hg), level_of_goalRow hg,
      Row.constant_substitute (hs.normal g hgrow.hasRow),
      Row.constant_exchanged (hs.normal row (.basic hrow)) hle hrneg.ne]
  have hratio : 0 ≤ -row.constant / row.coefficient e :=
    div_nonneg_of_nonpos (neg_nonpos.2 (hn l row hrow hl)) hrneg.le
  rw [hlevel]
  refine ⟨?_, fun heq => hs.corner_pivot hrow hrneg.ne ?_⟩
  · have := mul_nonpos_of_nonpos_of_nonneg hneg.le hratio
    linarith
  · have hzero : g.coefficient e * (-row.constant / row.coefficient e) = 0 := by linarith
    have hzero := (mul_eq_zero.1 hzero).resolve_left hneg.ne
    exact neg_eq_zero.1 ((div_eq_zero_iff.1 hzero).resolve_right hrneg.ne)

theorem PrimalSteps.level_le (h : PrimalSteps goal s t) (hs : s.Solved) (hn : s.Nonneg) :
    t.level goal ≤ s.level goal := by
  induction h with
  | refl => exact le_rfl
  | tail hsteps hstep ih =>
    have hsteps : PrimalSteps goal s _ := hsteps
    exact (hstep.level_le (hsteps.solved hs) (hsteps.nonneg hs hn)).1.trans ih

/-! ### Rays -/

/-- How fast a symbol changes along a parametric one. -/
def drift (s : Solver ℚ) (e x : Symbol) : ℚ :=
  s.complete (Function.update (fun _ => 0) e 1) x - s.corner x

theorem Solved.drift_of_get? (hs : s.Solved) (hrow : s.rows.get? x = some row) :
    s.drift e x = row.coefficient e := by
  unfold drift
  rw [complete_of_get? hrow, corner_of_get? hrow, Row.eval_single (hs.normal row (.basic hrow)),
    add_sub_cancel_left]

theorem drift_of_not_isBasic (hx : ¬s.IsBasic x) : s.drift e x = if x = e then 1 else 0 := by
  unfold drift
  rw [complete_of_not_isBasic hx, corner_of_not_isBasic hx, Function.update_apply, sub_zero]

/-! ### Ways that come back -/

/-- Pivots that come back to a basis. -/
structure Loops (goal : Goal) (s t : Solver ℚ) : Prop where
  solved : s.Solved
  nonneg : s.Nonneg
  pivots : Relation.TransGen (PrimalStep goal) s t
  basis : ∀ x, t.IsBasic x ↔ s.IsBasic x

/-- The tableaus on the way. -/
structure Passes (goal : Goal) (s t u : Solver ℚ) : Prop where
  before : PrimalSteps goal s u
  behind : PrimalSteps goal u t

/-- The symbols that go in or out on the way. -/
def Fickle (goal : Goal) (s t : Solver ℚ) (x : Symbol) : Prop :=
  (∃ u, Passes goal s t u ∧ u.IsBasic x) ∧ ∃ u, Passes goal s t u ∧ ¬u.IsBasic x

/-- Where something comes to hold on a way there is a step at which it does. -/
theorem exists_step_of_reflTransGen {β : Type*} {R : β → β → Prop} {P : β → Prop} {x y : β}
    (h : Relation.ReflTransGen R x y) (hx : ¬P x) (hy : P y) :
    ∃ x' y', Relation.ReflTransGen R x x' ∧ R x' y' ∧ Relation.ReflTransGen R y' y ∧
      ¬P x' ∧ P y' := by
  induction h with
  | refl => exact absurd hy hx
  | @tail y' z hxy hyz ih =>
    by_cases hy' : P y'
    · obtain ⟨a, b, hxa, hab, hby, ha, hb⟩ := ih hy'
      exact ⟨a, b, hxa, hab, hby.tail hyz, ha, hb⟩
    · exact ⟨y', z, hxy, hyz, .refl, hy', hy⟩

theorem PrimalStep.enters (h : PrimalStep goal a b) (hx : ¬a.IsBasic x) (hx' : b.IsBasic x) :
    (a.goalRow goal).bind entering? = some x := by
  cases h with
  | pivot he =>
    rcases isBasic_pivot.1 hx' with rfl | ⟨-, hbasic⟩
    · exact he
    · exact absurd hbasic hx

theorem PrimalStep.leaves (h : PrimalStep goal a b) (hx : a.IsBasic x) (hx' : ¬b.IsBasic x) :
    ∃ e, (a.goalRow goal).bind entering? = some e ∧ a.leaving? e = some x ∧ b.IsBasic e := by
  cases h with
  | @pivot e l row he hl =>
    have hxl : x = l := by
      by_contra hne
      exact hx' (isBasic_pivot.2 (.inr ⟨hne, hx⟩))
    exact ⟨e, he, hxl ▸ hl, isBasic_pivot.2 (.inl rfl)⟩

/-- What changes on the way changes back. -/
theorem Passes.exists_step {P : Solver ℚ → Prop} (hu : Passes goal s t u) (hPu : P u)
    (hv : Passes goal s t v) (hPv : ¬P v) (hends : P t ↔ P s) :
    ∃ a b, Passes goal s t a ∧ PrimalStep goal a b ∧ Passes goal s t b ∧ ¬P a ∧ P b := by
  by_cases hs : P s
  · obtain ⟨a, b, hva, hab, hbt, ha, hb⟩ :=
      exists_step_of_reflTransGen hv.behind hPv (hends.2 hs)
    exact ⟨a, b, ⟨hv.before.trans hva, .head hab hbt⟩, hab, ⟨(hv.before.trans hva).tail hab, hbt⟩,
      ha, hb⟩
  · obtain ⟨a, b, hsa, hab, hbu, ha, hb⟩ := exists_step_of_reflTransGen hu.before hs hPu
    exact ⟨a, b, ⟨hsa, .head hab (hbu.trans hu.behind)⟩, hab, ⟨hsa.tail hab, hbu.trans hu.behind⟩,
      ha, hb⟩

namespace Loops

variable (h : Loops goal s t)
include h

theorem steps : PrimalSteps goal s t := h.pivots.to_reflTransGen

theorem corner_end : t.corner = s.corner :=
  Satisfies.eq_corner ((h.steps.satisfies_iff h.solved _).1 (h.steps.solved h.solved).satisfies_corner)
    h.solved fun x hx => corner_of_not_isBasic fun hb => hx ((h.basis x).1 hb)

theorem level_end : t.level goal = s.level goal := by
  obtain ⟨b, hstep, -⟩ := Relation.TransGen.head'_iff.1 h.pivots
  obtain ⟨g, hg⟩ := hstep.exists_goalRow
  obtain ⟨g', hg', heval⟩ := h.steps.eval_goalRow h.solved hg
  have ht := h.steps.solved h.solved
  rw [level_of_goalRow hg, level_of_goalRow hg', ← h.solved.eval_corner (hasRow_of_goalRow hg),
    ← ht.eval_corner (hasRow_of_goalRow hg'), h.corner_end]
  exact heval _ h.solved.satisfies_corner

theorem corner_eq (hu : Passes goal s t u) : u.corner = s.corner := by
  obtain ⟨hbefore, hbehind⟩ := hu
  induction hbefore with
  | refl => rfl
  | @tail a b hsa hab ih =>
    have hsa : PrimalSteps goal s a := hsa
    have ha := hsa.solved h.solved
    have hn := hsa.nonneg h.solved h.nonneg
    have hstep := hab.level_le ha hn
    -- The goal comes back to where it was, so it has not fallen in between.
    have hlevel : b.level goal = a.level goal := by
      refine le_antisymm hstep.1 ?_
      calc a.level goal ≤ s.level goal := hsa.level_le h.solved h.nonneg
        _ = t.level goal := h.level_end.symm
        _ ≤ b.level goal := hbehind.level_le (hab.solved ha) (hab.nonneg ha hn)
    exact (hstep.2 hlevel).trans (ih (.head hab hbehind))

theorem solved_of_passes (hu : Passes goal s t u) : u.Solved := hu.before.solved h.solved

/-- A fickle symbol enters somewhere. -/
theorem exists_enters (hx : Fickle goal s t x) :
    ∃ a g, Passes goal s t a ∧ ¬a.IsBasic x ∧ a.goalRow goal = some g ∧ entering? g = some x := by
  obtain ⟨⟨u, hu, hbasic⟩, v, hv, hparametric⟩ := hx
  obtain ⟨a, b, ha, hab, -, hxa, hxb⟩ :=
    hu.exists_step (P := fun u => u.IsBasic x) hbasic hv hparametric (h.basis x)
  obtain ⟨g, hg, he⟩ := Option.bind_eq_some_iff.1 (hab.enters hxa hxb)
  exact ⟨a, g, ha, hxa, hg, he⟩

/-- A fickle symbol leaves somewhere. -/
theorem exists_leaves (hx : Fickle goal s t x) :
    ∃ a b e g, Passes goal s t a ∧ Passes goal s t b ∧ a.IsBasic x ∧ a.goalRow goal = some g ∧
      entering? g = some e ∧ a.leaving? e = some x ∧ b.IsBasic e := by
  obtain ⟨⟨u, hu, hbasic⟩, v, hv, hparametric⟩ := hx
  obtain ⟨a, b, ha, hab, hb, hxa, hxb⟩ := hv.exists_step (P := fun u => ¬u.IsBasic x)
    hparametric hu (not_not.2 hbasic) (not_congr (h.basis x))
  rw [not_not] at hxa
  obtain ⟨e, he, hl, hbe⟩ := hab.leaves hxa hxb
  obtain ⟨g, hg, he⟩ := Option.bind_eq_some_iff.1 he
  exact ⟨a, b, e, g, ha, hb, hxa, hg, he, hl, hbe⟩

theorem not_isDummy (hx : Fickle goal s t x) : ¬x.IsDummy := by
  obtain ⟨a, g, ha, -, hg, he⟩ := h.exists_enters hx
  exact (entering?_eq_some ((h.solved_of_passes ha).normal g (hasRow_of_goalRow hg)) he).1

theorem isRestricted (hx : Fickle goal s t x) : x.IsRestricted := by
  obtain ⟨a, -, e, g, ha, -, -, -, -, hl, -⟩ := h.exists_leaves hx
  obtain ⟨-, -, hkind, -⟩ := leaving?_eq_some (h.solved_of_passes ha).ascending hl
  exact hkind

theorem constant_eq_zero (hx : Fickle goal s t x) (ha : Passes goal s t a)
    (hrow : a.rows.get? x = some row) : row.constant = 0 := by
  obtain ⟨-, v, hv, hparametric⟩ := hx
  rw [← corner_of_get? hrow, h.corner_eq ha, ← h.corner_eq hv, corner_of_not_isBasic hparametric]

theorem exists_latest : ∃ m, Fickle goal s t m ∧ ∀ x, Fickle goal s t x → x.place ≤ m.place := by
  have hfinite : {x | Fickle goal s t x}.Finite := by
    refine ((Set.finite_Iio (4 * s.nextId)).preimage Symbol.place_injective.injOn).subset ?_
    rintro x ⟨⟨u, hu, hbasic⟩, -⟩
    have hid := (h.solved_of_passes hu).basic_known x hbasic
    rw [hu.before.sameFrame.nextId] at hid
    have := Symbol.rank_lt x.kind
    show 4 * x.id + x.kind.rank < 4 * s.nextId
    omega
  have hnonempty : {x | Fickle goal s t x}.Nonempty := by
    obtain ⟨b, hstep, hbt⟩ := Relation.TransGen.head'_iff.1 h.pivots
    obtain ⟨e, l, row, g, -, -, -, -, hrow, -, hneg, -, rfl⟩ := hstep.exists_row h.solved
    exact ⟨e, ⟨_, ⟨.single hstep, hbt⟩, isBasic_pivot.2 (.inl rfl)⟩, s, ⟨.refl, h.steps⟩,
      h.solved.not_isBasic (.basic hrow) hneg.ne⟩
  exact Set.exists_max_image _ Symbol.place hfinite hnonempty

/-- Along a symbol that lowers the goal some symbol moves that the goal elsewhere on the way speaks
about. -/
theorem exists_drift (ha : Passes goal s t a) (hb : Passes goal s t b)
    (hg : a.goalRow goal = some g) (hneg : g.coefficient e < 0) (hg' : b.goalRow goal = some g') :
    ∃ x, g'.coefficient x * a.drift e x < 0 := by
  obtain ⟨c, hstep, -⟩ := Relation.TransGen.head'_iff.1 h.pivots
  obtain ⟨g₀, hg₀⟩ := hstep.exists_goalRow
  have hsa := h.solved_of_passes ha
  have heval {u : Solver ℚ} {g : Row ℚ} (hu : Passes goal s t u) (hg : u.goalRow goal = some g)
      {value : Symbol → ℚ} (hsat : a.Satisfies value) : g.eval value = g₀.eval value := by
    obtain ⟨g₁, hg₁, heval⟩ := hu.before.eval_goalRow h.solved hg₀
    cases hg.symm.trans hg₁
    exact heval value ((ha.before.satisfies_iff h.solved value).1 hsat)
  have hray := hsa.satisfies_complete (Function.update (fun _ => 0) e 1)
  have hrow := hasRow_of_goalRow hg
  apply Row.exists_of_eval_lt ((h.solved_of_passes hb).normal g' (hasRow_of_goalRow hg'))
  calc g'.eval (a.complete (Function.update (fun _ => 0) e 1))
      = g.eval (a.complete (Function.update (fun _ => 0) e 1)) :=
        (heval hb hg' hray).trans (heval ha hg hray).symm
    _ = g.constant + g.coefficient e := by
        rw [hsa.eval_complete hrow, Row.eval_single (hsa.normal g hrow)]
    _ < g.constant := by linarith
    _ = g.eval a.corner := (hsa.eval_corner hrow).symm
    _ = g'.eval a.corner :=
        (heval ha hg hsa.satisfies_corner).trans (heval hb hg' hsa.satisfies_corner).symm

/-- There is no way that comes back: where the latest fickle symbol leaves, the symbol that enters
moves an older one, which would have been chosen there or where the latest one enters. -/
theorem impossible : False := by
  obtain ⟨m, hm, hlatest⟩ := h.exists_latest
  obtain ⟨a, c, e, g, ha, hc, hma, hg, he, hl, hce⟩ := h.exists_leaves hm
  obtain ⟨b, g', hb, hmb, hg', hm'⟩ := h.exists_enters hm
  have hsa := h.solved_of_passes ha
  have hsb := h.solved_of_passes hb
  have hneg := (entering?_eq_some (hsa.normal g (hasRow_of_goalRow hg)) he).2
  have hn' := hsb.normal g' (hasRow_of_goalRow hg')
  obtain ⟨row, hrow, -, hrneg, -⟩ := leaving?_eq_some hsa.ascending hl
  obtain ⟨x, hx⟩ := h.exists_drift ha hb hg hneg hg'
  have hne' : g'.coefficient x ≠ 0 := left_ne_zero_of_mul hx.ne
  have hparametric : ¬b.IsBasic x := hsb.not_isBasic (hasRow_of_goalRow hg') hne'
  have hfickle : Fickle goal s t x := by
    refine ⟨?_, b, hb, hparametric⟩
    by_cases hxa : a.IsBasic x
    · exact ⟨a, ha, hxa⟩
    · have hdrift := right_ne_zero_of_mul hx.ne
      rw [drift_of_not_isBasic hxa] at hdrift
      split at hdrift
      · next hxe => exact ⟨c, hc, hxe ▸ hce⟩
      · cases hdrift rfl
  by_cases hxm : x = m
  · -- The latest one itself moves the wrong way.
    subst hxm
    have hpos := mul_pos_of_neg_of_neg (entering?_eq_some hn' hm').2 hrneg
    rw [hsa.drift_of_get? hrow] at hx
    exact lt_asymm hx hpos
  · have hlt : x.place < m.place :=
      lt_of_le_of_ne (hlatest x hfickle) fun heq => hxm (Symbol.place_injective heq)
    have hpos : 0 < g'.coefficient x := by
      refine lt_of_le_of_ne (not_lt.1 fun hneg' => ?_) hne'.symm
      exact absurd (place_le_of_entering? hn' hm' (h.not_isDummy hfickle) hneg') (not_le.2 hlt)
    have hdrift : a.drift e x < 0 := by
      by_contra hnonneg
      exact absurd hx (not_lt.2 (mul_nonneg hpos.le (not_lt.1 hnonneg)))
    have hxa : a.IsBasic x := by
      by_contra hxa
      rw [drift_of_not_isBasic hxa] at hdrift
      split at hdrift
      · exact absurd hdrift (by norm_num)
      · exact absurd hdrift (lt_irrefl _)
    obtain ⟨row', hrow'⟩ := hxa
    rw [hsa.drift_of_get? hrow'] at hdrift
    refine absurd (place_le_of_leaving? hsa.ascending hl hrow hrow' (h.isRestricted hfickle) hdrift ?_)
      (not_le.2 hlt)
    rw [h.constant_eq_zero hm ha hrow, h.constant_eq_zero hfickle ha hrow']
    simp

end Loops

end Solver

end ReactiveView
