import Mathlib
import ReactiveView.Proofs.Simplex.Runs

/-!
This module contains when the values of a system meet the required constraints. Inequalities are
always met. A required equality is met where its dummy is zero, and a removal may take that from it:
where a slack gives way to the marker of the removed constraint, a basic dummy moves along.
-/

namespace ReactiveView

namespace Live

variable {lv : Live ℚ} {b : Symbol}

/-- The symbols of a required constraint. -/
theorem Fits.of_isRequired (h : lv.Fits) (hreq : lv.constraint.IsRequired) :
    lv.tag.other = none ∧ (lv.tag.marker.IsDummy ↔ lv.constraint.relation = .equal) := by
  unfold Constraint.IsRequired at hreq
  unfold Fits at h
  rw [hreq] at h
  unfold Symbol.IsDummy
  cases hrel : lv.constraint.relation <;> (rw [hrel] at h; simp [h.1, h.2])

/-- A dummy is the marker of a required equality. -/
theorem Fits.of_isDummy (h : lv.Fits) (hb : b ∈ lv.tag.symbols) (hdummy : b.IsDummy) :
    b = lv.tag.marker ∧ lv.constraint.IsRequired ∧ lv.constraint.relation = .equal := by
  unfold Symbol.IsDummy at hdummy
  unfold Constraint.IsRequired
  unfold Tag.symbols at hb
  unfold Fits at h
  split at h
  · next hrel hreq =>
    rw [h.2] at hb
    exact ⟨by simpa using hb, hreq, hrel⟩
  all_goals
    obtain ⟨hm, ho⟩ := h
    exfalso
    rcases List.mem_cons.1 hb with rfl | hb
    · rw [hm] at hdummy
      cases hdummy
    · first
      | obtain ⟨y, ho, hy⟩ := ho
        rw [ho] at hb
        obtain rfl : b = y := by simpa using hb
        rw [hy] at hdummy
        cases hdummy
      | rw [ho] at hb
        cases hb

end Live

namespace Solver

/-- Whether values of the variables meet all required constraints of a system. -/
def IsMet (s : Solver ℚ) (values : Variable → ℚ) : Prop :=
  ∀ key lv, s.live.get? key = some lv → lv.constraint.IsRequired → lv.constraint.Holds values

/-- Removals where no dummy depends on the marker, unless a dummy itself gives way to it. -/
def PinsKept (s : Solver ℚ) : Request → Prop
  | .remove c => ∀ lv, s.live.get? (.given c.id) = some lv → s.KeepsPins lv.tag.marker
  | _ => True

variable {s t : Solver ℚ} {requests : List Request} {request : Request} {key : Handle}
variable {lv : Live ℚ} {target : Handle → ℚ} {b m l : Symbol} {row : Row ℚ}

/-! ### The dummies of the required equalities -/

theorem Nonneg.corner (h : s.Nonneg) {x : Symbol} (hx : x.IsRestricted) : 0 ≤ s.corner x := by
  by_cases hb : s.IsBasic x
  · obtain ⟨row, hrow⟩ := hb
    rw [corner_of_get? hrow]
    exact h x row hrow hx
  · rw [corner_of_not_isBasic hb]

theorem Pinned.corner (h : s.Pinned) {x : Symbol} (hx : x.IsDummy) : s.corner x = 0 := by
  by_cases hb : s.IsBasic x
  · obtain ⟨row, hrow⟩ := hb
    rw [corner_of_get? hrow]
    exact (h x row hrow hx).1
  · exact corner_of_not_isBasic hb

/-- The restricted symbols of the rows belong to live constraints. -/
theorem Models.exists_live (hm : s.Models target) (hrow : s.rows.get? b = some row)
    (hb : b.IsRestricted) : ∃ key lv, s.live.get? key = some lv ∧ b ∈ lv.tag.symbols := by
  -- A symbol of no constraint could be moved alone, but its row ties it to the others.
  by_contra hnone
  push Not at hnone
  have hbalances : s.Balances target (Function.update s.corner b (s.corner b + 1)) := by
    intro key lv hlv
    unfold Live.Balanced
    rw [hm.registered.reading_update hb]
    refine Eq.trans (Live.residual_congr rfl ?_)
      ((hm.satisfies_iff _).1 hm.solved.satisfies_corner key lv hlv)
    intro x hx
    apply Function.update_of_ne
    rintro rfl
    exact hnone key lv hlv hx
  have hmoved := (hm.satisfies_iff _).2 hbalances b row hrow
  rw [Function.update_self, Row.eval_update_of_coefficient (hm.solved.normal row (.basic hrow))
    (hm.solved.solved row b (.basic hrow) ⟨row, hrow⟩),
    ← hm.solved.satisfies_corner b row hrow] at hmoved
  linarith

theorem Models.balanced_corner (hm : s.Models target) (hlv : s.live.get? key = some lv) :
    lv.Balanced s.value (target key) s.corner := by
  have := (hm.satisfies_iff _).1 hm.solved.satisfies_corner key lv hlv
  rwa [reading_corner] at this

/-- A required constraint is met unless it is an equality whose dummy has left zero. -/
theorem Sound.holds_iff (hs : s.Sound target) (hlv : s.live.get? key = some lv)
    (hreq : lv.constraint.IsRequired) : lv.constraint.Holds s.value ↔
      (lv.constraint.relation = .equal → s.corner lv.tag.marker = 0) := by
  have hfits := hs.models.tagged.fits key lv hlv
  have hbalanced := hs.models.balanced_corner hlv
  have hsign := hs.nonneg.corner (hfits.kind_ne_external lv.marker_mem)
  unfold Live.Balanced Live.residual at hbalanced
  rw [(hfits.of_isRequired hreq).1] at hbalanced
  unfold Constraint.Holds
  cases hrel : lv.constraint.relation with
  | atMost =>
    simp only [hrel] at hbalanced
    simp only [reduceCtorEq, false_implies, iff_true]
    linarith
  | equal =>
    simp only [hrel] at hbalanced
    simp only [forall_const]
    constructor
    · intro h
      linarith
    · intro h
      linarith
  | atLeast =>
    simp only [hrel] at hbalanced
    simp only [reduceCtorEq, false_implies, iff_true]
    linarith

theorem Sound.isMet (hs : s.Sound target) (hp : s.Pinned) : s.IsMet s.value := by
  intro key lv hlv hreq
  rw [hs.holds_iff hlv hreq]
  intro hrel
  apply hp.corner
  rw [((hs.models.tagged.fits key lv hlv).of_isRequired hreq).2]
  exact hrel

/-! ### Runs that keep the dummies pinned -/

theorem Consistent.pinned_steps (hs : s.Consistent) (hp : s.Pinned) (hkeeps : s.PinsKept request)
    (h : s.Steps request t) : t.Pinned := by
  obtain ⟨r, hperform, hr⟩ := h
  cases request with
  | add c => exact hs.pinned_add hperform hr hp
  | remove c => exact hs.pinned_remove hperform hp hkeeps
  | addEdit x strength => exact (hs.performs_addEdit hperform).pinned hr hp
  | removeEdit x => exact hs.pinned_removeEdit hperform hp
  | suggest x v => exact hs.pinned_suggest hperform hr hp
  | setAutoSolve enabled => exact hs.pinned_setAutoSolve hperform hp
  | solve => exact hs.pinned_solve hperform hp

theorem Runs.pinned (h : Runs PinsKept requests s) : s.Pinned := by
  induction h with
  | start => exact pinned_new
  | step hruns hkeeps hstep ih => exact hruns.consistent.pinned_steps ih hkeeps hstep

/-! ### One removal -/

/-- Whether the removal of a marker leaves all other dummies where they are: it is basic, or the row
that gives way has no constant to pass on, or the other dummies do not depend on the marker. -/
def LeavesDummies (s : Solver ℚ) (m : Symbol) : Prop :=
  ¬s.IsBasic m → ∀ l row, s.givingWay? m = some l → s.rows.get? l = some row →
    row.constant = 0 ∨
      ∀ b row', s.rows.get? b = some row' → b.IsDummy → b ≠ l → row'.coefficient m = 0

/-- Where the removed marker takes the place of `l`, the other rows pass on the constant. -/
theorem Solved.corner_gives (hs : s.Solved) (hrow : s.rows.get? l = some row)
    (hne : row.coefficient m ≠ 0) {row' : Row ℚ} (hrow' : s.rows.get? b = some row')
    (hbl : b ≠ l) (ht : t.rows = ((s.forget l).substitute m (row.exchanged l m)).rows) :
    t.corner b = row'.constant + row'.coefficient m * (-row.constant / row.coefficient m) := by
  have hle := hs.ne_of_coefficient hrow hne
  have hget : t.rows.get? b = some (row'.substitute m (row.exchanged l m)) := by
    rw [ht, get?_substitute, get?_forget, if_neg hbl, hrow']
    rfl
  rw [corner_of_get? hget, Row.constant_substitute (hs.normal row' (.basic hrow')),
    Row.constant_exchanged (hs.normal row (.basic hrow)) hle hne]

section Gives

variable (hs : s.Sound target) (ht : t.Sound target) (hp : s.Pinned)
  (hrow : s.rows.get? l = some row) (hne : row.coefficient m ≠ 0)
  (hrows : t.rows = ((s.forget l).substitute m (row.exchanged l m)).rows)
include hs ht hp hrow hne hrows

theorem Sound.coefficient_of_meets (hlv : s.live.get? key = some lv) (hlvm : lv.tag.marker = m)
    (hb : ¬s.IsBasic m) (hlive : t.live = s.live.erase key) (hmeets : t.IsMet t.value)
    (hconstant : row.constant ≠ 0) {row' : Row ℚ} (hrow' : s.rows.get? b = some row')
    (hdummy : b.IsDummy) (hbl : b ≠ l) : row'.coefficient m = 0 := by
  have hm := hs.models
  -- The dummy is that of another requirement, and it takes the removed constant on.
  obtain ⟨key', lv', hlv', hmem⟩ := hm.exists_live hrow' hdummy.isRestricted
  obtain ⟨rfl, hreq, hrel⟩ := (hm.tagged.fits key' lv' hlv').of_isDummy hmem hdummy
  have hkey : key' ≠ key := by
    rintro rfl
    rw [hlv] at hlv'
    cases hlv'
    exact hb (hlvm ▸ ⟨row', hrow'⟩)
  have hlv'' : t.live.get? key' = some lv' := by
    rw [hlive, Table.get?_erase, if_neg hkey]
    exact hlv'
  have hzero := (ht.holds_iff hlv'' hreq).1 (hmeets key' lv' hlv'' hreq) hrel
  rw [hm.solved.corner_gives hrow hne hrow' hbl hrows, (hp _ row' hrow' hdummy).1, zero_add] at hzero
  rcases mul_eq_zero.1 hzero with hcoefficient | hratio
  · exact hcoefficient
  · exact absurd hratio (div_ne_zero (neg_ne_zero.2 hconstant) hne)

theorem Sound.meets_of_leaves (hleaves : row.constant = 0 ∨
      ∀ b row', s.rows.get? b = some row' → b.IsDummy → b ≠ l → row'.coefficient m = 0) :
    t.IsMet t.value := by
  have hm := hs.models
  intro key' lv' hlv' hreq
  rw [ht.holds_iff hlv' hreq]
  intro hrel
  have hdummy := ((ht.models.tagged.fits key' lv' hlv').of_isRequired hreq).2.2 hrel
  by_cases hbasic : t.IsBasic lv'.tag.marker
  · obtain ⟨row'', hrow''⟩ := hbasic
    rw [hrows, get?_substitute] at hrow''
    obtain ⟨row', hrow', -⟩ := Option.map_eq_some_iff.1 hrow''
    obtain ⟨hbl, hrow'⟩ := of_get?_forget hrow'
    rw [hm.solved.corner_gives hrow hne hrow' hbl hrows, (hp _ row' hrow' hdummy).1, zero_add]
    rcases hleaves with hconstant | hnone
    · rw [hconstant, neg_zero, zero_div, mul_zero]
    · rw [hnone _ row' hrow' hdummy hbl, zero_mul]
  · exact corner_of_not_isBasic hbasic

end Gives

/-- Without minimisation after it, a removal keeps the requirements met just where it leaves the
dummies where they are. -/
theorem Removes.isMet_iff {r : Except SolverError Unit} (h : Removes s key r t)
    (hs : s.Sound target) (hp : s.Pinned) (hauto : s.autoSolve = false) :
    t.IsMet t.value ↔
      ∀ lv, s.live.get? key = some lv → s.LeavesDummies lv.tag.marker := by
  have ht : t.Sound target := h.sound hs (fun _ _ => rfl) fun _ => rfl
  have hpins := fun hkeeps => ht.isMet (h.pinned hs hp hkeeps)
  cases h with
  | unknown hnone =>
    rw [hnone]
    exact ⟨fun _ lv hlv => (by cases hlv), fun _ => ht.isMet hp⟩
  | @basic lv r t hlv hb hfollows =>
    rw [hlv]
    constructor
    · rintro - lv' ⟨⟩ hnot
      exact absurd hb hnot
    · intro _
      apply hpins
      rintro lv' hlv' hnot
      rw [hlv] at hlv'
      cases hlv'
      exact absurd hb hnot
  | @gives lv l row r t hlv hb hway hrow hgives hfollows =>
    cases hfollows with
    | minimised hauto' =>
      have : s.autoSolve = true := hauto'
      rw [hauto] at this
      cases this
    | due =>
      constructor
      · intro hmeets lv' hlv' _ l' row' hway' hrow'
        rw [hlv] at hlv'
        cases hlv'
        rw [hway] at hway'
        cases hway'
        rw [hrow] at hrow'
        cases hrow'
        refine or_iff_not_imp_left.2 fun hconstant b row' hrow' hdummy hbl => ?_
        exact hs.coefficient_of_meets ht hp hrow hgives.ne_zero rfl hlv rfl hb rfl hmeets hconstant
          hrow' hdummy hbl
      · intro hleaves
        exact hs.meets_of_leaves ht hp hrow hgives.ne_zero rfl (hleaves lv hlv hb l row hway hrow)

/-! ### All runs -/

/-- On every run a required constraint is met just where its dummy, if it has one, is zero. All are
met after runs that keep the dummies pinned; and the next removal keeps them met just where it
leaves the dummies where they are. -/
theorem requirements_of_runs (h : Runs Anything requests s) :
    (∀ key lv, s.live.get? key = some lv → lv.constraint.IsRequired →
      (lv.constraint.Holds s.value ↔
        (lv.constraint.relation = .equal → s.corner lv.tag.marker = 0))) ∧
    (Runs PinsKept requests s → s.IsMet s.value) ∧
    (Runs PinsKept requests s → ∀ c t, s.autoSolve = false → s.Steps (.remove c) t →
      (t.IsMet t.value ↔
        ∀ lv, s.live.get? (.given c.id) = some lv → s.LeavesDummies lv.tag.marker)) := by
  have hs := h.consistent.valid.sound
  refine ⟨?_, ?_, ?_⟩
  · intro key lv hlv hreq
    exact hs.holds_iff hlv hreq
  · intro hkept
    exact hs.isMet hkept.pinned
  · rintro hkept c t hauto ⟨r, hperform, -⟩
    exact (perform_removeAs hs.models hperform).isMet_iff hs hkept.pinned hauto

/-- A requirement. -/
def once : Constraint ℚ := .between 0 (.ofVariable ⟨0⟩) .equal (.ofConstant 20)

/-- The same requirement, which pins one dummy to the other. -/
def again : Constraint ℚ := .between 1 (.ofVariable ⟨0⟩) .equal (.ofConstant 20)

/-- A requirement that follows, and that is not tight. -/
def loose : Constraint ℚ := .between 2 (.ofVariable ⟨0⟩) .atLeast (.ofConstant 17)

theorem requirements_of_runs_twice :
    ∃ s t, Runs PinsKept [.setAutoSolve false, .add once, .add again, .add loose] s ∧
      s.Steps (.remove once) t ∧ s.IsMet s.value ∧ (t.IsMet t.value ↔
        ∀ lv, s.live.get? (.given 0) = some lv → s.LeavesDummies lv.tag.marker) := by
  have hserved : ((served [.setAutoSolve false, .add once, .add again, .add loose]).bind fun s =>
      (s.answered (.remove once)).map fun t => (s.autoSolve, t.dirty)) = some (false, true) := by
    decide +kernel
  obtain ⟨s, hs, hremove⟩ := Option.bind_eq_some_iff.1 hserved
  obtain ⟨t, ht, heq⟩ := Option.map_eq_some_iff.1 hremove
  have hruns : Runs PinsKept [.setAutoSolve false, .add once, .add again, .add loose] s := by
    apply runs_of_served _ hs
    intro u request hmem
    fin_cases hmem <;> trivial
  have hstep := answered_eq_some_iff.1 ht
  obtain ⟨-, hmeets, hnext⟩ := requirements_of_runs hruns.anything
  exact ⟨s, t, hruns, hstep, hmeets hruns, hnext hruns once t (congrArg Prod.fst heq) hstep⟩

/-- Not every run keeps the requirements met: the slack of the bound gives way to the marker of the
first equality, and the second one is off by three. -/
theorem not_isMet_of_runs :
    ¬∀ requests s, Runs Anything requests s → s.IsMet s.value := by
  intro h
  have hserved : ((served [.add once, .add again, .add loose, .remove once]).bind fun s =>
      (s.live.get? (.given 1)).map fun lv =>
        decide (lv.constraint.IsRequired ∧ ¬lv.constraint.Holds s.value)) = some true := by
    decide +kernel
  obtain ⟨s, hs, hlive⟩ := Option.bind_eq_some_iff.1 hserved
  obtain ⟨lv, hlv, heq⟩ := Option.map_eq_some_iff.1 hlive
  obtain ⟨hreq, hnot⟩ := of_decide_eq_true heq
  exact hnot (h _ s (runs_of_served (fun _ _ _ => trivial) hs) (.given 1) lv hlv hreq)

end Solver

end ReactiveView
