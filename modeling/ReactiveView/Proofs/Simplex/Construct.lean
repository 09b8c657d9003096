import Mathlib
import ReactiveView.Proofs.Simplex.Equations

/-!
This module contains how the row of a new constraint is built: what its symbols are, that the row
stands for the equation of the constraint, and that nothing else of the system changes its meaning.
-/

namespace ReactiveView

namespace Live

/-- The row with the symbols of the constraint added to it. -/
def attach (lv : Live ℚ) (row : Row ℚ) : Row ℚ :=
  match lv.tag.other with
  | none => row.addSymbol lv.tag.marker lv.sign
  | some other => (row.addSymbol lv.tag.marker lv.sign).addSymbol other (-lv.sign)

/-- The symbols that measure a violation. -/
def errors (lv : Live ℚ) : List Symbol := lv.tag.symbols.filter fun x => x.kind == .error

/-- The objective with the cost of the constraint added to it. -/
def charge (lv : Live ℚ) (objective : Row ℚ) : Row ℚ :=
  lv.errors.foldl (fun o x => o.addSymbol x lv.constraint.strength.value) objective

variable {lv : Live ℚ} {row : Row ℚ} {x y : Symbol}

theorem residual_zero (lv : Live ℚ) (reading : Variable → ℚ) (value : Symbol → ℚ) :
    lv.residual reading 0 value
      = lv.constraint.expr.evaluate reading
        + lv.sign * (value lv.tag.marker - lv.tag.other.elim 0 value) := by
  unfold residual sign
  cases lv.tag.other with
  | none => cases lv.constraint.relation <;> (dsimp only [Option.elim_none]; ring)
  | some y => cases lv.constraint.relation <;> (dsimp only [Option.elim_some]; ring)

theorem eval_attach (h : row.Normal) (value : Symbol → ℚ) :
    (lv.attach row).eval value
      = row.eval value + lv.sign * (value lv.tag.marker - lv.tag.other.elim 0 value) := by
  unfold attach
  cases lv.tag.other with
  | none =>
    dsimp only [Option.elim_none]
    rw [Row.eval_addSymbol h.ascending]
    ring
  | some y =>
    dsimp only [Option.elim_some]
    rw [Row.eval_addSymbol (h.addSymbol _ _).ascending, Row.eval_addSymbol h.ascending]
    ring

theorem coefficient_attach_marker (hdistinct : ∀ y, lv.tag.other = some y → y ≠ lv.tag.marker)
    (hrow : row.coefficient lv.tag.marker = 0) :
    (lv.attach row).coefficient lv.tag.marker = lv.sign := by
  unfold attach
  split
  · rw [Row.coefficient_addSymbol, if_pos rfl, hrow, zero_add]
  · next y hy =>
    rw [Row.coefficient_addSymbol, if_neg (hdistinct y hy).symm, add_zero,
      Row.coefficient_addSymbol, if_pos rfl, hrow, zero_add]

theorem coefficient_attach_other (hdistinct : ∀ y, lv.tag.other = some y → y ≠ lv.tag.marker)
    (hy : lv.tag.other = some y) (hrow : row.coefficient y = 0) :
    (lv.attach row).coefficient y = -lv.sign := by
  unfold attach
  split
  · next hnone =>
    rw [hnone] at hy
    cases hy
  · next y' hy' =>
    rw [hy'] at hy
    cases hy
    rw [Row.coefficient_addSymbol, if_pos rfl, Row.coefficient_addSymbol,
      if_neg (hdistinct _ hy'), hrow]
    ring

theorem eval_addErrors (h : row.Normal) (l : List Symbol) (w : ℚ) (value : Symbol → ℚ) :
    (l.foldl (fun (o : Row ℚ) x => o.addSymbol x w) row).eval value
      = row.eval value + w * (l.map value).sum := by
  induction l generalizing row with
  | nil => simp
  | cons x rest ih =>
    rw [List.foldl_cons, ih (h.addSymbol x w), Row.eval_addSymbol h.ascending, List.map_cons,
      List.sum_cons]
    ring

theorem coefficient_addErrors (l : List Symbol) (w : ℚ) (hx : x ∉ l) :
    (l.foldl (fun (o : Row ℚ) x => o.addSymbol x w) row).coefficient x = row.coefficient x := by
  induction l generalizing row with
  | nil => rfl
  | cons y rest ih =>
    rw [List.foldl_cons, ih (fun h => hx (List.mem_cons_of_mem _ h)), Row.coefficient_addSymbol,
      if_neg, add_zero]
    rintro rfl
    exact hx List.mem_cons_self

theorem eval_charge (h : row.Normal) (value : Symbol → ℚ) :
    (lv.charge row).eval value = row.eval value + lv.cost value :=
  eval_addErrors h _ _ value

theorem coefficient_charge_of_not_mem (hx : x ∉ lv.tag.symbols) :
    (lv.charge row).coefficient x = row.coefficient x :=
  coefficient_addErrors _ _ fun h => hx (List.mem_of_mem_filter h)

end Live

namespace Solver

/-- Whether a row speaks about parametric symbols only, as the rows of the tableau do. -/
structure Parametric (s : Solver ℚ) (row : Row ℚ) : Prop where
  normal : row.Normal
  solved : ∀ b, s.IsBasic b → row.coefficient b = 0
  known : ∀ x, row.coefficient x ≠ 0 → x.id < s.nextId

/-- The system after symbols have been made: rows stay, and variables keep their symbols. -/
structure Grown (s t : Solver ℚ) : Prop where
  rows : t.rows = s.rows
  live : t.live = s.live
  edits : t.edits = s.edits
  artificial : t.artificial = s.artificial
  infeasible : t.infeasible = s.infeasible
  autoSolve : t.autoSolve = s.autoSolve
  dirty : t.dirty = s.dirty
  nextId : s.nextId ≤ t.nextId
  vars : ∀ x y, s.vars.get? x = some y → t.vars.get? x = some y

variable {s t u : Solver ℚ} {row row' d : Row ℚ} {b x : Symbol} {value : Symbol → ℚ}

theorem Grown.refl (s : Solver ℚ) : s.Grown s :=
  ⟨rfl, rfl, rfl, rfl, rfl, rfl, rfl, le_rfl, fun _ _ h => h⟩

theorem Grown.trans (h : s.Grown t) (h' : t.Grown u) : s.Grown u :=
  ⟨h'.rows.trans h.rows, h'.live.trans h.live, h'.edits.trans h.edits,
    h'.artificial.trans h.artificial, h'.infeasible.trans h.infeasible,
    h'.autoSolve.trans h.autoSolve, h'.dirty.trans h.dirty, h.nextId.trans h'.nextId,
    fun x y hy => h'.vars x y (h.vars x y hy)⟩

theorem Grown.isBasic_iff (h : s.Grown t) : t.IsBasic b ↔ s.IsBasic b := by
  unfold IsBasic
  rw [h.rows]

theorem Grown.satisfies_iff (h : s.Grown t) : t.Satisfies value ↔ s.Satisfies value := by
  unfold Satisfies
  rw [h.rows]

theorem Parametric.grown (hp : s.Parametric row) (h : s.Grown t) : t.Parametric row where
  normal := hp.normal
  solved b hb := hp.solved b (h.isBasic_iff.1 hb)
  known x hx := (hp.known x hx).trans_le h.nextId

theorem Solved.parametric (hs : s.Solved) (hrow : s.HasRow row) : s.Parametric row where
  normal := hs.normal row hrow
  solved b hb := hs.solved row b hrow hb
  known x hx := hs.known row x hrow hx

theorem Parametric.ofConstant (s : Solver ℚ) (c : ℚ) : s.Parametric (Row.ofConstant c) where
  normal := .ofConstant c
  solved _ _ := rfl
  known _ hx := absurd rfl hx

theorem Parametric.addSymbol (hp : s.Parametric row) (hx : ¬s.IsBasic x) (hid : x.id < s.nextId)
    (c : ℚ) : s.Parametric (row.addSymbol x c) where
  normal := hp.normal.addSymbol x c
  solved b hb := by
    have hbx : b ≠ x := by
      rintro rfl
      exact hx hb
    rw [Row.coefficient_addSymbol, if_neg hbx, hp.solved b hb, add_zero]
  known y hy := by
    by_cases hyx : y = x
    · rw [hyx]
      exact hid
    · rw [Row.coefficient_addSymbol, if_neg hyx, add_zero] at hy
      exact hp.known y hy

theorem Parametric.addRow (hp : s.Parametric row) (hd : s.Parametric d) (c : ℚ) :
    s.Parametric (row.addRow d c) where
  normal := hp.normal.addRow d c
  solved b hb := by
    rw [Row.coefficient_addRow hp.normal hd.normal, hp.solved b hb, hd.solved b hb]
    ring
  known y hy := by
    rw [Row.coefficient_addRow hp.normal hd.normal] at hy
    by_cases h0 : row.coefficient y = 0
    · apply hd.known
      intro h1
      rw [h0, h1] at hy
      exact hy (by ring)
    · exact hp.known y h0

theorem Parametric.negated (hp : s.Parametric row) : s.Parametric row.negated where
  normal := hp.normal.negated
  solved b hb := by rw [Row.coefficient_negated, hp.solved b hb, neg_zero]
  known y hy := by
    rw [Row.coefficient_negated] at hy
    exact hp.known y (neg_ne_zero.1 hy)

theorem Parametric.attach (hp : s.Parametric row) (lv : Live ℚ)
    (hfresh : ∀ x ∈ lv.tag.symbols, ¬s.IsBasic x) (hid : ∀ x ∈ lv.tag.symbols, x.id < s.nextId) :
    s.Parametric (lv.attach row) := by
  have hm := hp.addSymbol (hfresh _ lv.marker_mem) (hid _ lv.marker_mem) lv.sign
  unfold Live.attach
  split
  · exact hm
  · next y hy =>
    exact hm.addSymbol (hfresh _ (Tag.other_mem hy)) (hid _ (Tag.other_mem hy)) _

theorem Parametric.addErrors (hp : s.Parametric row) (l : List Symbol)
    (hfresh : ∀ x ∈ l, ¬s.IsBasic x) (hid : ∀ x ∈ l, x.id < s.nextId) (w : ℚ) :
    s.Parametric (l.foldl (fun (o : Row ℚ) x => o.addSymbol x w) row) := by
  induction l generalizing row with
  | nil => exact hp
  | cons x rest ih =>
    apply ih (hp.addSymbol (hfresh x List.mem_cons_self) (hid x List.mem_cons_self) w)
    · intro y hy
      exact hfresh y (List.mem_cons_of_mem _ hy)
    · intro y hy
      exact hid y (List.mem_cons_of_mem _ hy)

/-- Another objective over parametric symbols keeps the solved form. -/
theorem Solved.of_objective (hs : s.Solved) (hrows : t.rows = s.rows)
    (hart : t.artificial = s.artificial) (hid : s.nextId ≤ t.nextId)
    (hobj : t.Parametric t.objective) : t.Solved := by
  have hrow : ∀ row, t.HasRow row → s.HasRow row ∨ row = t.objective := by
    rintro row (⟨b, hb⟩ | hobj | hart')
    · rw [hrows] at hb
      exact .inl (.basic hb)
    · exact .inr hobj
    · rw [hart] at hart'
      exact .inl (.artificial hart')
  have hbasic : ∀ b, t.IsBasic b → s.IsBasic b := by
    intro b hb
    unfold IsBasic at *
    rw [hrows] at hb
    exact hb
  refine ⟨hrows ▸ hs.ascending, ?_, ?_, ?_, ?_⟩
  · intro row hr
    rcases hrow row hr with hr | rfl
    · exact hs.normal row hr
    · exact hobj.normal
  · intro row b hr hb
    rcases hrow row hr with hr | rfl
    · exact hs.solved row b hr (hbasic b hb)
    · exact hobj.solved b hb
  · intro row x hr hx
    rcases hrow row hr with hr | rfl
    · exact (hs.known row x hr hx).trans_le hid
    · exact hobj.known x hx
  · intro b hb
    exact (hs.basic_known b (hbasic b hb)).trans_le hid

theorem Closed.of_objective (hc : s.Closed) (hrows : t.rows = s.rows)
    (hart : t.artificial = s.artificial) (hobj : t.objective.Within Symbol.IsRestricted) :
    t.Closed := by
  rintro row (⟨b, hb, hk⟩ | rfl | hart')
  · rw [hrows] at hb
    exact hc row (.basic hb hk)
  · exact hobj
  · rw [hart] at hart'
    exact hc row (.artificial hart')

/-! ### Variables -/

theorem grown_symbolOf (s : Solver ℚ) (x : Variable) : s.Grown (s.symbolOf x).2 := by
  unfold symbolOf
  cases hx : s.vars.get? x with
  | some y => exact .refl s
  | none =>
    refine ⟨rfl, rfl, rfl, rfl, rfl, rfl, rfl, Nat.le_succ _, ?_⟩
    intro x' y hy
    have hne : x' ≠ x := by
      rintro rfl
      rw [hx] at hy
      cases hy
    exact (Table.get?_insert_ne _ hne _).trans hy

theorem objective_symbolOf {α : Type} (s : Solver α) (x : Variable) :
    (s.symbolOf x).2.objective = s.objective := by
  unfold symbolOf
  cases s.vars.get? x <;> rfl

theorem get?_symbolOf (s : Solver ℚ) (x : Variable) :
    (s.symbolOf x).2.vars.get? x = some (s.symbolOf x).1 := by
  unfold symbolOf
  cases hx : s.vars.get? x with
  | some y => exact hx
  | none => exact Table.get?_insert_self _ _ _

theorem Registered.symbolOf (hr : s.Registered) (x : Variable) : (s.symbolOf x).2.Registered := by
  unfold Solver.symbolOf
  cases hx : s.vars.get? x with
  | some y => exact hr
  | none =>
    have hcases : ∀ x' y, (s.vars.insert x ⟨s.nextId, .external⟩).get? x' = some y →
        x' = x ∧ y = ⟨s.nextId, .external⟩ ∨ s.vars.get? x' = some y :=
      fun _ _ => Table.of_get?_insert
    refine ⟨?_, ?_, ?_⟩
    · intro x' y hy
      rcases hcases x' y hy with ⟨-, rfl⟩ | hy
      · rfl
      · exact hr.external x' y hy
    · intro x' y hy
      rcases hcases x' y hy with ⟨-, rfl⟩ | hy
      · exact Nat.lt_succ_self _
      · exact (hr.known x' y hy).trans_le (Nat.le_succ _)
    · intro x₁ x₂ y hy₁ hy₂
      rcases hcases x₁ y hy₁ with ⟨rfl, rfl⟩ | hold₁
      · rcases hcases x₂ _ hy₂ with ⟨rfl, -⟩ | hold₂
        · rfl
        · exact absurd (hr.known x₂ _ hold₂) (lt_irrefl _)
      · rcases hcases x₂ y hy₂ with ⟨rfl, rfl⟩ | hold₂
        · exact absurd (hr.known x₁ _ hold₁) (lt_irrefl _)
        · exact hr.distinct x₁ x₂ y hold₁ hold₂

/-- What the terms of an expression come to. -/
structure Collected (s : Solver ℚ) (row : Row ℚ) (terms : List (LinearTerm ℚ)) (row' : Row ℚ)
    (t : Solver ℚ) : Prop where
  grown : s.Grown t
  objective : t.objective = s.objective
  registered : t.Registered
  covered : ∀ u ∈ terms, u.coefficient ≠ 0 → ∃ y, t.vars.get? u.unknown = some y
  parametric : t.Parametric row'
  eval : ∀ value, s.Satisfies value →
    row'.eval value = row.eval value
      + (terms.map fun u => u.coefficient * t.reading value u.unknown).sum

/-- The row with a multiple of a symbol added to it, in parametric symbols. -/
def addTerm (s : Solver ℚ) (row : Row ℚ) (y : Symbol) (c : ℚ) : Row ℚ :=
  match s.rows.get? y with
  | some basic => row.addRow basic c
  | none => row.addSymbol y c

theorem addTerms_cons {u : LinearTerm ℚ} (hc : u.coefficient ≠ 0) (row : Row ℚ)
    (rest : List (LinearTerm ℚ)) :
    s.addTerms row (u :: rest)
      = (s.symbolOf u.unknown).2.addTerms
          ((s.symbolOf u.unknown).2.addTerm row (s.symbolOf u.unknown).1 u.coefficient) rest := by
  rw [addTerms, if_neg (by simpa using hc)]
  rcases s.symbolOf u.unknown with ⟨y, t⟩
  unfold addTerm
  dsimp only
  cases t.rows.get? y <;> rfl

theorem Parametric.addTerm (hp : s.Parametric row) (hs : s.Solved) {y : Symbol}
    (hy : y.id < s.nextId) (c : ℚ) : s.Parametric (s.addTerm row y c) := by
  unfold Solver.addTerm
  split
  · next basic hbasic => exact hp.addRow (hs.parametric (.basic hbasic)) c
  · next hnone => exact hp.addSymbol (not_isBasic_iff.2 hnone) hy c

theorem eval_addTerm (hn : row.Normal) (hsat : s.Satisfies value) (y : Symbol) (c : ℚ) :
    (s.addTerm row y c).eval value = row.eval value + c * value y := by
  unfold addTerm
  split
  · next basic hbasic => rw [Row.eval_addRow hn, ← hsat y basic hbasic]
  · rw [Row.eval_addSymbol hn.ascending]

theorem collected_addTerms (hs : s.Solved) (hr : s.Registered) (hp : s.Parametric row)
    (terms : List (LinearTerm ℚ)) :
    s.Collected row terms (s.addTerms row terms).1 (s.addTerms row terms).2 := by
  -- Each term may register a variable, so the system changes along with the row.
  induction terms generalizing s row with
  | nil =>
    refine ⟨.refl s, rfl, hr, ?_, hp, ?_⟩
    · intro u hu
      cases hu
    · intro value _
      simp [addTerms]
  | cons u rest ih =>
    by_cases hc : u.coefficient = 0
    · have hskip : s.addTerms row (u :: rest) = s.addTerms row rest := by
        rw [addTerms, if_pos (by simpa using hc)]
      rw [hskip]
      obtain ⟨hgrown, hobj, hreg, hcov, hpar, heval⟩ := ih hs hr hp
      refine ⟨hgrown, hobj, hreg, ?_, hpar, ?_⟩
      · intro u' hu' hc'
        rcases List.mem_cons.1 hu' with rfl | hu'
        · exact absurd hc hc'
        · exact hcov u' hu' hc'
      · intro value hsat
        rw [heval value hsat, List.map_cons, List.sum_cons, hc]
        ring
    · rw [addTerms_cons hc]
      have hg := grown_symbolOf s u.unknown
      have hx := get?_symbolOf s u.unknown
      have hr' := hr.symbolOf u.unknown
      have hs' := hs.congr hg.rows (objective_symbolOf s u.unknown) hg.artificial hg.nextId
      have hp' := (hp.grown hg).addTerm hs' (hr'.known _ _ hx) u.coefficient
      obtain ⟨hgrown, hobj, hreg, hcov, hpar, heval⟩ := ih hs' hr' hp'
      refine ⟨hg.trans hgrown, hobj.trans (objective_symbolOf s _), hreg, ?_, hpar, ?_⟩
      · intro u' hu' hc'
        rcases List.mem_cons.1 hu' with rfl | hu'
        · exact ⟨_, hgrown.vars _ _ hx⟩
        · exact hcov u' hu' hc'
      · intro value hsat
        have hsat' := hg.satisfies_iff.2 hsat
        rw [heval value hsat', eval_addTerm hp.normal hsat', List.map_cons, List.sum_cons]
        rw [reading_of_get? (hgrown.vars _ _ hx)]
        ring

/-! ### The symbols of a constraint -/

/-- What the symbols of a constraint come to. -/
structure Brings (s : Solver ℚ) (c : Constraint ℚ) (row row' : Row ℚ) (tag : Tag)
    (t : Solver ℚ) : Prop where
  row_eq : row' = Live.attach ⟨c, tag⟩ row
  fits : Live.Fits ⟨c, tag⟩
  distinct : ∀ y, tag.other = some y → y ≠ tag.marker
  fresh : ∀ x ∈ tag.symbols, s.nextId ≤ x.id ∧ x.id < t.nextId
  vars : t.vars = s.vars
  grown : s.Grown t
  objective : t.objective = Live.charge ⟨c, tag⟩ s.objective

/-- A required constraint brings one symbol. -/
theorem brings_one {c : Constraint ℚ} {kind : SymbolKind} {sign : ℚ} (row : Row ℚ)
    (hfits : Live.Fits ⟨c, ⟨⟨s.nextId, kind⟩, none⟩⟩) (hkind : kind ≠ .error)
    (hsign : sign = Live.sign ⟨c, ⟨⟨s.nextId, kind⟩, none⟩⟩) :
    s.Brings c row (row.addSymbol ⟨s.nextId, kind⟩ sign) ⟨⟨s.nextId, kind⟩, none⟩
      { s with nextId := s.nextId + 1 } where
  row_eq := by
    rw [hsign]
    rfl
  fits := hfits
  distinct := by
    intro y hy
    cases hy
  fresh := by simp [Tag.symbols]
  vars := rfl
  grown := ⟨rfl, rfl, rfl, rfl, rfl, rfl, rfl, Nat.le_succ _, fun _ _ h => h⟩
  objective := by simp [Live.charge, Live.errors, Tag.symbols, hkind]

/-- A constraint that may be violated brings a second symbol, of the other sign. -/
theorem brings_two {c : Constraint ℚ} {kind : SymbolKind} {sign sign' : ℚ} {objective : Row ℚ}
    (row : Row ℚ) (hfits : Live.Fits ⟨c, ⟨⟨s.nextId, kind⟩, some ⟨s.nextId + 1, .error⟩⟩⟩)
    (hsign : sign = Live.sign ⟨c, ⟨⟨s.nextId, kind⟩, some ⟨s.nextId + 1, .error⟩⟩⟩)
    (hsign' : sign' = -sign)
    (hobjective : objective =
      Live.charge ⟨c, ⟨⟨s.nextId, kind⟩, some ⟨s.nextId + 1, .error⟩⟩⟩ s.objective) :
    s.Brings c row
      ((row.addSymbol ⟨s.nextId, kind⟩ sign).addSymbol ⟨s.nextId + 1, .error⟩ sign')
      ⟨⟨s.nextId, kind⟩, some ⟨s.nextId + 1, .error⟩⟩
      { s with nextId := s.nextId + 1 + 1, objective } where
  row_eq := by
    rw [hsign', hsign]
    rfl
  fits := hfits
  distinct := by simp
  fresh := by simp [Tag.symbols]
  vars := rfl
  grown := ⟨rfl, rfl, rfl, rfl, rfl, rfl, rfl, Nat.le_add_right _ 2, fun _ _ h => h⟩
  objective := hobjective

theorem brings_bring (s : Solver ℚ) (c : Constraint ℚ) (row : Row ℚ) :
    s.Brings c row (s.bring c row).1 (s.bring c row).2.1 (s.bring c row).2.2 := by
  unfold bring
  cases hrel : c.relation with
  | equal =>
    by_cases hreq : c.strength.isRequired = true
    · simp only [hreq, if_true]
      apply brings_one
      · simp [Live.Fits, hrel, hreq]
      · simp
      · simp [Live.sign, hrel]
    · simp only [hreq]
      apply brings_two
      · simp [Live.Fits, hrel, hreq]
      · simp [Live.sign, hrel]
      · simp
      · simp [Live.charge, Live.errors, Tag.symbols, newSymbol, Solver.charge]
  | atMost =>
    by_cases hreq : c.strength.isRequired = true
    · simp only [hreq, if_true]
      apply brings_one
      · simp [Live.Fits, hrel, hreq]
      · simp
      · simp [Live.sign, hrel]
    · simp only [hreq]
      apply brings_two
      · simp [Live.Fits, hrel, hreq]
      · simp [Live.sign, hrel]
      · rfl
      · simp [Live.charge, Live.errors, Tag.symbols, newSymbol]
  | atLeast =>
    by_cases hreq : c.strength.isRequired = true
    · simp only [hreq, if_true]
      apply brings_one
      · simp [Live.Fits, hrel, hreq]
      · simp
      · simp [Live.sign, hrel]
    · simp only [hreq]
      apply brings_two
      · simp [Live.Fits, hrel, hreq]
      · simp [Live.sign, hrel]
      · rfl
      · simp [Live.charge, Live.errors, Tag.symbols, newSymbol]

/-! ### The row of a constraint -/

/-- What the row of a new constraint is: its equation, turned so that the constant is not
negative. -/
structure Charted (s : Solver ℚ) (c : Constraint ℚ) (row : Row ℚ) (tag : Tag)
    (t : Solver ℚ) : Prop where
  fits : Live.Fits ⟨c, tag⟩
  distinct : ∀ y, tag.other = some y → y ≠ tag.marker
  fresh : ∀ x ∈ tag.symbols, s.nextId ≤ x.id ∧ x.id < t.nextId
  grown : s.Grown t
  registered : t.Registered
  covered : ∀ u ∈ c.expr.terms, u.coefficient ≠ 0 → ∃ y, t.vars.get? u.unknown = some y
  objective : t.objective = Live.charge ⟨c, tag⟩ s.objective
  parametric : t.Parametric row
  nonneg : 0 ≤ row.constant
  equation : ∃ ε : ℚ, (ε = 1 ∨ ε = -1) ∧
    (∀ value, s.Satisfies value →
      row.eval value = ε * Live.residual ⟨c, tag⟩ (t.reading value) 0 value) ∧
    row.coefficient tag.marker = ε * Live.sign ⟨c, tag⟩ ∧
    ∀ y, tag.other = some y → row.coefficient y = -(ε * Live.sign ⟨c, tag⟩)

theorem rowOf_eq (s : Solver ℚ) (c : Constraint ℚ) {row row' : Row ℚ} {tag : Tag}
    (hterms : s.addTerms (Row.ofConstant c.expr.constant) c.expr.terms = (row, t))
    (hbring : t.bring c row = (row', tag, u)) :
    s.rowOf c = (if row'.constant < 0 then row'.negated else row', tag, u) := by
  unfold rowOf
  rw [hterms]
  dsimp only
  rw [hbring]
  simp

theorem charted_rowOf (hs : s.Solved) (hr : s.Registered) (c : Constraint ℚ) :
    s.Charted c (s.rowOf c).1 (s.rowOf c).2.1 (s.rowOf c).2.2 := by
  have hcollected := collected_addTerms hs hr (.ofConstant s c.expr.constant) c.expr.terms
  rcases hterms : s.addTerms (Row.ofConstant c.expr.constant) c.expr.terms with ⟨row, t⟩
  rw [hterms] at hcollected
  have hbrings := brings_bring t c row
  rcases hbring : t.bring c row with ⟨row', tag, u⟩
  rw [hbring] at hbrings
  rw [rowOf_eq s c hterms hbring]
  dsimp only at *
  obtain ⟨hgrown, hobj, hreg, hcov, hpar, heval⟩ := hcollected
  obtain ⟨hrow', hfits, hdistinct, hfresh, hvars, hgrown', hobj'⟩ := hbrings
  have hst := hgrown.trans hgrown'
  have hnotBasic : ∀ x ∈ tag.symbols, ¬u.IsBasic x := by
    intro x hx hb
    have := hs.basic_known x (hst.isBasic_iff.1 hb)
    have := (hfresh x hx).1
    have := hgrown.nextId
    omega
  have hzero : ∀ x ∈ tag.symbols, row.coefficient x = 0 := by
    intro x hx
    by_contra hne
    have := hpar.known x hne
    have := (hfresh x hx).1
    omega
  -- The row without its sign turned stands for the equation itself.
  have hpar' : u.Parametric row' := by
    rw [hrow']
    exact (hpar.grown hgrown').attach ⟨c, tag⟩ hnotBasic fun x hx => (hfresh x hx).2
  have heval' : ∀ value, s.Satisfies value →
      row'.eval value = Live.residual ⟨c, tag⟩ (u.reading value) 0 value := by
    intro value hsat
    rw [hrow', Live.eval_attach hpar.normal, heval value hsat, Live.residual_zero,
      Row.eval_ofConstant, reading_of_vars hvars, LinearExpr.evaluate_eq]
  have hmarker : row'.coefficient tag.marker = Live.sign ⟨c, tag⟩ := by
    rw [hrow']
    exact Live.coefficient_attach_marker hdistinct (hzero _ List.mem_cons_self)
  have hother : ∀ y, tag.other = some y → row'.coefficient y = -Live.sign ⟨c, tag⟩ := by
    intro y hy
    rw [hrow']
    exact Live.coefficient_attach_other hdistinct hy (hzero _ (Tag.other_mem hy))
  refine ⟨hfits, hdistinct, ?_, hst, hreg.congr hvars hgrown'.nextId, ?_, ?_, ?_, ?_, ?_⟩
  · intro x hx
    exact ⟨hgrown.nextId.trans (hfresh x hx).1, (hfresh x hx).2⟩
  · rw [hvars]
    exact hcov
  · rw [hobj', hobj]
  · split
    · exact hpar'.negated
    · exact hpar'
  · split
    · next hneg =>
      rw [Row.constant_negated]
      linarith
    · next hneg => exact not_lt.1 hneg
  · split
    · refine ⟨-1, .inr rfl, ?_, ?_, ?_⟩
      · intro value hsat
        rw [Row.eval_negated, heval' value hsat]
        ring
      · rw [Row.coefficient_negated, hmarker]
        ring
      · intro y hy
        rw [Row.coefficient_negated, hother y hy]
        ring
    · refine ⟨1, .inl rfl, ?_, ?_, ?_⟩
      · intro value hsat
        rw [heval' value hsat, one_mul]
      · rw [hmarker, one_mul]
      · intro y hy
        rw [hother y hy, one_mul]

section Charted

variable {c : Constraint ℚ} {tag : Tag} (h : s.Charted c row tag t)
include h

theorem Charted.eval_eq_zero_iff (hsat : s.Satisfies value) :
    row.eval value = 0 ↔ Live.Balanced ⟨c, tag⟩ (t.reading value) 0 value := by
  obtain ⟨ε, hε, heval, -, -⟩ := h.equation
  have hne : ε ≠ 0 := by rcases hε with rfl | rfl <;> norm_num
  rw [heval value hsat, mul_eq_zero, or_iff_right hne]
  rfl

theorem Charted.marker_ne_zero : row.coefficient tag.marker ≠ 0 := by
  obtain ⟨ε, hε, -, hm, -⟩ := h.equation
  have hne : ε ≠ 0 := by rcases hε with rfl | rfl <;> norm_num
  rw [hm]
  exact mul_ne_zero hne (Live.sign_ne_zero _)

theorem Charted.not_isBasic (hs : s.Solved) : ∀ x ∈ tag.symbols, ¬t.IsBasic x := by
  intro x hx hb
  have := hs.basic_known x (h.grown.isBasic_iff.1 hb)
  have := (h.fresh x hx).1
  omega

theorem Charted.coefficient_eq_zero (hs : s.Solved) {row₀ : Row ℚ} (hrow₀ : s.HasRow row₀) :
    ∀ x ∈ tag.symbols, row₀.coefficient x = 0 := by
  intro x hx
  by_contra hne
  have := hs.known row₀ x hrow₀ hne
  have := (h.fresh x hx).1
  omega

theorem Charted.parametric_objective (hs : s.Solved) : t.Parametric t.objective := by
  rw [h.objective]
  apply ((hs.parametric .objective).grown h.grown).addErrors
  · intro x hx
    exact h.not_isBasic hs x (List.mem_of_mem_filter hx)
  · intro x hx
    exact (h.fresh x (List.mem_of_mem_filter hx)).2

theorem Charted.solved (hs : s.Solved) : t.Solved :=
  hs.of_objective h.grown.rows h.grown.artificial h.grown.nextId (h.parametric_objective hs)

theorem Charted.closed (hc : s.Closed) : t.Closed := by
  apply hc.of_objective h.grown.rows h.grown.artificial
  intro x hx
  by_cases hmem : x ∈ tag.symbols
  · exact h.fits.kind_ne_external hmem
  · rw [h.objective, Live.coefficient_charge_of_not_mem hmem] at hx
    exact hc _ .objective x hx

theorem Charted.eval_objective (hs : s.Solved) (value : Symbol → ℚ) :
    t.objective.eval value = s.objective.eval value + Live.cost ⟨c, tag⟩ value := by
  rw [h.objective]
  exact Live.eval_charge (hs.normal _ .objective) value

end Charted

/-! ### The symbol that a new row is solved for -/

theorem subject?_eq_some (hn : row.Normal) {tag : Tag} {y : Symbol}
    (h : subject? row tag = some y) :
    row.coefficient y ≠ 0 ∧ (y.kind = .external ∨
      y ∈ tag.symbols ∧ y.isPivotable = true ∧ row.coefficient y < 0 ∧
        row.Within Symbol.IsRestricted) := by
  unfold subject? at h
  split at h
  · next z hz =>
    cases h
    refine ⟨hn.mem_keys_iff.1 (List.mem_of_find?_eq_some hz), .inl ?_⟩
    simpa using List.find?_some hz
  · next hnone =>
    have hp := List.find?_some h
    rw [Bool.and_eq_true, Scalar.isNegative_rat, decide_eq_true_eq] at hp
    refine ⟨hp.2.ne, .inr ⟨List.mem_of_find?_eq_some h, hp.1, hp.2, ?_⟩⟩
    intro x hx
    have := List.find?_eq_none.1 hnone x (hn.mem_keys_iff.2 hx)
    simpa [Symbol.IsRestricted] using this

theorem subject?_eq_none (hn : row.Normal) {tag : Tag} (h : subject? row tag = none) :
    row.Within Symbol.IsRestricted ∧
      ∀ y ∈ tag.symbols, y.isPivotable = true → 0 ≤ row.coefficient y := by
  unfold subject? at h
  split at h
  · cases h
  · next hnone =>
    constructor
    · intro x hx
      have := List.find?_eq_none.1 hnone x (hn.mem_keys_iff.2 hx)
      simpa [Symbol.IsRestricted] using this
    · intro y hy hp
      have := List.find?_eq_none.1 h y hy
      simpa [hp] using this

theorem onlyDummies_iff (hn : row.Normal) :
    row.onlyDummies = true ↔ row.Within Symbol.IsDummy := by
  unfold Row.onlyDummies
  rw [List.all_eq_true]
  constructor
  · intro h x hx
    simpa [Symbol.IsDummy] using h x (hn.mem_keys_iff.2 hx)
  · intro h x hx
    simpa [Symbol.IsDummy] using h x (hn.mem_keys_iff.1 hx)

/-- A constraint that may be violated always brings a symbol to solve its row for. -/
theorem Charted.exists_subject {c : Constraint ℚ} {tag : Tag} (h : s.Charted c row tag t)
    (hsoft : ¬c.IsRequired) : subject? row tag ≠ none := by
  intro hnone
  obtain ⟨-, hpos⟩ := subject?_eq_none h.parametric.normal hnone
  have hsoft : c.strength.isRequired = false := by simpa [Constraint.IsRequired] using hsoft
  obtain ⟨ε, hε, -, hm, ho⟩ := h.equation
  have hkinds : tag.marker.isPivotable = true ∧
      ∃ y, tag.other = some y ∧ y.isPivotable = true := by
    have hfits := h.fits
    unfold Live.Fits at hfits
    dsimp only at hfits
    rw [hsoft] at hfits
    cases hrel : c.relation <;>
      (rw [hrel] at hfits
       obtain ⟨hk, y, hy, hky⟩ := hfits
       exact ⟨by simp [Symbol.isPivotable, hk], y, hy, by simp [Symbol.isPivotable, hky]⟩)
  obtain ⟨hpm, y, hy, hpy⟩ := hkinds
  -- The two symbols have opposite coefficients, so one of them is negative.
  have hm' := hpos _ List.mem_cons_self hpm
  have hy' := hpos y (Tag.other_mem hy) hpy
  rw [hm] at hm'
  rw [ho y hy] at hy'
  have hne : ε * Live.sign ⟨c, tag⟩ ≠ 0 := by
    rw [← hm]
    exact h.marker_ne_zero
  exact hne (by linarith)

end Solver

end ReactiveView
