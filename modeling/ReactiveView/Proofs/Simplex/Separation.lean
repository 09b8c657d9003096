import ReactiveView.Proofs.Simplex.Rejecting

/-!
This module contains that basic and parametric symbols never mix. What a row defines occurs in no row,
not in the objective and not in a pending artificial row, whatever the numbers are and however the
operations end. No pivot rule matters for it: an exchange takes the entering symbol out of every row,
also where its coefficient is zero, too small or no number at all.
-/

namespace ReactiveView

variable {α : Type} {sort sort' free free' : Symbol → Prop} {x y e l : Symbol}

namespace Table

variable {κ β γ : Type} [DecidableEq κ] {t : Table κ β} {k k' : κ}

theorem mem_keys_erase : k' ∈ (t.erase k).keys ↔ k' ∈ t.keys ∧ k' ≠ k := by
  simp only [mem_keys_iff, get?_erase]
  split <;> simp [*]

theorem mem_keys_insert [Ord κ] (a : β) : k' ∈ (t.insert k a).keys ↔ k' ∈ t.keys ∨ k' = k := by
  simp only [mem_keys_iff, get?_insert]
  split <;> simp [*]

omit [DecidableEq κ] in
theorem keys_mapValues (f : β → γ) : (t.mapValues f).keys = t.keys := by
  simp [keys, mapValues, Function.comp_def]

theorem not_mem_keys_iff : k ∉ t.keys ↔ t.get? k = none := by
  rw [mem_keys_iff, Option.eq_none_iff_forall_ne_some, not_exists]

end Table

/-! ### Rows -/

namespace Row

variable {row d : Row α}

theorem over_iff : row.Over sort ↔ ∀ x ∈ row.cells.keys, sort x := by
  simp [Over, Table.keys]

theorem Over.and (h : row.Over sort) (h' : row.Over sort') : row.Over fun x => sort x ∧ sort' x :=
  fun entry hentry => ⟨h entry hentry, h' entry hentry⟩

theorem over_ne_of_get?_eq_none (h : row.cells.get? x = none) : row.Over (· ≠ x) := by
  rw [over_iff]
  rintro y hy rfl
  exact Table.not_mem_keys_iff.2 h hy

theorem over_remove_ne (row : Row α) (x : Symbol) : (row.remove x).Over (· ≠ x) := by
  apply over_ne_of_get?_eq_none
  exact Table.get?_erase_self ..

variable [Scalar α]

theorem over_solvedFor_ne (row : Row α) (x : Symbol) : (row.solvedFor x).Over (· ≠ x) := by
  unfold solvedFor
  split
  · next hnone => exact over_ne_of_get?_eq_none hnone
  · rw [over_iff, Table.keys_mapValues]
    exact over_iff.1 (over_remove_ne row x)

/-- After an exchange the entering symbol is gone, and the leaving one may have come. -/
theorem Over.exchanged_ne (h : row.Over sort) (l e : Symbol) :
    (row.exchanged l e).Over fun x => (sort x ∨ x = l) ∧ x ≠ e := by
  have hboth : (row.addSymbol l (Scalar.ofInt (-1))).Over fun x => sort x ∨ x = l :=
    (h.mono fun _ => .inl).addSymbol (.inr rfl) _
  exact (hboth.solvedFor e).and (over_solvedFor_ne _ e)

/-- After a substitution the symbol is gone. -/
theorem Over.substitute_ne (h : row.Over sort) (hd : d.Over sort')
    (hsort : ∀ x, sort x → x ≠ e → sort' x) : (row.substitute e d).Over sort' := by
  unfold Row.substitute
  split
  · next hnone => exact (h.and (over_ne_of_get?_eq_none hnone)).mono fun x hx => hsort x hx.1 hx.2
  · have hrest : (row.remove e).Over sort' :=
      ((h.remove e).and (over_remove_ne row e)).mono fun x hx => hsort x hx.1 hx.2
    exact hrest.addRow hd _

end Row

namespace Solver

variable {s t u : Solver α} {row d : Row α} {key : Handle} {tag : Tag}

/-! ### Tableaus -/

/-- Rows and objectives are made of symbols of a sort. -/
structure Spans (s : Solver α) (free : Symbol → Prop) : Prop where
  rows : ∀ entry ∈ s.rows.entries, entry.2.Over free
  objective : s.objective.Over free
  artificial : ∀ row, s.artificial = some row → row.Over free

/-- What a row defines occurs nowhere. -/
def Parted (s : Solver α) : Prop := s.Spans (· ∉ s.rows.keys)

theorem Spans.mono (h : s.Spans free) (hfree : ∀ x, free x → free' x) : s.Spans free' where
  rows entry hentry := (h.rows entry hentry).mono hfree
  objective := h.objective.mono hfree
  artificial row hrow := (h.artificial row hrow).mono hfree

theorem Spans.and (h : s.Spans free) (h' : s.Spans free') :
    s.Spans fun x => free x ∧ free' x where
  rows entry hentry := (h.rows entry hentry).and (h'.rows entry hentry)
  objective := h.objective.and h'.objective
  artificial row hrow := (h.artificial row hrow).and (h'.artificial row hrow)

theorem Over.spans (h : s.Over sort) : s.Spans sort :=
  ⟨fun entry hentry => (h.rows entry hentry).2, h.objective, h.artificial⟩

theorem Spans.basic (h : s.Spans free) (hrow : s.rows.get? x = some row) : row.Over free :=
  h.rows _ (Table.mem_of_get? hrow)

theorem Spans.insertRow (h : s.Spans free) (hrow : row.Over free) (x : Symbol) :
    Spans { s with rows := s.rows.insert x row } free where
  rows entry hentry := by
    rcases Table.mem_insertEntry hentry with rfl | hentry
    · exact hrow
    · exact h.rows entry hentry
  objective := h.objective
  artificial := h.artificial

theorem Spans.eraseRow (h : s.Spans free) (x : Symbol) :
    Spans { s with rows := s.rows.erase x } free where
  rows entry hentry := h.rows entry (Table.mem_entries_erase hentry)
  objective := h.objective
  artificial := h.artificial

theorem Parted.congr (h : s.Parted) (hrows : t.rows = s.rows) (hobjective : t.objective = s.objective)
    (hartificial : t.artificial = s.artificial) : t.Parted := by
  unfold Parted
  rw [hrows]
  refine ⟨?_, ?_, ?_⟩
  · rw [hrows]
    exact h.rows
  · rw [hobjective]
    exact h.objective
  · rw [hartificial]
    exact h.artificial

theorem Parted.eraseRow (h : s.Parted) (x : Symbol) :
    Parted { s with rows := s.rows.erase x } := by
  apply (Spans.eraseRow h x).mono
  intro y hy hmem
  exact hy (Table.mem_keys_erase.1 hmem).1

theorem Parted.idle (h : s.Parted) : Parted { s with artificial := none } :=
  ⟨h.rows, h.objective, nofun⟩

theorem Parted.dropSymbol (h : s.Parted) (x : Symbol) :
    Parted { s with
      rows := s.rows.mapValues fun row => row.remove x
      objective := s.objective.remove x } := by
  unfold Parted
  rw [Table.keys_mapValues]
  refine ⟨fun entry hentry => ?_, h.objective.remove x, h.artificial⟩
  obtain ⟨row, hmem, heq⟩ := Table.mem_entries_mapValues hentry
  rw [heq]
  exact (h.rows _ hmem).remove x

variable [Scalar α]

theorem Spans.substitute (h : s.Spans free) (hd : d.Over free')
    (hfree : ∀ x, free x → x ≠ e → free' x) : (s.substitute e d).Spans free' where
  rows entry hentry := by
    obtain ⟨row, hmem, heq⟩ := Table.mem_entries_mapValues hentry
    rw [heq]
    exact (h.rows _ hmem).substitute_ne hd hfree
  objective := h.objective.substitute_ne hd hfree
  artificial row hrow := by
    obtain ⟨row₀, hrow₀, rfl⟩ := Option.map_eq_some_iff.1 hrow
    exact (h.artificial row₀ hrow₀).substitute_ne hd hfree

theorem keys_substitute (s : Solver α) (e : Symbol) (d : Row α) :
    (s.substitute e d).rows.keys = s.rows.keys :=
  Table.keys_mapValues _

/-- The row of `l` goes, and `e` is replaced by what that row says of it. -/
theorem Parted.withdraw (h : s.Parted) (hrow : row.Over (· ∉ s.rows.keys)) (l e : Symbol) :
    ({ s with rows := s.rows.erase l }.substitute e (row.exchanged l e)).Spans
      fun x => (x ∉ s.rows.keys ∨ x = l) ∧ x ≠ e :=
  (Spans.eraseRow h l).substitute (hrow.exchanged_ne l e) fun _ hx hne => ⟨.inl hx, hne⟩

/-- Whatever symbols a pivot exchanges. -/
theorem Parted.pivot (h : s.Parted) (hrow : row.Over (· ∉ s.rows.keys)) (l e : Symbol) :
    (s.pivot l e row).Parted := by
  apply ((h.withdraw hrow l e).insertRow (hrow.exchanged_ne l e) e).mono
  rintro x ⟨hx, hne⟩ hmem
  unfold Solver.pivot at hmem
  rw [Table.mem_keys_insert, keys_substitute, Table.mem_keys_erase] at hmem
  rcases hmem with ⟨hmem, hl⟩ | rfl
  · exact hx.elim (fun hx => hx hmem) hl
  · exact hne rfl

/-- A row that says what `e` is comes in. -/
theorem Parted.define (h : s.Parted) (hrow : row.Over (· ∉ s.rows.keys)) (e : Symbol) :
    Parted { s.substitute e (row.solvedFor e) with
      rows := (s.substitute e (row.solvedFor e)).rows.insert e (row.solvedFor e) } := by
  have hd : (row.solvedFor e).Over fun x => x ∉ s.rows.keys ∧ x ≠ e :=
    (hrow.solvedFor e).and (Row.over_solvedFor_ne row e)
  apply ((Spans.substitute h hd fun _ hx hne => ⟨hx, hne⟩).insertRow hd e).mono
  intro x hx hmem
  rw [Table.mem_keys_insert, keys_substitute] at hmem
  exact hmem.elim hx.1 hx.2

/-! ### Pivot loops -/

/-- An operation keeps basic and parametric symbols apart, also where it fails. -/
def KeepsParted {β : Type} (x : Solving α β) : Prop :=
  Through (fun s t : Solver α => s.Parted → t.Parted) x.run

theorem parted_minimiseFor (goal : Goal) (n : Nat) :
    KeepsParted (minimiseFor goal n : Solving α Unit) := by
  induction n with
  | zero => exact fun s => leads_run_throw.2 id
  | succ n ih =>
    intro s
    unfold minimiseFor
    refine leads_run_get_bind.2 ?_
    split
    · exact leads_run_pure.2 id
    · next entering _ =>
      split
      · exact leads_run_throw.2 id
      · next leaving _ =>
        split
        · exact leads_run_throw.2 id
        · next row hrow =>
          refine leads_run_set_bind.2 ((ih _).mono fun _ _ ht hs => ht ?_)
          exact hs.pivot (Spans.basic hs hrow) leaving entering

theorem parted_minimise (goal : Goal) : KeepsParted (minimise goal : Solving α Unit) :=
  fun s => leads_run_get_bind.2 (parted_minimiseFor goal _ s)

theorem parted_mendFor (n : Nat) : KeepsParted (mendFor n : Solving α Unit) := by
  induction n with
  | zero => exact fun s => leads_run_throw.2 id
  | succ n ih =>
    intro s
    unfold mendFor
    refine leads_run_get_bind.2 ?_
    split
    · exact leads_run_pure.2 id
    · next leaving rest _ =>
      have hrest : Leads (mendFor n).run { s with infeasible := rest } fun _ t =>
          s.Parted → t.Parted := (ih _).mono fun _ _ ht hs => ht (hs.congr rfl rfl rfl)
      refine leads_run_set_bind.2 ?_
      split
      · exact hrest
      · next row hrow =>
        split
        · split
          · exact leads_run_throw.2 fun hs => hs.congr rfl rfl rfl
          · next entering _ =>
            refine leads_run_set_bind.2 ((ih _).mono fun _ _ ht hs => ht ?_)
            have hs' : Parted { s with infeasible := rest } := hs.congr rfl rfl rfl
            exact hs'.pivot (Spans.basic hs' hrow) leaving entering
        · exact hrest

theorem parted_mend : KeepsParted (mend : Solving α Unit) :=
  fun s => leads_run_get_bind.2 (parted_mendFor _ s)

/-! ### Names -/

omit [Scalar α] in
/-- A symbol that is yet to be issued has no row. -/
theorem Stocks.not_mem_keys (h : s.Stocks sort) (hx : s.nextId ≤ x.id) : x ∉ s.rows.keys := by
  intro hmem
  obtain ⟨row, hrow⟩ := Table.mem_keys_iff.1 hmem
  exact Nat.not_lt.2 hx (h.known x (h.symbols.basic hrow).1)

/-- Each variable has a symbol of its own, and one that may have any sign. -/
structure Enrolled (s : Solver α) : Prop where
  external : ∀ x y, s.vars.get? x = some y → y.kind = .external
  injective : ∀ x x' y, s.vars.get? x = some y → s.vars.get? x' = some y → x = x'

omit [Scalar α] in
theorem Enrolled.congr (h : s.Enrolled) (hvars : t.vars = s.vars) : t.Enrolled := by
  constructor
  · rw [hvars]
    exact h.external
  · rw [hvars]
    exact h.injective

omit [Scalar α] in
theorem Enrolled.symbolOf (h : s.Enrolled) (hs : s.Stocks sort) (x : Variable) :
    (s.symbolOf x).2.Enrolled := by
  unfold Solver.symbolOf
  split
  · exact h
  · refine ⟨fun x₁ y hy => ?_, fun x₁ x₂ y hy hy' => ?_⟩
    · rcases Table.of_get?_insert hy with ⟨-, rfl⟩ | hy
      · rfl
      · exact h.external x₁ y hy
    · -- The new symbol is nobody else's.
      have hnew {x₃ : Variable} (hold : s.vars.get? x₃ = some ⟨s.nextId, .external⟩) : False :=
        absurd (hs.known _ (hs.symbols.vars _ _ hold)) (Nat.lt_irrefl _)
      rcases Table.of_get?_insert hy with ⟨rfl, rfl⟩ | hold
      · rcases Table.of_get?_insert hy' with ⟨rfl, -⟩ | hold'
        · rfl
        · exact (hnew hold').elim
      · rcases Table.of_get?_insert hy' with ⟨rfl, rfl⟩ | hold'
        · exact (hnew hold).elim
        · exact h.injective x₁ x₂ y hold hold'

/-! ### New rows -/

/-- A row is put together from parametric symbols, those of new variables included. -/
theorem Parted.addTerms (h : s.Parted) (hs : s.Stocks sort) (hn : s.Enrolled)
    (hrow : row.Over (· ∉ s.rows.keys)) (ts : List (LinearTerm α)) :
    (s.addTerms row ts).1.Over (· ∉ s.rows.keys) ∧ (s.addTerms row ts).2.Enrolled ∧
      (s.addTerms row ts).2.objective = s.objective := by
  induction ts generalizing s sort row with
  | nil => exact ⟨hrow, hn, rfl⟩
  | cons term rest ih =>
    unfold Solver.addTerms
    split
    · exact ih h hs hn hrow
    · obtain ⟨sort', hsymbol, -⟩ := hs.symbolOf term.unknown
      have hobjective := objective_symbolOf s term.unknown
      have hparted := h.congr hsymbol.rows hobjective hsymbol.artificial
      have hrows := hsymbol.rows
      rw [← hrows] at hrow ⊢
      dsimp only
      rw [← hobjective]
      refine ih hparted hsymbol.stocks (hn.symbolOf hs term.unknown) ?_
      split
      · next basic hbasic => exact hrow.addRow (Spans.basic hparted hbasic) _
      · next hnone => exact hrow.addSymbol (Table.not_mem_keys_iff.2 hnone) _

/-- The symbols of a constraint are new. -/
theorem Parted.bring (h : s.Parted) (hs : s.Stocks sort) (hrow : row.Over (· ∉ s.rows.keys))
    (c : Constraint α) :
    (s.bring c row).1.Over (· ∉ s.rows.keys) ∧ (s.bring c row).2.2.vars = s.vars ∧
      (s.bring c row).2.2.objective.Over (· ∉ s.rows.keys) := by
  have hfirst (kind : SymbolKind) : (s.newSymbol kind).1 ∉ s.rows.keys :=
    hs.not_mem_keys (Nat.le_refl _)
  have hsecond (kind kind' : SymbolKind) : ((s.newSymbol kind).2.newSymbol kind').1 ∉ s.rows.keys :=
    hs.not_mem_keys (Nat.le_succ _)
  unfold Solver.bring
  split
  · split
    · exact ⟨hrow.addSymbol (hfirst _) _, rfl, h.objective⟩
    · exact ⟨(hrow.addSymbol (hfirst _) _).addSymbol (hsecond _ _) _, rfl,
        (h.objective.addSymbol (hfirst .error) _).addSymbol (hsecond .error .error) _⟩
  · dsimp only
    split
    · exact ⟨hrow.addSymbol (hfirst _) _, rfl, h.objective⟩
    · exact ⟨(hrow.addSymbol (hfirst _) _).addSymbol (hsecond _ _) _, rfl,
        h.objective.addSymbol (hsecond .slack .error) _⟩

theorem Parted.rowOf (h : s.Parted) (hs : s.Stocks sort) (hn : s.Enrolled) (c : Constraint α) :
    (s.rowOf c).1.Over (· ∉ s.rows.keys) ∧ (s.rowOf c).2.2.Enrolled ∧
      (s.rowOf c).2.2.objective.Over (· ∉ s.rows.keys) := by
  obtain ⟨sort', hterms, -⟩ := hs.addTerms (Row.over_ofConstant c.expr.constant) c.expr.terms
  obtain ⟨hrow, hn', hobjective⟩ :=
    h.addTerms hs hn (Row.over_ofConstant c.expr.constant) c.expr.terms
  have hparted := h.congr hterms.rows hobjective hterms.artificial
  have hrows := hterms.rows
  rw [← hrows] at hrow ⊢
  obtain ⟨hover, hvars, hcharged⟩ := hparted.bring hterms.stocks hrow c
  refine ⟨?_, hn'.congr hvars, hcharged⟩
  unfold Solver.rowOf
  dsimp only
  split
  · exact hover.negated
  · exact hover

omit [Scalar α] in
theorem Parted.of_enriches {sort' : Symbol → Prop} (h : s.Parted) (hgrown : s.Enriches sort t sort')
    (hobjective : t.objective.Over (· ∉ t.rows.keys)) : t.Parted := by
  unfold Parted
  refine ⟨?_, hobjective, ?_⟩
  · rw [hgrown.rows]
    exact h.rows
  · rw [hgrown.rows, hgrown.artificial]
    exact h.artificial

/-! ### The artificial phase -/

omit [Scalar α] in
/-- The artificial symbol is a new one, so that nothing is made of it yet. -/
theorem Parted.stage (h : s.Parted) (hs : s.Stocks sort) (hrow : row.Over (· ∉ s.rows.keys))
    (hover : row.Over sort) :
    Parted { (s.newSymbol .slack).2 with
      rows := s.rows.insert (s.newSymbol .slack).1 row
      artificial := some row } := by
  have hapart : ∀ x, x ∉ s.rows.keys ∧ sort x →
      x ∉ (s.rows.insert (s.newSymbol .slack).1 row).keys := by
    rintro x ⟨hx, hsort⟩ hmem
    rcases (Table.mem_keys_insert row).1 hmem with hmem | rfl
    · exact hx hmem
    · exact Nat.lt_irrefl _ (hs.known _ hsort)
  have hboth := (Spans.and h hs.symbols.spans).mono hapart
  have hrow' := (hrow.and hover).mono hapart
  refine ⟨fun entry hentry => ?_, hboth.objective, ?_⟩
  · rcases Table.mem_insertEntry hentry with rfl | hentry
    · exact hrow'
    · exact hboth.rows entry hentry
  · rintro _ ⟨⟩
    exact hrow'

theorem leads_addArtificial_parted (h : s.Parted) (hs : s.Stocks sort)
    (hrow : row.Over (· ∉ s.rows.keys)) (hover : row.Over sort) :
    Leads (addArtificial row).run s fun _ t => t.Parted := by
  have hstart := h.stage hs hrow hover
  have hdrop (b : Bool) {v : Solver α} (hv : v.Parted) :
      Leads (addArtificial.dropSymbol (s.newSymbol .slack).1 >>= fun _ => pure b).run v
        fun _ t => t.Parted :=
    leads_run_modify_bind.2 (leads_run_pure.2 (hv.dropSymbol _))
  unfold addArtificial
  refine leads_run_get_bind.2 (leads_run_set_bind.2 ?_)
  refine (parted_minimise .artificial _).run_bind (fun _ u hu => ?_) fun e u hu => hu hstart
  have hu := (hu hstart).idle
  refine leads_run_get_bind.2 (leads_run_set_bind.2 ?_)
  split
  · exact hdrop _ (hu.eraseRow _)
  · next row' hrow' =>
    split
    · exact leads_run_pure.2 (hu.eraseRow _)
    · split
      · exact leads_run_pure.2 (hu.eraseRow _)
      · next entering _ =>
        exact leads_run_modify_bind.2 (hdrop _ (hu.pivot (Spans.basic hu hrow') _ entering))

/-! ### Operations -/

/-- Basic and parametric symbols are apart, all symbols have been issued, and each variable has one of
its own. -/
structure Divided (s : Solver α) : Prop where
  coherent : s.Coherent
  parted : s.Parted
  enrolled : s.Enrolled

omit [Scalar α] in
theorem Divided.of_parted (h : s.Divided) (hcoherent : t.Coherent) (hparted : t.Parted)
    (hvars : t.vars = s.vars) : t.Divided :=
  ⟨hcoherent, hparted, h.enrolled.congr hvars⟩

/-- An operation keeps a system divided, also where it fails. -/
def KeepsDivided {β : Type} (x : Solving α β) : Prop :=
  Through (fun s t : Solver α => s.Divided → t.Divided) x.run

omit [Scalar α] in
theorem Divided.congr_modes (h : s.Divided) (autoSolve dirty : Bool) :
    Divided { s with autoSolve, dirty } :=
  h.of_parted (h.coherent.congr_modes autoSolve dirty) (h.parted.congr rfl rfl rfl) rfl

omit [Scalar α] in
theorem Divided.congr_edits (h : s.Divided) (edits : Table Variable (Edit α)) :
    Divided { s with edits } :=
  h.of_parted (h.coherent.congr_edits edits) (h.parted.congr rfl rfl rfl) rfl

theorem divided_minimise (goal : Goal) : KeepsDivided (minimise goal : Solving α Unit) := fun s =>
  ((reworks_minimise goal s).and (parted_minimise goal s)).mono fun _ _ ht hs =>
    hs.of_parted (ht.1.coherent hs.coherent) (ht.2 hs.parted) ht.1.vars

theorem divided_solve : KeepsDivided (solve : Solving α Unit) := by
  intro s
  refine leads_run_get_bind.2 ?_
  split
  · exact (divided_minimise .main s).run_bind
      (fun _ _ ht => leads_run_modify.2 fun hs => (ht hs).congr_modes _ _) fun _ _ => id
  · exact leads_run_pure.2 id

theorem divided_setAutoSolve (enabled : Bool) :
    KeepsDivided (setAutoSolve enabled : Solving α Unit) := by
  intro s
  refine leads_run_modify_bind.2 ?_
  split
  · exact (divided_solve _).mono fun _ _ ht hs => ht (hs.congr_modes _ _)
  · exact leads_run_pure.2 fun hs => hs.congr_modes _ _

omit [Scalar α] in
/-- Where the coherence of the symbols in use is known, it is left to see that they are apart. -/
theorem divided_of_coherent {β : Type} {x : Solving α β} (hcoherent : KeepsCoherent x)
    (h : ∀ s : Solver α, s.Divided → Leads x.run s fun _ t => t.Parted ∧ t.Enrolled) :
    KeepsDivided x := by
  intro s hs
  obtain ⟨hparted, henrolled⟩ := h s hs
  exact ⟨hcoherent s hs.coherent, hparted, henrolled⟩

theorem leads_followUp_parted (hparted : u.Parted) (henrolled : u.Enrolled) :
    Leads followUp.run u fun _ t => t.Parted ∧ t.Enrolled := by
  refine leads_run_get_bind.2 ?_
  split
  · exact ((reworks_minimise .main u).and (parted_minimise .main u)).mono fun _ _ ht =>
      ⟨ht.2 hparted, henrolled.congr ht.1.vars⟩
  · exact leads_run_modify.2 ⟨hparted.congr rfl rfl rfl, henrolled.congr rfl⟩

theorem divided_addAs (key : Handle) (c : Constraint α) :
    KeepsDivided (addAs key c : Solving α Unit) := by
  refine divided_of_coherent (coherent_addAs key c) fun s hs => ?_
  obtain ⟨sort, hsort⟩ := hs.coherent
  unfold Solver.addAs
  refine leads_run_get_bind.2 ?_
  split
  · exact leads_run_throw_bind.2 ⟨hs.parted, hs.enrolled⟩
  · refine leads_run_get_bind.2 ?_
    obtain ⟨sort', hgrown, hover, -⟩ := hsort.rowOf c
    have hrowOf := hs.parted.rowOf hsort hs.enrolled c
    rcases hrow : s.rowOf c with ⟨row, tag, v⟩
    rw [hrow] at hgrown hover hrowOf
    obtain ⟨hfree, henrolled, hcharged⟩ := hrowOf
    have hgrown : s.Enriches sort v sort' := hgrown
    rw [← hgrown.rows] at hfree hcharged
    have hparted := hs.parted.of_enriches hgrown hcharged
    have henlist {w : Solver α} (hw : w.Parted) (hvars : w.vars = v.vars) :
        Leads (modify (fun s => { s with live := s.live.insert key ⟨c, tag⟩ }) >>= fun _ =>
          followUp : Solving α Unit).run w fun _ t => t.Parted ∧ t.Enrolled :=
      leads_run_modify_bind.2 (leads_followUp_parted (hw.congr rfl rfl rfl) (henrolled.congr hvars))
    refine leads_run_set_bind.2 ?_
    dsimp only
    split
    · refine leads_run_set_bind.2 (leads_run_throw_bind.2 ⟨?_, henrolled.congr rfl⟩)
      exact hs.parted.congr hgrown.rows rfl hgrown.artificial
    · split
      · next subject _ =>
        exact leads_run_set_bind.2 (henlist (hparted.define hfree subject) rfl)
      · refine ((leads_addArtificial_tries hgrown.stocks hover).and
          (leads_addArtificial_parted hparted hgrown.stocks hfree hover)).run_bind
          (fun success w hw => ?_) fun e w hw => ⟨hw.2, henrolled.congr hw.1.vars⟩
        obtain ⟨htries, hw⟩ := hw
        split
        · -- The rows and the objective of before are put back, and no artificial row remains.
          refine leads_run_modify_bind.2 (leads_run_throw_bind.2 ⟨?_, henrolled.congr htries.vars⟩)
          refine Parted.congr hs.parted.idle hgrown.rows rfl ?_
          exact htries.idle _ rfl
        · exact henlist hw htries.vars

theorem rows_discharge (s : Solver α) (c : Constraint α) (tag : Tag) :
    (s.discharge c tag).rows = s.rows ∧ (s.discharge c tag).vars = s.vars := by
  unfold Solver.discharge
  refine List.foldlRecOn tag.symbols _
    (motive := fun u : Solver α => u.rows = s.rows ∧ u.vars = s.vars) ⟨rfl, rfl⟩ ?_
  intro u hu marker _
  split
  · exact hu
  · exact hu

/-- What a constraint is taken out of the objective by is parametric, or replaced by its row. -/
theorem Parted.discharge (h : s.Parted) (c : Constraint α) (tag : Tag) :
    (s.discharge c tag).Parted := by
  unfold Solver.discharge
  refine List.foldlRecOn tag.symbols _ (motive := fun u : Solver α => u.Parted) h ?_
  intro u hu marker _
  have hu : u.Parted := hu
  split
  · exact hu
  · refine ⟨hu.rows, ?_, hu.artificial⟩
    split
    · next row hrow => exact hu.objective.addRow (Spans.basic hu hrow) _
    · next hnone => exact hu.objective.addSymbol (Table.not_mem_keys_iff.2 hnone) _

theorem divided_removeAs (key : Handle) : KeepsDivided (removeAs key : Solving α Unit) := by
  refine divided_of_coherent (coherent_removeAs key) fun s hs => ?_
  unfold Solver.removeAs
  refine leads_run_get_bind.2 ?_
  split
  · exact leads_run_throw.2 ⟨hs.parted, hs.enrolled⟩
  · next c tag _ =>
    have hparted := Parted.discharge (s := { s with live := s.live.erase key })
      (hs.parted.congr rfl rfl rfl) c tag
    have hvars := (rows_discharge { s with live := s.live.erase key } c tag).2
    generalize ({ s with live := s.live.erase key }.discharge c tag) = u at hparted hvars
    have henrolled : u.Enrolled := hs.enrolled.congr hvars
    refine leads_run_set_bind.2 ?_
    split
    · exact leads_run_set_bind.2
        (leads_followUp_parted (hparted.eraseRow tag.marker) (henrolled.congr rfl))
    · split
      · exact leads_run_throw_bind.2 ⟨hparted, henrolled⟩
      · next leaving _ =>
        split
        · exact leads_run_throw_bind.2 ⟨hparted, henrolled⟩
        · next row hrow =>
          refine leads_run_set_bind.2 (leads_followUp_parted ?_ (henrolled.congr rfl))
          apply (hparted.withdraw (Spans.basic hparted hrow) leaving tag.marker).mono
          rintro x ⟨hx, -⟩ hmem
          rw [keys_substitute, Table.mem_keys_erase] at hmem
          exact hx.elim (fun hx => hx hmem.1) hmem.2

theorem divided_addEdit (x : Variable) (strength : Strength α) :
    KeepsDivided (addEdit x strength : Solving α Unit) := by
  intro s
  unfold Solver.addEdit
  refine leads_run_get_bind.2 ?_
  split
  · exact leads_run_throw_bind.2 id
  · dsimp only
    split
    · exact leads_run_throw_bind.2 id
    · refine leads_run_get_bind.2 ((divided_addAs _ _ s).run_bind (fun _ t ht => ?_) fun _ _ => id)
      refine leads_run_get_bind.2 ?_
      split
      · exact leads_run_throw.2 ht
      · exact leads_run_modify.2 fun hs => (ht hs).congr_edits _

theorem divided_removeEdit (x : Variable) : KeepsDivided (removeEdit x : Solving α Unit) := by
  intro s
  unfold Solver.removeEdit
  refine leads_run_get_bind.2 ?_
  split
  · exact leads_run_throw.2 id
  · next edit _ =>
    refine leads_run_modify_bind.2 ?_
    exact (divided_removeAs edit.handle _).mono fun _ _ ht hs => ht (hs.congr_edits _)

/-- A shift leaves alone what rows define and what they are made of. -/
theorem Parted.shift (h : s.Parted) (tag : Tag) (delta : α) : (s.shift tag delta).Parted := by
  have hinsert {u : Solver α} (hu : u.Spans (· ∉ s.rows.keys)) (hkeys : u.rows.keys ⊆ s.rows.keys)
      (entry : Symbol × Row α) (hentry : entry ∈ s.rows.entries) (v : α) (infeasible : List Symbol) :
      Spans { u with rows := u.rows.insert entry.1 (entry.2.add v), infeasible }
          (· ∉ s.rows.keys) ∧
        (u.rows.insert entry.1 (entry.2.add v)).keys ⊆ s.rows.keys := by
    have hrow : (entry.2.add v).Over (· ∉ s.rows.keys) := h.rows entry hentry
    have hspans := hu.insertRow hrow entry.1
    refine ⟨⟨hspans.rows, hspans.objective, hspans.artificial⟩, fun x hx => ?_⟩
    rcases (Table.mem_keys_insert _).1 hx with hx | rfl
    · exact hkeys hx
    · exact List.mem_map_of_mem hentry
  have hends {u : Solver α} (hu : u.Spans (· ∉ s.rows.keys) ∧ u.rows.keys ⊆ s.rows.keys) :
      u.Parted := hu.1.mono fun x hx hmem => hx (hu.2 hmem)
  have hself : s.rows.keys ⊆ s.rows.keys := fun _ => id
  unfold Solver.shift
  split
  · next row hrow => exact hends (hinsert h hself (_, row) (Table.mem_of_get? hrow) _ _)
  · split
    · next other row hrow =>
      obtain ⟨y, -, hy⟩ := Option.bind_eq_some_iff.1 hrow
      obtain ⟨row', hrow', heq⟩ := Option.map_eq_some_iff.1 hy
      cases heq
      exact hends (hinsert h hself (_, row) (Table.mem_of_get? hrow') _ _)
    · unfold Solver.shiftAll
      refine hends (List.foldlRecOn s.rows.entries _ (motive := fun u : Solver α =>
        u.Spans (· ∉ s.rows.keys) ∧ u.rows.keys ⊆ s.rows.keys) ⟨h, hself⟩ ?_)
      intro u hu entry hmem
      dsimp only
      split
      · exact hu
      · exact hinsert hu.1 hu.2 entry hmem _ _

theorem divided_suggest (x : Variable) (v : α) : KeepsDivided (suggest x v : Solving α Unit) := by
  refine divided_of_coherent (coherent_suggest x v) fun s hs => ?_
  refine (divided_solve s).run_bind (fun _ t ht => ?_) fun _ t ht => ⟨(ht hs).parted, (ht hs).enrolled⟩
  have ht := ht hs
  refine leads_run_get_bind.2 ?_
  split
  · exact leads_run_throw.2 ⟨ht.parted, ht.enrolled⟩
  · next edit _ =>
    have hparted := Parted.shift (s := { t with edits := t.edits.insert x { edit with target := v } })
      (ht.parted.congr rfl rfl rfl) edit.tag (v - edit.target)
    have hvars := (reworks_shift { t with edits := t.edits.insert x { edit with target := v } }
      edit.tag (v - edit.target)).vars
    refine leads_run_set_bind.2 (((reworks_mend _).and (parted_mend _)).mono fun _ u hu => ?_)
    exact ⟨hu.2 hparted, ht.enrolled.congr (hu.1.vars.trans hvars)⟩

theorem divided_new : (Solver.new : Solver α).Divided :=
  ⟨coherent_new, ⟨nofun, nofun, nofun⟩, nofun, nofun⟩

theorem divided_operation {operation : Solving α Unit} (h : Operation operation) :
    KeepsDivided operation := by
  cases h with
  | add c => exact divided_addAs _ c
  | remove c => exact divided_removeAs _
  | addEdit x strength => exact divided_addEdit x strength
  | removeEdit x => exact divided_removeEdit x
  | suggest x v => exact divided_suggest x v
  | setAutoSolve enabled => exact divided_setAutoSolve enabled
  | solve => exact divided_solve

/-! ### Runs -/

/-- The systems that operations lead to, whatever they answer. -/
inductive Driven : Solver α → Prop
  | new : Driven Solver.new
  | step {s : Solver α} {operation : Solving α Unit} (h : Driven s)
      (hoperation : Operation operation) : Driven (s.perform operation).2

theorem Driven.divided (h : Driven s) : s.Divided := by
  induction h with
  | new => exact divided_new
  | step _ hoperation ih => exact divided_operation hoperation _ ih

/-- Symbols are never mixed up: what a row defines is no cell of a row, of the objective or of a pending
artificial row; each variable has an external symbol of its own; and all symbols have been issued. -/
structure Separated (s : Solver α) : Prop where
  rows : ∀ x ∈ s.rows.keys, ∀ entry ∈ s.rows.entries, x ∉ entry.2.cells.keys
  objective : ∀ x ∈ s.rows.keys, x ∉ s.objective.cells.keys
  artificial : ∀ x ∈ s.rows.keys, ∀ row, s.artificial = some row → x ∉ row.cells.keys
  external : ∀ x y, s.vars.get? x = some y → y.kind = .external
  injective : ∀ x x' y, s.vars.get? x = some y → s.vars.get? x' = some y → x = x'
  issued : s.Over fun x => x.id < s.nextId

/-- Basic and parametric symbols never mix, whatever numbers a system is solved over and however its
operations end. -/
theorem Driven.separated (h : Driven s) : s.Separated := by
  obtain ⟨⟨sort, hsort⟩, hparted, henrolled⟩ := h.divided
  refine ⟨fun x hx entry hentry hmem => ?_, fun x hx hmem => ?_, fun x hx row hrow hmem => ?_,
    henrolled.external, henrolled.injective, hsort.symbols.mono hsort.known⟩
  · exact Row.over_iff.1 (hparted.rows entry hentry) x hmem hx
  · exact Row.over_iff.1 hparted.objective x hmem hx
  · exact Row.over_iff.1 (hparted.artificial row hrow) x hmem hx

theorem Reached.driven (h : Reached s) : Driven s := by
  induction h with
  | new => exact .new
  | step _ hoperation hrun _ ih =>
    have hdriven := ih.step hoperation
    rw [hrun] at hdriven
    exact hdriven

/-- A constraint that is refused after pivots of the artificial phase has issued a symbol, and leaves
nothing mixed up. -/
theorem Driven.separated_refused :
    ∃ s t : Solver ℚ, Driven s ∧ s.perform (add contradiction) = (.error .unsatisfiable, t) ∧
      s.nextId < t.nextId ∧ t.rows.entries ≠ [] ∧ t.Separated := by
  have hserved : (served pendingRequests).map (fun s => (s.nextId,
      decide ((s.perform (add contradiction)).1 = .error .unsatisfiable),
      (s.perform (add contradiction)).2.nextId,
      (s.perform (add contradiction)).2.rows.entries.length)) = some (6, true, 8, 2) := by
    decide +kernel
  obtain ⟨s, hs, hvalue⟩ := Option.map_eq_some_iff.1 hserved
  have hruns : Runs Anything pendingRequests s := runs_of_served (fun _ _ _ => trivial) hs
  have hdriven : Driven s := hruns.reached.driven
  simp only [Prod.mk.injEq, decide_eq_true_eq] at hvalue
  obtain ⟨hnext, hanswer, hnext', hlength⟩ := hvalue
  refine ⟨s, _, hdriven, by rw [← hanswer], by omega, ?_, (hdriven.step (.add _)).separated⟩
  rw [← List.length_pos_iff, hlength]
  exact Nat.two_pos

end Solver

end ReactiveView
