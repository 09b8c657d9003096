import ReactiveView.Proofs.Simplex.Listing

/-!
This module contains which symbols a system uses, whatever its numbers are. Every symbol of the
tableau, of a variable or of a live constraint has been issued by the system, each under a number of
its own. Every operation keeps this, also one that fails or breaks down.
-/

namespace ReactiveView

variable {α : Type} {sort sort' : Symbol → Prop} {x y e l : Symbol} {c : α}

namespace Table

variable {κ β : Type}

theorem mem_entries_erase [DecidableEq κ] {k : κ} {entry : κ × β} {t : Table κ β} (h : entry ∈ (t.erase k).entries) :
    entry ∈ t.entries :=
  List.mem_of_mem_filter h

theorem mem_entries_mapValues {γ : Type} {f : β → γ} {t : Table κ β} {entry : κ × γ}
    (h : entry ∈ (t.mapValues f).entries) :
    ∃ b, (entry.1, b) ∈ t.entries ∧ entry.2 = f b := by
  obtain ⟨⟨k, b⟩, hmem, rfl⟩ := List.mem_map.1 h
  exact ⟨b, hmem, rfl⟩

end Table

/-! ### Rows -/

/-- Every symbol of a row is of a sort. -/
def Row.Over (row : Row α) (sort : Symbol → Prop) : Prop :=
  ∀ entry ∈ row.cells.entries, sort entry.1

namespace Row

variable {row d : Row α}

theorem Over.mono (h : row.Over sort) (hsort : ∀ x, sort x → sort' x) : row.Over sort' :=
  fun entry hentry => hsort _ (h entry hentry)

theorem over_ofConstant [Scalar α] (c : α) : (ofConstant c : Row α).Over sort := nofun

theorem Over.remove (h : row.Over sort) (x : Symbol) : (row.remove x).Over sort :=
  fun entry hentry => h entry (Table.mem_entries_erase hentry)

variable [Scalar α]

theorem Over.addSymbol (h : row.Over sort) (hx : sort x) (c : α) :
    (row.addSymbol x c).Over sort := by
  unfold Row.addSymbol
  dsimp only
  split
  · exact h.remove x
  · intro entry hentry
    rcases Table.mem_insertEntry hentry with rfl | hentry
    · exact hx
    · exact h entry hentry

theorem Over.addRow (h : row.Over sort) (hd : d.Over sort) (c : α) : (row.addRow d c).Over sort := by
  unfold Row.addRow
  refine List.foldlRecOn d.cells.entries _ (motive := fun row : Row α => row.Over sort) h ?_
  intro row hrow entry hentry
  exact Over.addSymbol hrow (hd entry hentry) _

theorem Over.negated (h : row.Over sort) : row.negated.Over sort := by
  intro entry hentry
  obtain ⟨b, hb, -⟩ := Table.mem_entries_mapValues hentry
  exact h (entry.1, b) hb

theorem Over.solvedFor (h : row.Over sort) (x : Symbol) : (row.solvedFor x).Over sort := by
  unfold Row.solvedFor
  split
  · exact h
  · intro entry hentry
    obtain ⟨b, hb, -⟩ := Table.mem_entries_mapValues hentry
    exact h (entry.1, b) (Table.mem_entries_erase hb)

theorem Over.exchanged (h : row.Over sort) (hl : sort l) (e : Symbol) :
    (row.exchanged l e).Over sort :=
  (h.addSymbol hl _).solvedFor e

theorem Over.substitute (h : row.Over sort) (hd : d.Over sort) (e : Symbol) :
    (row.substitute e d).Over sort := by
  unfold Row.substitute
  split
  · exact h
  · exact (h.remove e).addRow hd _

end Row

namespace Solver

/-! ### Tableaus -/

/-- Every symbol that a system uses is of a sort. -/
structure Over (s : Solver α) (sort : Symbol → Prop) : Prop where
  rows : ∀ entry ∈ s.rows.entries, sort entry.1 ∧ entry.2.Over sort
  objective : s.objective.Over sort
  artificial : ∀ row, s.artificial = some row → row.Over sort
  vars : ∀ x y, s.vars.get? x = some y → sort y
  tags : ∀ key lv, s.live.get? key = some lv → ∀ y ∈ lv.tag.symbols, sort y

variable {s t u : Solver α} {row d : Row α} {key : Handle} {lv : Live α} {tag : Tag}

theorem Over.mono (h : s.Over sort) (hsort : ∀ x, sort x → sort' x) : s.Over sort' where
  rows entry hentry := (h.rows entry hentry).imp (hsort _) (·.mono hsort)
  objective := h.objective.mono hsort
  artificial row hrow := (h.artificial row hrow).mono hsort
  vars x y hy := hsort y (h.vars x y hy)
  tags key lv hlv y hy := hsort y (h.tags key lv hlv y hy)

theorem Over.basic (h : s.Over sort) (hrow : s.rows.get? x = some row) : sort x ∧ row.Over sort :=
  h.rows _ (Table.mem_of_get? hrow)

theorem Over.of_rows (h : s.Over sort) {rows : Table Symbol (Row α)}
    (hrows : ∀ entry ∈ rows.entries, sort entry.1 ∧ entry.2.Over sort) :
    Over { s with rows } sort :=
  ⟨hrows, h.objective, h.artificial, h.vars, h.tags⟩

theorem Over.insertRow (h : s.Over sort) (hx : sort x) (hrow : row.Over sort) :
    Over { s with rows := s.rows.insert x row } sort := by
  refine h.of_rows fun entry hentry => ?_
  rcases Table.mem_insertEntry hentry with rfl | hentry
  · exact ⟨hx, hrow⟩
  · exact h.rows entry hentry

theorem Over.eraseRow (h : s.Over sort) (x : Symbol) :
    Over { s with rows := s.rows.erase x } sort :=
  h.of_rows fun entry hentry => h.rows entry (Table.mem_entries_erase hentry)

theorem Over.enlist (h : s.Over sort) (htag : ∀ y ∈ lv.tag.symbols, sort y) (key : Handle) :
    Over { s with live := s.live.insert key lv } sort where
  rows := h.rows
  objective := h.objective
  artificial := h.artificial
  vars := h.vars
  tags key' lv' hlv' := by
    rcases Table.of_get?_insert hlv' with ⟨-, rfl⟩ | hlv'
    · exact htag
    · exact h.tags key' lv' hlv'

theorem Over.delist (h : s.Over sort) (key : Handle) :
    Over { s with live := s.live.erase key } sort where
  rows := h.rows
  objective := h.objective
  artificial := h.artificial
  vars := h.vars
  tags key' lv' hlv' := h.tags key' lv' (Table.of_get?_erase hlv').2

theorem Over.dropSymbol (h : s.Over sort) (x : Symbol) :
    Over { s with
      rows := s.rows.mapValues fun row => row.remove x
      objective := s.objective.remove x } sort where
  rows entry hentry := by
    obtain ⟨row, hmem, heq⟩ := Table.mem_entries_mapValues hentry
    obtain ⟨hb, hrow⟩ := h.rows _ hmem
    exact ⟨hb, heq ▸ hrow.remove x⟩
  objective := h.objective.remove x
  artificial := h.artificial
  vars := h.vars
  tags := h.tags

theorem Over.idle (h : s.Over sort) : Over { s with artificial := none } sort :=
  ⟨h.rows, h.objective, nofun, h.vars, h.tags⟩

variable [Scalar α]

omit [Scalar α] in
theorem Over.of_objective (h : s.Over sort) {o : Row α} (ho : o.Over sort) :
    Over { s with objective := o } sort :=
  ⟨h.rows, ho, h.artificial, h.vars, h.tags⟩

theorem Over.substitute (h : s.Over sort) (hd : d.Over sort) (e : Symbol) :
    (s.substitute e d).Over sort where
  rows entry hentry := by
    obtain ⟨row, hmem, heq⟩ := Table.mem_entries_mapValues hentry
    obtain ⟨hb, hrow⟩ := h.rows _ hmem
    exact ⟨hb, heq ▸ hrow.substitute hd e⟩
  objective := h.objective.substitute hd e
  artificial row hrow := by
    obtain ⟨row₀, hrow₀, rfl⟩ := Option.map_eq_some_iff.1 hrow
    exact (h.artificial row₀ hrow₀).substitute hd e
  vars := h.vars
  tags := h.tags

theorem Over.pivot (h : s.Over sort) (hl : sort l) (he : sort e) (hrow : row.Over sort) :
    (s.pivot l e row).Over sort :=
  ((h.eraseRow l).substitute (hrow.exchanged hl e) e).insertRow he (hrow.exchanged hl e)

/-! ### Choices -/

theorem mem_of_entering? (h : entering? row = some x) : ∃ c, (x, c) ∈ row.cells.entries := by
  obtain ⟨⟨y, c⟩, hfind, rfl⟩ := Option.map_eq_some_iff.1 h
  exact ⟨c, List.mem_of_find?_eq_some hfind⟩

omit [Scalar α] in
/-- A candidate that a ratio rule comes to has been offered. -/
theorem mem_of_offers {β : Type} {offer : Candidate α → β → Candidate α} (symbol : β → Symbol)
    (hoffer : ∀ best b, offer best b = best ∨ ∃ r, offer best b = some (r, symbol b)) (bs : List β)
    {best : Candidate α} {r : α} (h : bs.foldl offer best = some (r, x)) :
    best = some (r, x) ∨ ∃ b ∈ bs, x = symbol b := by
  induction bs generalizing best with
  | nil => exact .inl h
  | cons b rest ih =>
    rcases ih h with hb | ⟨b', hb', hx⟩
    · rcases hoffer best b with hsame | ⟨r', hnew⟩
      · exact .inl (hsame ▸ hb)
      · rw [hnew] at hb
        cases hb
        exact .inr ⟨b, List.mem_cons_self, rfl⟩
    · exact .inr ⟨b', List.mem_cons_of_mem _ hb', hx⟩

theorem offer_cases (best : Candidate α) (ratio : α) (x : Symbol) :
    best.offer ratio x = best ∨ ∃ r, best.offer ratio x = some (r, x) := by
  unfold Candidate.offer
  split
  · split
    · exact .inr ⟨_, rfl⟩
    · exact .inl rfl
  · split
    · exact .inr ⟨_, rfl⟩
    · exact .inl rfl

theorem mem_of_mending? (h : s.mending? row = some x) : ∃ c, (x, c) ∈ row.cells.entries := by
  obtain ⟨⟨r, y⟩, hfold, rfl⟩ := Option.map_eq_some_iff.1 h
  have hmem := mem_of_offers Prod.fst (fun best entry => ?_) _ hfold
  · rcases hmem with hnone | ⟨entry, hmem, rfl⟩
    · cases hnone
    · exact ⟨entry.2, hmem⟩
  · split
    · exact offer_cases _ _ _
    · exact .inl rfl

/-! ### Pivot loops -/

/-- What pivots leave alone. They bring no symbol in. -/
structure Reworks (s t : Solver α) : Prop where
  symbols : ∀ sort, s.Over sort → t.Over sort
  idle : s.artificial = none → t.artificial = none
  live : t.live = s.live
  vars : t.vars = s.vars
  edits : t.edits = s.edits
  nextId : t.nextId = s.nextId
  autoSolve : t.autoSolve = s.autoSolve
  dirty : t.dirty = s.dirty

omit [Scalar α] in
theorem Reworks.refl (s : Solver α) : s.Reworks s :=
  ⟨fun _ h => h, id, rfl, rfl, rfl, rfl, rfl, rfl⟩

omit [Scalar α] in
theorem Reworks.trans (h : s.Reworks t) (h' : t.Reworks u) : s.Reworks u :=
  ⟨fun sort hs => h'.symbols sort (h.symbols sort hs), fun hs => h'.idle (h.idle hs),
    h'.live.trans h.live, h'.vars.trans h.vars, h'.edits.trans h.edits,
    h'.nextId.trans h.nextId, h'.autoSolve.trans h.autoSolve, h'.dirty.trans h.dirty⟩

theorem reworks_pivot (hrow : s.rows.get? l = some row)
    (he : ∀ sort, s.Over sort → sort e) : s.Reworks (s.pivot l e row) where
  symbols sort h := h.pivot (h.basic hrow).1 (he sort h) (h.basic hrow).2
  idle h := by
    show s.artificial.map _ = none
    rw [h]
    rfl
  live := rfl
  vars := rfl
  edits := rfl
  nextId := rfl
  autoSolve := rfl
  dirty := rfl

omit [Scalar α] in
theorem Over.goalRow (h : s.Over sort) {goal : Goal} (hrow : s.goalRow goal = some row) :
    row.Over sort := by
  cases goal with
  | main =>
    cases hrow
    exact h.objective
  | artificial => exact h.artificial row hrow

theorem reworks_minimiseFor (goal : Goal) (n : Nat) :
    Through Reworks (minimiseFor goal n : Solving α Unit).run := by
  induction n with
  | zero => exact fun s => leads_run_throw.2 (.refl s)
  | succ n ih =>
    intro s
    unfold minimiseFor
    refine leads_run_get_bind.2 ?_
    split
    · exact leads_run_pure.2 (.refl s)
    · next entering hentering =>
      split
      · exact leads_run_throw.2 (.refl s)
      · next leaving _ =>
        split
        · exact leads_run_throw.2 (.refl s)
        · next row hrow =>
          refine leads_run_set_bind.2 ((ih _).mono fun _ _ => Reworks.trans ?_)
          refine reworks_pivot hrow fun sort h => ?_
          obtain ⟨g, hg, he⟩ := Option.bind_eq_some_iff.1 hentering
          obtain ⟨c, hmem⟩ := mem_of_entering? he
          exact h.goalRow hg _ hmem

theorem reworks_minimise (goal : Goal) : Through Reworks (minimise goal : Solving α Unit).run :=
  fun s => leads_run_get_bind.2 (reworks_minimiseFor goal _ s)

theorem reworks_mendFor (n : Nat) : Through Reworks (mendFor n : Solving α Unit).run := by
  induction n with
  | zero => exact fun s => leads_run_throw.2 (.refl s)
  | succ n ih =>
    intro s
    unfold mendFor
    refine leads_run_get_bind.2 ?_
    split
    · exact leads_run_pure.2 (.refl s)
    · next leaving rest _ =>
      refine leads_run_set_bind.2 ?_
      have hskip : s.Reworks { s with infeasible := rest } :=
        ⟨fun _ h => ⟨h.rows, h.objective, h.artificial, h.vars, h.tags⟩, id, rfl, rfl, rfl, rfl, rfl,
          rfl⟩
      have hrest : Leads (mendFor n).run { s with infeasible := rest } fun _ t => s.Reworks t :=
        (ih _).mono fun _ _ => hskip.trans
      split
      · exact hrest
      · next row hrow =>
        split
        · split
          · exact leads_run_throw.2 hskip
          · next entering he =>
            refine leads_run_set_bind.2 ((ih _).mono fun _ _ => (hskip.trans ?_).trans)
            refine reworks_pivot hrow fun sort h => ?_
            obtain ⟨c, hmem⟩ := mem_of_mending? he
            exact (h.basic hrow).2 _ hmem
        · exact hrest

theorem reworks_mend : Through Reworks (mend : Solving α Unit).run :=
  fun s => leads_run_get_bind.2 (reworks_mendFor _ s)

theorem sort_of_subject? (h : subject? row tag = some x) (hrow : row.Over sort)
    (htag : ∀ y ∈ tag.symbols, sort y) : sort x := by
  unfold subject? at h
  split at h
  · next y hy =>
    cases h
    obtain ⟨entry, hmem, rfl⟩ := List.mem_map.1 (List.mem_of_find?_eq_some hy)
    exact hrow entry hmem
  · exact htag x (List.mem_of_find?_eq_some h)

/-! ### Issued symbols -/

/-- Every symbol in use is of a sort whose members the system has issued, each under a number of its
own. -/
structure Stocks (s : Solver α) (sort : Symbol → Prop) : Prop where
  symbols : s.Over sort
  known : ∀ x, sort x → x.id < s.nextId
  distinct : ∀ x y, sort x → sort y → x.id = y.id → x = y

/-- Every symbol in use has been issued under a number of its own. -/
def Coherent (s : Solver α) : Prop := ∃ sort, s.Stocks sort

omit [Scalar α] in
theorem Stocks.congr (h : s.Stocks sort) (hsymbols : s.Over sort → t.Over sort)
    (hid : t.nextId = s.nextId) : t.Stocks sort :=
  ⟨hsymbols h.symbols, hid ▸ h.known, h.distinct⟩

omit [Scalar α] in
theorem Stocks.reworks (h : s.Stocks sort) (hr : s.Reworks t) : t.Stocks sort :=
  h.congr (hr.symbols sort) hr.nextId

omit [Scalar α] in
theorem Stocks.newSymbol (h : s.Stocks sort) (kind : SymbolKind) :
    (s.newSymbol kind).2.Stocks fun x => sort x ∨ x = (s.newSymbol kind).1 where
  symbols := by
    have hmono : s.Over fun x => sort x ∨ x = (s.newSymbol kind).1 := h.symbols.mono fun _ => .inl
    exact ⟨hmono.rows, hmono.objective, hmono.artificial, hmono.vars, hmono.tags⟩
  known := by
    rintro x (hx | rfl)
    · exact (h.known x hx).trans (Nat.lt_succ_self _)
    · exact Nat.lt_succ_self _
  distinct := by
    rintro x y (hx | rfl) (hy | rfl) hid
    · exact h.distinct x y hx hy hid
    · exact absurd (h.known x hx) (hid ▸ Nat.lt_irrefl _)
    · exact absurd (h.known y hy) (hid ▸ Nat.lt_irrefl _)
    · rfl

theorem Stocks.charge (h : s.Stocks sort) (hx : sort x) (weight : α) :
    (s.charge x weight).Stocks sort :=
  h.congr (fun ho => ho.of_objective (ho.objective.addSymbol hx weight)) rfl

/-- New symbols have come, and variables for some of them, as long as they had none. -/
structure Enriches (s : Solver α) (sort : Symbol → Prop) (t : Solver α) (sort' : Symbol → Prop) :
    Prop where
  stocks : t.Stocks sort'
  mono : ∀ x, sort x → sort' x
  rows : t.rows = s.rows
  artificial : t.artificial = s.artificial
  nextId : s.nextId ≤ t.nextId
  autoSolve : t.autoSolve = s.autoSolve
  dirty : t.dirty = s.dirty
  vars : ∀ x y, t.vars.get? x = some y →
    s.vars.get? x = some y ∨ s.vars.get? x = none ∧ s.nextId ≤ y.id
  vars_mono : ∀ x y, s.vars.get? x = some y → t.vars.get? x = some y

omit [Scalar α] in
theorem Stocks.enriches_self (h : s.Stocks sort) : s.Enriches sort s sort :=
  ⟨h, fun _ => id, rfl, rfl, Nat.le_refl _, rfl, rfl, fun _ _ => .inl, fun _ _ => id⟩

omit [Scalar α] in
theorem Enriches.trans {sort'' : Symbol → Prop} (h : s.Enriches sort t sort')
    (h' : t.Enriches sort' u sort'') : s.Enriches sort u sort'' where
  stocks := h'.stocks
  mono x hx := h'.mono x (h.mono x hx)
  rows := h'.rows.trans h.rows
  artificial := h'.artificial.trans h.artificial
  nextId := Nat.le_trans h.nextId h'.nextId
  autoSolve := h'.autoSolve.trans h.autoSolve
  dirty := h'.dirty.trans h.dirty
  vars x y hy := by
    rcases h'.vars x y hy with hy | ⟨hnone, hid⟩
    · exact h.vars x y hy
    · refine .inr ⟨?_, Nat.le_trans h.nextId hid⟩
      by_contra hsome
      obtain ⟨z, hz⟩ := Option.ne_none_iff_exists'.1 hsome
      cases hnone.symm.trans (h.vars_mono x z hz)
  vars_mono x y hy := h'.vars_mono x y (h.vars_mono x y hy)

omit [Scalar α] in
theorem Stocks.enriches_newSymbol (h : s.Stocks sort) (kind : SymbolKind) :
    s.Enriches sort (s.newSymbol kind).2 fun x => sort x ∨ x = (s.newSymbol kind).1 :=
  ⟨h.newSymbol kind, fun _ => .inl, rfl, rfl, Nat.le_succ _, rfl, rfl, fun _ _ => .inl,
    fun _ _ => id⟩

theorem Enriches.charge (h : s.Enriches sort t sort') (hx : sort' x) (weight : α) :
    s.Enriches sort (t.charge x weight) sort' :=
  ⟨h.stocks.charge hx weight, h.mono, h.rows, h.artificial, h.nextId, h.autoSolve, h.dirty, h.vars,
    h.vars_mono⟩

omit [Scalar α] in
theorem Stocks.symbolOf (h : s.Stocks sort) (x : Variable) :
    ∃ sort', s.Enriches sort (s.symbolOf x).2 sort' ∧ sort' (s.symbolOf x).1 := by
  unfold Solver.symbolOf
  split
  · next y hy => exact ⟨sort, h.enriches_self, h.symbols.vars x y hy⟩
  · next hnone =>
    have hnew := h.enriches_newSymbol .external
    refine ⟨_, { hnew with stocks := ?_, vars := ?_, vars_mono := ?_ }, .inr rfl⟩
    · refine hnew.stocks.congr (fun ho => ⟨ho.rows, ho.objective, ho.artificial, ?_, ho.tags⟩) rfl
      intro x' y hy
      rcases Table.of_get?_insert hy with ⟨-, rfl⟩ | hy
      · exact .inr rfl
      · exact ho.vars x' y hy
    · intro x' y hy
      rcases Table.of_get?_insert hy with ⟨rfl, rfl⟩ | hy
      · exact .inr ⟨hnone, Nat.le_refl _⟩
      · exact .inl hy
    · intro x' y hy
      have hne : x' ≠ x := by
        rintro rfl
        cases hnone.symm.trans hy
      exact (Table.get?_insert_ne _ hne _).trans hy

theorem Stocks.addTerms (h : s.Stocks sort) (hrow : row.Over sort) (ts : List (LinearTerm α)) :
    ∃ sort', s.Enriches sort (s.addTerms row ts).2 sort' ∧ (s.addTerms row ts).1.Over sort' := by
  induction ts generalizing s sort row with
  | nil => exact ⟨sort, h.enriches_self, hrow⟩
  | cons term rest ih =>
    unfold Solver.addTerms
    split
    · exact ih h hrow
    · obtain ⟨sort₁, hsymbol, hx⟩ := h.symbolOf term.unknown
      have hrow₁ := hrow.mono hsymbol.mono
      have hnext {row' : Row α} (hrow' : row'.Over sort₁) :
          ∃ sort', s.Enriches sort ((s.symbolOf term.unknown).2.addTerms row' rest).2 sort' ∧
            ((s.symbolOf term.unknown).2.addTerms row' rest).1.Over sort' := by
        obtain ⟨sort₂, hrest, hover⟩ := ih hsymbol.stocks hrow'
        exact ⟨sort₂, hsymbol.trans hrest, hover⟩
      refine hnext ?_
      split
      · next basic hbasic => exact hrow₁.addRow (hsymbol.stocks.symbols.basic hbasic).2 _
      · exact hrow₁.addSymbol hx _

theorem Stocks.bring (h : s.Stocks sort) (hrow : row.Over sort) (c : Constraint α) :
    ∃ sort', s.Enriches sort (s.bring c row).2.2 sort' ∧ (s.bring c row).1.Over sort' ∧
      ∀ y ∈ (s.bring c row).2.1.symbols, sort' y := by
  have hone (kind : SymbolKind) (v : α) : ∃ sort', s.Enriches sort (s.newSymbol kind).2 sort' ∧
      (row.addSymbol (s.newSymbol kind).1 v).Over sort' ∧
      ∀ y ∈ Tag.symbols ⟨(s.newSymbol kind).1, none⟩, sort' y := by
    have hnew := h.enriches_newSymbol kind
    refine ⟨_, hnew, (hrow.mono hnew.mono).addSymbol (.inr rfl) v, ?_⟩
    intro y hy
    exact .inr (List.mem_singleton.1 hy)
  -- The second symbol comes after the first one, and whichever is charged is among the two.
  have htwo (kind kind' : SymbolKind) (v v' : α) : ∃ sort',
      s.Enriches sort ((s.newSymbol kind).2.newSymbol kind').2 sort' ∧
      Row.Over ((row.addSymbol (s.newSymbol kind).1 v).addSymbol
        ((s.newSymbol kind).2.newSymbol kind').1 v') sort' ∧
      ∀ y ∈ Tag.symbols ⟨(s.newSymbol kind).1, some ((s.newSymbol kind).2.newSymbol kind').1⟩,
        sort' y := by
    have hnew := h.enriches_newSymbol kind
    have hnew' := hnew.stocks.enriches_newSymbol kind'
    have hall := hnew.trans hnew'
    refine ⟨_, hall, Row.Over.addSymbol ((hrow.mono hall.mono).addSymbol ?_ v) ?_ v', ?_⟩
    · exact .inl (.inr rfl)
    · exact .inr rfl
    · intro y hy
      rcases List.mem_cons.1 hy with rfl | hy
      · exact .inl (.inr rfl)
      · exact .inr (List.mem_singleton.1 hy)
  unfold Solver.bring
  split
  · split
    · exact hone .dummy _
    · obtain ⟨sort', henriches, hover, htag⟩ := htwo .error .error (Scalar.ofInt (-1)) Scalar.one
      exact ⟨sort', (henriches.charge (htag _ (by simp [Tag.symbols])) _).charge
        (htag _ (by simp [Tag.symbols])) _, hover, htag⟩
  · dsimp only
    split
    · exact hone .slack _
    · obtain ⟨sort', henriches, hover, htag⟩ := htwo .slack .error _ _
      exact ⟨sort', henriches.charge (htag _ (by simp [Tag.symbols])) _, hover, htag⟩

theorem Stocks.rowOf (h : s.Stocks sort) (c : Constraint α) :
    ∃ sort', s.Enriches sort (s.rowOf c).2.2 sort' ∧ (s.rowOf c).1.Over sort' ∧
      ∀ y ∈ (s.rowOf c).2.1.symbols, sort' y := by
  obtain ⟨sort₁, hterms, hrow⟩ := h.addTerms (Row.over_ofConstant c.expr.constant) c.expr.terms
  obtain ⟨sort₂, hbring, hrow, htag⟩ := hterms.stocks.bring hrow c
  refine ⟨sort₂, hterms.trans hbring, ?_, htag⟩
  have hsign : (s.rowOf c).1 = if Scalar.isNegative ((s.addTerms _ c.expr.terms).2.bring c _).1.constant
      then ((s.addTerms _ c.expr.terms).2.bring c _).1.negated
      else ((s.addTerms _ c.expr.terms).2.bring c _).1 := rfl
  rw [hsign]
  split
  · exact hrow.negated
  · exact hrow

/-! ### The artificial phase -/

omit [Scalar α] in
theorem Stocks.adjoin (h : s.Stocks sort) (hrow : row.Over sort) :
    Stocks { (s.newSymbol .slack).2 with
      rows := (s.newSymbol .slack).2.rows.insert (s.newSymbol .slack).1 row
      artificial := some row } fun x => sort x ∨ x = (s.newSymbol .slack).1 := by
  have hrow' : row.Over fun x => sort x ∨ x = (s.newSymbol .slack).1 := hrow.mono fun _ => .inl
  refine (h.newSymbol .slack).congr (fun ho => ?_) rfl
  have hinsert := ho.insertRow (.inr rfl) hrow'
  refine ⟨hinsert.rows, hinsert.objective, ?_, hinsert.vars, hinsert.tags⟩
  rintro _ ⟨⟩
  exact hrow'

/-- What becomes of a system in the artificial phase: one symbol has been issued, names and modes
are what they were, and once the phase has come to an answer its row is gone. -/
structure Tries (s : Solver α) (sort : Symbol → Prop) (r : Except SolverError Bool)
    (t : Solver α) : Prop where
  stocks : ∃ sort', t.Stocks sort' ∧ ∀ x, sort x → sort' x
  vars : t.vars = s.vars
  nextId : s.nextId ≤ t.nextId
  autoSolve : t.autoSolve = s.autoSolve
  dirty : t.dirty = s.dirty
  idle : ∀ b, r = .ok b → t.artificial = none

theorem leads_addArtificial_tries (h : s.Stocks sort) (hrow : row.Over sort) :
    Leads (addArtificial row).run s (s.Tries sort) := by
  have hadjoin := h.adjoin hrow
  have hmono : ∀ x, sort x → sort x ∨ x = (s.newSymbol .slack).1 := fun _ => .inl
  unfold addArtificial
  refine leads_run_get_bind.2 (leads_run_set_bind.2 ?_)
  refine (reworks_minimise .artificial _).run_bind (fun _ u hu => ?_) fun e u hu => ?_
  · -- Without the artificial row and its definition nothing new is in use.
    have hu' : Stocks { u with artificial := none, rows := u.rows.erase (s.newSymbol .slack).1 }
        fun x => sort x ∨ x = (s.newSymbol .slack).1 :=
      (hadjoin.reworks hu).congr (fun ho => (ho.eraseRow _).idle) rfl
    have hends (b : Bool) {v : Solver α} (hv : v.Stocks fun x => sort x ∨ x = (s.newSymbol .slack).1)
        (hvars : v.vars = u.vars) (hid : v.nextId = u.nextId) (hauto : v.autoSolve = u.autoSolve)
        (hdirty : v.dirty = u.dirty) (hidle : v.artificial = none) : s.Tries sort (.ok b) v :=
      ⟨⟨_, hv, hmono⟩, hvars.trans hu.vars, (hid.trans hu.nextId).symm ▸ Nat.le_succ _,
        hauto.trans hu.autoSolve, hdirty.trans hu.dirty, fun _ _ => hidle⟩
    have hdrop (b : Bool) {v : Solver α} (hv : v.Stocks fun x => sort x ∨ x = (s.newSymbol .slack).1)
        (hvars : v.vars = u.vars) (hid : v.nextId = u.nextId) (hauto : v.autoSolve = u.autoSolve)
        (hdirty : v.dirty = u.dirty) (hidle : v.artificial = none) :
        Leads (addArtificial.dropSymbol (s.newSymbol .slack).1 >>= fun _ => pure b).run v
          (s.Tries sort) :=
      leads_run_modify_bind.2 (leads_run_pure.2
        (hends b (hv.congr (fun ho => ho.dropSymbol _) rfl) hvars hid hauto hdirty hidle))
    refine leads_run_get_bind.2 (leads_run_set_bind.2 ?_)
    split
    · exact hdrop _ hu' rfl rfl rfl rfl rfl
    · next row' hrow' =>
      have hrow'' := ((hadjoin.reworks hu).symbols.basic hrow').2
      split
      · exact leads_run_pure.2 (hends _ hu' rfl rfl rfl rfl rfl)
      · split
        · exact leads_run_pure.2 (hends _ hu' rfl rfl rfl rfl rfl)
        · next entering hentering =>
          obtain ⟨entry, hmem, rfl⟩ := List.mem_map.1 (List.mem_of_find?_eq_some hentering)
          have hdefinition := hrow''.exchanged (.inr rfl) entry.1
          refine leads_run_modify_bind.2 (hdrop _ (hu'.congr (fun ho => ?_) rfl) rfl rfl rfl rfl rfl)
          exact (ho.substitute hdefinition _).insertRow (hrow'' entry hmem) hdefinition
  · exact ⟨⟨_, hadjoin.reworks hu, hmono⟩, hu.vars, hu.nextId.symm ▸ Nat.le_succ _, hu.autoSolve,
      hu.dirty, nofun⟩

/-! ### Operations -/

/-- An operation keeps the symbols in use apart, also where it fails. -/
def KeepsCoherent {β : Type} (x : Solving α β) : Prop :=
  Through (fun s t : Solver α => s.Coherent → t.Coherent) x.run

omit [Scalar α] in
theorem Reworks.coherent (h : s.Reworks t) (hs : s.Coherent) : t.Coherent :=
  let ⟨sort, hsort⟩ := hs
  ⟨sort, hsort.reworks h⟩

omit [Scalar α] in
theorem Coherent.congr_modes (h : s.Coherent) (autoSolve dirty : Bool) :
    Coherent { s with autoSolve, dirty } :=
  let ⟨sort, hsort⟩ := h
  ⟨sort, hsort.congr (fun ho => ⟨ho.rows, ho.objective, ho.artificial, ho.vars, ho.tags⟩) rfl⟩

theorem coherent_followUp : KeepsCoherent (followUp : Solving α Unit) := by
  intro s
  refine leads_run_get_bind.2 ?_
  split
  · exact (reworks_minimise .main s).mono fun _ _ => Reworks.coherent
  · exact leads_run_modify.2 fun h => h.congr_modes _ _

theorem coherent_solve : KeepsCoherent (solve : Solving α Unit) := by
  intro s
  refine leads_run_get_bind.2 ?_
  split
  · exact (reworks_minimise .main s).run_bind
      (fun _ _ h => leads_run_modify.2 fun hs => (h.coherent hs).congr_modes _ _) fun _ _ => Reworks.coherent
  · exact leads_run_pure.2 id

theorem coherent_setAutoSolve (enabled : Bool) :
    KeepsCoherent (setAutoSolve enabled : Solving α Unit) := by
  intro s
  refine leads_run_modify_bind.2 ?_
  split
  · exact (coherent_solve _).mono fun _ _ h hs => h (hs.congr_modes _ _)
  · exact leads_run_pure.2 fun h => h.congr_modes _ _

theorem Coherent.addAs (h : s.Coherent) (key : Handle) (c : Constraint α) :
    Leads (addAs key c).run s fun _ t => t.Coherent := by
  obtain ⟨sort, hsort⟩ := h
  unfold Solver.addAs
  refine leads_run_get_bind.2 ?_
  split
  · exact leads_run_throw_bind.2 ⟨sort, hsort⟩
  · refine leads_run_get_bind.2 ?_
    obtain ⟨sort', hchart, hover, htag⟩ := hsort.rowOf c
    rcases hrow : s.rowOf c with ⟨row, tag, v⟩
    rw [hrow] at hchart hover htag
    have hv : v.Stocks sort' := hchart.stocks
    have hbefore := hsort.symbols.objective.mono hchart.mono
    have henlist {u : Solver α} {sort'' : Symbol → Prop} (hu : u.Stocks sort'')
        (hmono : ∀ x, sort' x → sort'' x) :
        Leads (modify (fun s => { s with live := s.live.insert key ⟨c, tag⟩ }) >>= fun _ =>
          followUp : Solving α Unit).run u fun _ t => t.Coherent :=
      leads_run_modify_bind.2 ((coherent_followUp _).mono fun _ _ ht => ht
        ⟨sort'', hu.congr (fun ho => ho.enlist (fun y hy => hmono y (htag y hy)) key) rfl⟩)
    refine leads_run_set_bind.2 ?_
    dsimp only
    split
    · exact leads_run_set_bind.2 (leads_run_throw_bind.2
        ⟨sort', hv.congr (fun ho => ho.of_objective hbefore) rfl⟩)
    · split
      · next subject hsubject =>
        refine leads_run_set_bind.2 (henlist (hv.congr (fun ho => ?_) rfl) fun _ => id)
        have hdefinition := Row.Over.solvedFor hover subject
        refine (ho.substitute hdefinition subject).insertRow ?_ hdefinition
        split at hsubject
        · cases hsubject
          exact htag _ (by simp [Tag.symbols])
        · exact sort_of_subject? hsubject hover htag
      · refine (leads_addArtificial_tries hv hover).run_bind (fun success u hu => ?_) fun e _ hu => ?_
        · obtain ⟨sort'', hu', hmono⟩ := hu.stocks
          split
          · refine leads_run_modify_bind.2 (leads_run_throw_bind.2
              ⟨sort'', hu'.congr (fun ho => ?_) rfl⟩)
            have hrows := (hv.symbols.mono hmono).rows
            exact ⟨hrows, hbefore.mono hmono, ho.artificial, ho.vars, ho.tags⟩
          · exact henlist hu' hmono
        · exact hu.stocks.imp fun _ h => h.1

theorem Over.discharge (h : s.Over sort) (c : Constraint α) (htag : ∀ y ∈ tag.symbols, sort y) :
    (s.discharge c tag).Over sort := by
  unfold Solver.discharge
  refine List.foldlRecOn tag.symbols _ (motive := fun s : Solver α => s.Over sort) h ?_
  intro u hu marker hmarker
  split
  · exact hu
  · refine Over.of_objective hu ?_
    split
    · next row hrow => exact (Over.objective hu).addRow (Over.basic hu hrow).2 _
    · exact (Over.objective hu).addSymbol (htag marker hmarker) _

theorem nextId_discharge (s : Solver α) (c : Constraint α) (tag : Tag) :
    (s.discharge c tag).nextId = s.nextId := by
  unfold Solver.discharge
  refine List.foldlRecOn tag.symbols _ (motive := fun u : Solver α => u.nextId = s.nextId) rfl ?_
  intro u hu marker _
  split
  · exact hu
  · exact hu

theorem coherent_removeAs (key : Handle) : KeepsCoherent (removeAs key : Solving α Unit) := by
  rintro s
  unfold Solver.removeAs
  refine leads_run_get_bind.2 ?_
  split
  · exact leads_run_throw.2 id
  · next c tag hlv =>
    refine leads_run_set_bind.2 ?_
    have hdischarge {sort : Symbol → Prop} (h : s.Stocks sort) :
        Stocks ({ s with live := s.live.erase key }.discharge c tag) sort :=
      h.congr (fun ho => (ho.delist key).discharge c (ho.tags key _ hlv)) (nextId_discharge ..)
    have hfollow {u : Solver α} (hu : s.Coherent → u.Coherent) :
        Leads followUp.run u fun _ t => s.Coherent → t.Coherent :=
      (coherent_followUp u).mono fun _ _ ht hs => ht (hu hs)
    have hthrow (hs : s.Coherent) :
        Coherent ({ s with live := s.live.erase key }.discharge c tag) :=
      hs.imp fun _ => hdischarge
    split
    · refine leads_run_set_bind.2 (hfollow fun hs => ?_)
      exact hs.imp fun _ h => (hdischarge h).congr (·.eraseRow _) rfl
    · split
      · exact leads_run_throw_bind.2 hthrow
      · next leaving _ =>
        split
        · exact leads_run_throw_bind.2 hthrow
        · next row hrow =>
          refine leads_run_set_bind.2 (hfollow fun hs => ?_)
          refine hs.imp fun _ h => (hdischarge h).congr (fun ho => ?_) rfl
          obtain ⟨hl, hover⟩ := ho.basic hrow
          exact (ho.eraseRow leaving).substitute (hover.exchanged hl _) _

theorem coherent_addAs (key : Handle) (c : Constraint α) : KeepsCoherent (addAs key c) :=
  fun _ hs => hs.addAs key c

omit [Scalar α] in
theorem Coherent.congr_edits (h : s.Coherent) (edits : Table Variable (Edit α)) :
    Coherent { s with edits } :=
  let ⟨sort, hsort⟩ := h
  ⟨sort, hsort.congr (fun ho => ⟨ho.rows, ho.objective, ho.artificial, ho.vars, ho.tags⟩) rfl⟩

theorem coherent_addEdit (x : Variable) (strength : Strength α) :
    KeepsCoherent (addEdit x strength) := by
  intro s
  unfold Solver.addEdit
  refine leads_run_get_bind.2 ?_
  split
  · exact leads_run_throw_bind.2 id
  · dsimp only
    split
    · exact leads_run_throw_bind.2 id
    · refine leads_run_get_bind.2 ((coherent_addAs _ _ s).run_bind (fun _ t ht => ?_) fun _ _ => id)
      refine leads_run_get_bind.2 ?_
      split
      · exact leads_run_throw.2 ht
      · exact leads_run_modify.2 fun hs => (ht hs).congr_edits _

theorem coherent_removeEdit (x : Variable) : KeepsCoherent (removeEdit x : Solving α Unit) := by
  intro s
  unfold Solver.removeEdit
  refine leads_run_get_bind.2 ?_
  split
  · exact leads_run_throw.2 id
  · next edit _ =>
    refine leads_run_modify_bind.2 ?_
    exact (coherent_removeAs edit.handle _).mono fun _ _ ht hs => ht (hs.congr_edits _)

/-- A shift moves constants only. -/
theorem reworks_shift (s : Solver α) (tag : Tag) (delta : α) : s.Reworks (s.shift tag delta) := by
  have hinsert {u : Solver α} (hu : s.Reworks u) (entry : Symbol × Row α) (v : α)
      (hentry : ∀ sort, s.Over sort → sort entry.1 ∧ entry.2.Over sort) (infeasible : List Symbol) :
      s.Reworks { u with rows := u.rows.insert entry.1 (entry.2.add v), infeasible } := by
    refine ⟨fun sort hs => ?_, hu.idle, hu.live, hu.vars, hu.edits, hu.nextId, hu.autoSolve, hu.dirty⟩
    have hrow : (entry.2.add v).Over sort := (hentry sort hs).2
    have ho := (hu.symbols sort hs).insertRow (hentry sort hs).1 hrow
    exact ⟨ho.rows, ho.objective, ho.artificial, ho.vars, ho.tags⟩
  unfold Solver.shift
  split
  · next row hrow => exact hinsert (.refl s) (_, row) _ (fun _ hs => hs.basic hrow) _
  · split
    · next other row hrow =>
      obtain ⟨y, -, hy⟩ := Option.bind_eq_some_iff.1 hrow
      obtain ⟨row', hrow', heq⟩ := Option.map_eq_some_iff.1 hy
      cases heq
      exact hinsert (.refl s) (_, row) _ (fun _ hs => hs.basic hrow') _
    · unfold Solver.shiftAll
      refine List.foldlRecOn s.rows.entries _ (motive := s.Reworks) (.refl s) ?_
      intro u hu entry hmem
      dsimp only
      split
      · exact hu
      · exact hinsert hu entry _ (fun _ hs => hs.rows entry hmem) _

theorem coherent_suggest (x : Variable) (v : α) : KeepsCoherent (suggest x v) := by
  intro s
  refine (coherent_solve s).run_bind (fun _ t ht => ?_) fun _ _ => id
  refine leads_run_get_bind.2 ?_
  split
  · exact leads_run_throw.2 ht
  · refine leads_run_set_bind.2 ((reworks_mend _).mono fun _ u hu hs => ?_)
    exact hu.coherent ((reworks_shift _ _ _).coherent ((ht hs).congr_edits _))

theorem coherent_new : (Solver.new : Solver α).Coherent :=
  ⟨fun _ => False, ⟨nofun, nofun, nofun, nofun, nofun⟩, nofun, nofun⟩

end Solver

end ReactiveView
