import Mathlib
import ReactiveView.Proofs.Simplex.Basis
import ReactiveView.Simplex.Solver

/-!
This module contains the choices of the simplex method: which symbol enters and which one leaves.
-/

namespace ReactiveView

namespace Solver

section Candidate

variable {β : Type} (p : β → Prop) (ratio : β → ℚ) (key : β → Symbol)

/-- Offer the ratios of a list, those of the entries with a property. -/
def offerAll [DecidablePred p] (best : Candidate ℚ) (l : List β) : Candidate ℚ :=
  l.foldl (fun best e => if p e then best.offer (ratio e) (key e) else best) best

/-- Whether a candidate has the least ratio of a list. -/
def Candidate.IsLeast (best : Candidate ℚ) (l : List β) : Prop :=
  match best with
  | none => ∀ e ∈ l, ¬p e
  | some (r, x) => ∃ e ∈ l, p e ∧ ratio e = r ∧ key e = x ∧ ∀ e' ∈ l, p e' → r ≤ ratio e'

variable {p ratio key}

theorem Candidate.IsLeast.skip {best : Candidate ℚ} {l : List β} {e : β}
    (h : best.IsLeast p ratio key l) (he : ¬p e) : best.IsLeast p ratio key (l ++ [e]) := by
  unfold Candidate.IsLeast at *
  cases best with
  | none =>
    intro e' he'
    rcases List.mem_append.1 he' with he' | he'
    · exact h e' he'
    · rw [List.mem_singleton.1 he']
      exact he
  | some c =>
    obtain ⟨e₀, hmem, hp, hr, hk, hmin⟩ := h
    refine ⟨e₀, List.mem_append_left _ hmem, hp, hr, hk, ?_⟩
    intro e' he' hp'
    rcases List.mem_append.1 he' with he' | he'
    · exact hmin e' he' hp'
    · rw [List.mem_singleton.1 he'] at hp'
      exact absurd hp' he

theorem Candidate.IsLeast.offer {best : Candidate ℚ} {l : List β} {e : β}
    (h : best.IsLeast p ratio key l) (he : p e) :
    (best.offer (ratio e) (key e)).IsLeast p ratio key (l ++ [e]) := by
  cases best with
  | none =>
    refine ⟨e, by simp, he, rfl, rfl, ?_⟩
    intro e' he' hp'
    rcases List.mem_append.1 he' with he' | he'
    · exact absurd hp' (h e' he')
    · rw [List.mem_singleton.1 he']
  | some c =>
    obtain ⟨r, x⟩ := c
    obtain ⟨e₀, hmem, hp, hr, hk, hmin⟩ := h
    by_cases hlt : ratio e < r
    · have hoffer : Candidate.offer (some (r, x)) (ratio e) (key e) = some (ratio e, key e) :=
        if_pos (decide_eq_true hlt)
      rw [hoffer]
      refine ⟨e, by simp, he, rfl, rfl, ?_⟩
      intro e' he' hp'
      rcases List.mem_append.1 he' with he' | he'
      · exact hlt.le.trans (hmin e' he' hp')
      · rw [List.mem_singleton.1 he']
    · have hoffer : Candidate.offer (some (r, x)) (ratio e) (key e) = some (r, x) :=
        if_neg (by simpa using hlt)
      rw [hoffer]
      refine ⟨e₀, List.mem_append_left _ hmem, hp, hr, hk, ?_⟩
      intro e' he' hp'
      rcases List.mem_append.1 he' with he' | he'
      · exact hmin e' he' hp'
      · rw [List.mem_singleton.1 he']
        exact not_lt.1 hlt

variable [DecidablePred p]

theorem isLeast_offerAll_append {best : Candidate ℚ} {l₀ : List β}
    (h : best.IsLeast p ratio key l₀) (l : List β) :
    (offerAll p ratio key best l).IsLeast p ratio key (l₀ ++ l) := by
  induction l generalizing best l₀ with
  | nil =>
    rw [List.append_nil]
    exact h
  | cons e rest ih =>
    rw [List.append_cons]
    unfold offerAll
    rw [List.foldl_cons]
    split
    · next he => exact ih (h.offer he)
    · next he => exact ih (h.skip he)

theorem isLeast_offerAll (l : List β) : (offerAll p ratio key none l).IsLeast p ratio key l := by
  have hnone : Candidate.IsLeast p ratio key none [] := by
    intro e he
    cases he
  exact isLeast_offerAll_append hnone l

theorem offerAll_eq_none {l : List β} (h : (offerAll p ratio key none l).map Prod.snd = none) :
    ∀ e ∈ l, ¬p e := by
  have : (offerAll p ratio key none l).IsLeast p ratio key l := isLeast_offerAll l
  rw [Option.map_eq_none_iff.1 h] at this
  exact this

theorem offerAll_eq_some {l : List β} {x : Symbol} (h : (offerAll p ratio key none l).map Prod.snd = some x) :
    ∃ e ∈ l, p e ∧ key e = x ∧ ∀ e' ∈ l, p e' → ratio e ≤ ratio e' := by
  have : (offerAll p ratio key none l).IsLeast p ratio key l := isLeast_offerAll l
  obtain ⟨⟨r, y⟩, hc, rfl⟩ := Option.map_eq_some_iff.1 h
  rw [hc] at this
  obtain ⟨e, hmem, hp, rfl, hk, hmin⟩ := this
  exact ⟨e, hmem, hp, hk, hmin⟩

end Candidate

variable {s : Solver ℚ} {row goal : Row ℚ} {e l m : Symbol}

/-! ### The primal choices -/

theorem entering?_eq_some (hn : goal.Normal) (h : entering? goal = some e) :
    e.kind ≠ .dummy ∧ goal.coefficient e < 0 := by
  unfold entering? Table.findEntry? at h
  obtain ⟨⟨x, c⟩, hfind, rfl⟩ := Option.map_eq_some_iff.1 h
  have hmem := List.mem_of_find?_eq_some hfind
  have hp := List.find?_some hfind
  obtain ⟨rfl, -⟩ := hn.mem_entries_iff.1 hmem
  simpa using hp

theorem entering?_eq_none (hn : goal.Normal) (h : entering? goal = none) (he : e.kind ≠ .dummy) :
    0 ≤ goal.coefficient e := by
  unfold entering? Table.findEntry? at h
  by_contra hneg
  rw [not_le] at hneg
  have hmem := hn.mem_entries_iff.2 ⟨rfl, hneg.ne⟩
  have := List.find?_eq_none.1 (Option.map_eq_none_iff.1 h) _ hmem
  simp [he, hneg] at this

/-- Whether the growth of a symbol makes a restricted basic symbol smaller. -/
def Bounds (e : Symbol) (entry : Symbol × Row ℚ) : Prop :=
  entry.1.kind ≠ .external ∧ entry.2.coefficient e < 0

instance (e : Symbol) : DecidablePred (Bounds e) :=
  fun entry => inferInstanceAs (Decidable (entry.1.kind ≠ .external ∧ entry.2.coefficient e < 0))

theorem leaving?_eq_offerAll (s : Solver ℚ) (e : Symbol) :
    s.leaving? e
      = (offerAll (Bounds e) (fun entry => -entry.2.constant / entry.2.coefficient e) Prod.fst none
          s.rows.entries).map Prod.snd := by
  unfold leaving? offerAll
  dsimp only
  congr 2
  funext best entry
  by_cases hp : Bounds e entry
  · rw [if_pos hp]
    exact if_pos (by simpa [Bounds] using hp)
  · rw [if_neg hp]
    exact if_neg (by simpa [Bounds] using hp)

theorem leaving?_eq_some (ha : s.rows.Ascending) (h : s.leaving? e = some l) :
    ∃ row, s.rows.get? l = some row ∧ l.kind ≠ .external ∧ row.coefficient e < 0 ∧
      ∀ b row', s.rows.get? b = some row' → b.kind ≠ .external → row'.coefficient e < 0 →
        -row.constant / row.coefficient e ≤ -row'.constant / row'.coefficient e := by
  rw [leaving?_eq_offerAll] at h
  obtain ⟨⟨x, row⟩, hmem, hp, rfl, hmin⟩ := offerAll_eq_some h
  refine ⟨row, ha.mem_entries_iff.1 hmem, hp.1, hp.2, ?_⟩
  intro b row' hrow' hb hc
  exact hmin (b, row') (ha.mem_entries_iff.2 hrow') ⟨hb, hc⟩

theorem leaving?_eq_none (h : s.leaving? e = none) {b : Symbol} (hrow : s.rows.get? b = some row)
    (hb : b.kind ≠ .external) : 0 ≤ row.coefficient e := by
  rw [leaving?_eq_offerAll] at h
  by_contra hneg
  exact offerAll_eq_none h _ (Table.mem_of_get? hrow) ⟨hb, not_le.1 hneg⟩

/-! ### The dual choice -/

/-- Whether the growth of a symbol makes a row greater. -/
def Mends (entry : Symbol × ℚ) : Prop :=
  0 < entry.2 ∧ entry.1.kind ≠ .dummy

instance : DecidablePred Mends :=
  fun entry => inferInstanceAs (Decidable (0 < entry.2 ∧ entry.1.kind ≠ .dummy))

theorem mending?_eq_offerAll (s : Solver ℚ) (row : Row ℚ) :
    s.mending? row
      = (offerAll Mends (fun entry => s.objective.coefficient entry.1 / entry.2) Prod.fst none
          row.cells.entries).map Prod.snd := by
  unfold mending? offerAll
  dsimp only
  congr 2
  funext best entry
  by_cases hp : Mends entry
  · rw [if_pos hp]
    exact if_pos (by simpa [Mends] using hp)
  · rw [if_neg hp]
    exact if_neg (by simpa [Mends] using hp)

theorem mending?_eq_some (hn : row.Normal) (h : s.mending? row = some e) :
    0 < row.coefficient e ∧ e.kind ≠ .dummy ∧
      ∀ x, 0 < row.coefficient x → x.kind ≠ .dummy →
        s.objective.coefficient e / row.coefficient e
          ≤ s.objective.coefficient x / row.coefficient x := by
  rw [mending?_eq_offerAll] at h
  obtain ⟨⟨y, c⟩, hmem, hp, rfl, hmin⟩ := offerAll_eq_some h
  obtain ⟨rfl, -⟩ := hn.mem_entries_iff.1 hmem
  refine ⟨hp.1, hp.2, ?_⟩
  intro x hx hkind
  exact hmin (x, row.coefficient x) (hn.mem_entries_iff.2 ⟨rfl, hx.ne'⟩) ⟨hx, hkind⟩

theorem mending?_eq_none (hn : row.Normal) (h : s.mending? row = none) (he : e.kind ≠ .dummy) :
    row.coefficient e ≤ 0 := by
  rw [mending?_eq_offerAll] at h
  by_contra hpos
  rw [not_le] at hpos
  exact offerAll_eq_none h _ (hn.mem_entries_iff.2 ⟨rfl, hpos.ne'⟩) ⟨hpos, he⟩

/-! ### The choice at a removal -/

/-- Whether the growth of a symbol makes a restricted basic symbol greater. -/
def Grows (m : Symbol) (entry : Symbol × Row ℚ) : Prop :=
  entry.1.kind ≠ .external ∧ 0 < entry.2.coefficient m

instance (m : Symbol) : DecidablePred (Grows m) :=
  fun entry => inferInstanceAs (Decidable (entry.1.kind ≠ .external ∧ 0 < entry.2.coefficient m))

/-- The latest variable whose row speaks about a symbol. -/
def latestFree (m : Symbol) (best : Option Symbol) (l : List (Symbol × Row ℚ)) : Option Symbol :=
  l.foldl (fun best entry =>
    if entry.1.kind = .external ∧ entry.2.coefficient m ≠ 0 then some entry.1 else best) best

theorem latestFree_cases (m : Symbol) (best : Option Symbol) (l : List (Symbol × Row ℚ)) :
    (latestFree m best l = best ∧
      ∀ entry ∈ l, entry.1.kind = .external → entry.2.coefficient m = 0) ∨
    ∃ entry ∈ l, latestFree m best l = some entry.1 ∧ entry.1.kind = .external ∧
      entry.2.coefficient m ≠ 0 := by
  unfold latestFree
  induction l generalizing best with
  | nil => exact .inl ⟨rfl, by simp⟩
  | cons entry rest ih =>
    rw [List.foldl_cons]
    split
    · next hentry =>
      rcases ih (some entry.1) with ⟨heq, -⟩ | ⟨entry', hmem, heq⟩
      · exact .inr ⟨entry, List.mem_cons_self, heq, hentry⟩
      · exact .inr ⟨entry', List.mem_cons_of_mem _ hmem, heq⟩
    · next hentry =>
      rcases ih best with ⟨heq, hrest⟩ | ⟨entry', hmem, heq⟩
      · refine .inl ⟨heq, ?_⟩
        intro entry' hmem hkind
        rcases List.mem_cons.1 hmem with rfl | hmem
        · by_contra hne
          exact hentry ⟨hkind, hne⟩
        · exact hrest entry' hmem hkind
      · exact .inr ⟨entry', List.mem_cons_of_mem _ hmem, heq⟩

theorem givingWay?_eq (s : Solver ℚ) (m : Symbol) :
    s.givingWay? m
      = (((offerAll (Bounds m) (fun entry => -entry.2.constant / entry.2.coefficient m) Prod.fst none
            s.rows.entries).map Prod.snd
          <|> (offerAll (Grows m) (fun entry => entry.2.constant / entry.2.coefficient m) Prod.fst
            none s.rows.entries).map Prod.snd)
          <|> latestFree m none s.rows.entries) := by
  have hfold : ∀ (l : List (Symbol × Row ℚ)) (above below : Candidate ℚ) (free : Option Symbol),
      l.foldl (fun (best : Candidate ℚ × Candidate ℚ × Option Symbol) (entry : Symbol × Row ℚ) =>
          let (above, below, free) := best
          let c := entry.2.coefficient m
          if Scalar.same c Scalar.zero then best
          else if entry.1.kind == .external then (above, below, some entry.1)
          else if Scalar.isNegative c then
            (above.offer (-entry.2.constant / c) entry.1, below, free)
          else (above, below.offer (entry.2.constant / c) entry.1, free)) (above, below, free)
        = (offerAll (Bounds m) (fun entry => -entry.2.constant / entry.2.coefficient m) Prod.fst
              above l,
            offerAll (Grows m) (fun entry => entry.2.constant / entry.2.coefficient m) Prod.fst
              below l,
            latestFree m free l) := by
    intro l
    induction l with
    | nil =>
      intro above below free
      rfl
    | cons entry rest ih =>
      intro above below free
      unfold offerAll latestFree at *
      simp only [List.foldl_cons, Bounds, Grows, Scalar.same_rat, Scalar.zero_rat,
        Scalar.isNegative_rat, decide_eq_true_eq, beq_iff_eq] at *
      rcases lt_trichotomy (entry.2.coefficient m) 0 with hneg | hzero | hpos
      · by_cases hkind : entry.1.kind = .external
        · simp only [hkind, hneg.ne, hneg, if_true, if_false, ne_eq, not_true, not_false_eq_true,
            false_and, and_self]
          exact ih above below (some entry.1)
        · simp only [hkind, hneg.ne, hneg, hneg.not_gt, if_true, if_false, ne_eq, not_false_eq_true,
            false_and, and_self, and_false]
          exact ih _ below free
      · simp only [hzero, lt_self_iff_false, and_false, if_true, if_false, ne_eq, not_true]
        exact ih above below free
      · by_cases hkind : entry.1.kind = .external
        · simp only [hkind, hpos.ne', hpos, if_true, if_false, ne_eq, not_true, not_false_eq_true,
            false_and, and_self]
          exact ih above below (some entry.1)
        · simp only [hkind, hpos.ne', hpos, hpos.not_gt, if_true, if_false, ne_eq,
            not_false_eq_true, false_and, and_self, and_false]
          exact ih above _ free
  unfold givingWay?
  have := hfold s.rows.entries none none none
  dsimp only at this ⊢
  rw [this]

/-- What the row that gives way to a symbol is like: with it a pivot keeps restricted symbols from
turning negative, whatever becomes of the symbol itself. -/
inductive GivesWay (s : Solver ℚ) (m l : Symbol) (row : Row ℚ) : Prop
  | above (hl : l.kind ≠ .external) (hneg : row.coefficient m < 0)
      (hmin : ∀ b row', s.rows.get? b = some row' → b.kind ≠ .external → row'.coefficient m < 0 →
        -row.constant / row.coefficient m ≤ -row'.constant / row'.coefficient m)
  | below (hl : l.kind ≠ .external) (hpos : 0 < row.coefficient m)
      (hall : ∀ b row', s.rows.get? b = some row' → b.kind ≠ .external → 0 ≤ row'.coefficient m)
      (hmin : ∀ b row', s.rows.get? b = some row' → b.kind ≠ .external → 0 < row'.coefficient m →
        row.constant / row.coefficient m ≤ row'.constant / row'.coefficient m)
  | free (hl : l.kind = .external) (hne : row.coefficient m ≠ 0)
      (hall : ∀ b row', s.rows.get? b = some row' → b.kind ≠ .external → row'.coefficient m = 0)

theorem GivesWay.ne_zero (h : s.GivesWay m l row) : row.coefficient m ≠ 0 := by
  cases h with
  | above _ hneg _ => exact hneg.ne
  | below _ hpos _ _ => exact hpos.ne'
  | free _ hne _ => exact hne

theorem givingWay?_eq_some (ha : s.rows.Ascending) (h : s.givingWay? m = some l) :
    ∃ row, s.rows.get? l = some row ∧ s.GivesWay m l row := by
  rw [givingWay?_eq] at h
  cases habove : (offerAll (Bounds m) (fun entry => -entry.2.constant / entry.2.coefficient m)
      Prod.fst none s.rows.entries).map Prod.snd with
  | some x =>
    rw [habove] at h
    cases h
    obtain ⟨⟨x, row⟩, hmem, hp, rfl, hmin⟩ := offerAll_eq_some habove
    refine ⟨row, ha.mem_entries_iff.1 hmem, .above hp.1 hp.2 ?_⟩
    intro b row' hrow' hb hc
    exact hmin (b, row') (ha.mem_entries_iff.2 hrow') ⟨hb, hc⟩
  | none =>
    have hnonneg : ∀ b row', s.rows.get? b = some row' → b.kind ≠ .external →
        0 ≤ row'.coefficient m := by
      intro b row' hrow' hb
      by_contra hneg
      exact offerAll_eq_none habove _ (Table.mem_of_get? hrow') ⟨hb, not_le.1 hneg⟩
    cases hbelow : (offerAll (Grows m) (fun entry => entry.2.constant / entry.2.coefficient m)
        Prod.fst none s.rows.entries).map Prod.snd with
    | some x =>
      rw [habove, hbelow] at h
      cases h
      obtain ⟨⟨x, row⟩, hmem, hp, rfl, hmin⟩ := offerAll_eq_some hbelow
      refine ⟨row, ha.mem_entries_iff.1 hmem, .below hp.1 hp.2 hnonneg ?_⟩
      intro b row' hrow' hb hc
      exact hmin (b, row') (ha.mem_entries_iff.2 hrow') ⟨hb, hc⟩
    | none =>
      rw [habove, hbelow] at h
      have hzero : ∀ b row', s.rows.get? b = some row' → b.kind ≠ .external →
          row'.coefficient m = 0 := by
        intro b row' hrow' hb
        apply le_antisymm _ (hnonneg b row' hrow' hb)
        by_contra hpos
        exact offerAll_eq_none hbelow _ (Table.mem_of_get? hrow') ⟨hb, not_le.1 hpos⟩
      rcases latestFree_cases m none s.rows.entries with ⟨heq, -⟩ | ⟨⟨x, row⟩, hmem, heq, hkind, hne⟩
      · rw [heq] at h
        cases h
      · rw [heq] at h
        cases h
        exact ⟨row, ha.mem_entries_iff.1 hmem, .free hkind hne hzero⟩

theorem givingWay?_eq_none (h : s.givingWay? m = none) {b : Symbol}
    (hrow : s.rows.get? b = some row) : row.coefficient m = 0 := by
  rw [givingWay?_eq, Option.orElse_eq_none, Option.orElse_eq_none] at h
  obtain ⟨⟨habove, hbelow⟩, hfree⟩ := h
  have hmem := Table.mem_of_get? hrow
  by_cases hkind : b.kind = .external
  · rcases latestFree_cases m none s.rows.entries with ⟨-, hall⟩ | ⟨_, _, heq, _⟩
    · exact hall _ hmem hkind
    · rw [heq] at hfree
      cases hfree
  · apply le_antisymm
    · by_contra hpos
      exact offerAll_eq_none hbelow _ hmem ⟨hkind, not_le.1 hpos⟩
    · by_contra hneg
      exact offerAll_eq_none habove _ hmem ⟨hkind, not_le.1 hneg⟩

end Solver

end ReactiveView
