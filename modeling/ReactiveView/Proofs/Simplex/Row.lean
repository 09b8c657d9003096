import Mathlib
import ReactiveView.Linear.Exact
import ReactiveView.Proofs.Table.Ascending
import ReactiveView.Simplex.Row

/-!
This module contains rows as linear functions. What an operation on rows does is said by the value,
the coefficients and the constant of its result.
-/

namespace ReactiveView

instance : Std.TransOrd Symbol :=
  inferInstanceAs (Std.TransCmp
    (compareLex (compareOn Symbol.id) (compareOn fun s : Symbol => s.kind.rank)))

instance : Std.LawfulEqOrd Symbol where
  eq_of_compare {s t} h := by
    obtain ⟨hid, hrank⟩ := compareLex_eq_eq.1 h
    have hid : s.id = t.id := Std.LawfulEqOrd.eq_of_compare hid
    have hrank : s.kind.rank = t.kind.rank := Std.LawfulEqOrd.eq_of_compare hrank
    obtain ⟨_, kind⟩ := s
    obtain ⟨_, kind'⟩ := t
    cases kind <;> cases kind' <;> simp_all [SymbolKind.rank]

namespace Row

/-- The value of a row under an assignment of the symbols. -/
def eval (row : Row ℚ) (value : Symbol → ℚ) : ℚ :=
  row.constant + (row.cells.entries.map fun (s, c) => c * value s).sum

/-- The cells ascend and none of them is zero. -/
structure Normal (row : Row ℚ) : Prop where
  ascending : row.cells.Ascending
  nonzero : ∀ s, row.cells.get? s ≠ some 0

variable {row other d : Row ℚ} {s t l r : Symbol} {c v : ℚ} {value value' : Symbol → ℚ}

theorem coefficient_of_get? (h : row.cells.get? s = some c) : row.coefficient s = c := by
  unfold coefficient
  rw [h]
  rfl

theorem coefficient_of_get?_none (h : row.cells.get? s = none) : row.coefficient s = 0 := by
  unfold coefficient
  rw [h]
  rfl

theorem Normal.get?_eq_some_iff (h : row.Normal) :
    row.cells.get? s = some c ↔ row.coefficient s = c ∧ c ≠ 0 := by
  constructor
  · intro hs
    refine ⟨coefficient_of_get? hs, ?_⟩
    rintro rfl
    exact h.nonzero s hs
  · rintro ⟨rfl, hc⟩
    cases hs : row.cells.get? s with
    | none => exact absurd (coefficient_of_get?_none hs) hc
    | some c => rw [coefficient_of_get? hs]

theorem Normal.mem_entries_iff (h : row.Normal) :
    (s, c) ∈ row.cells.entries ↔ row.coefficient s = c ∧ c ≠ 0 := by
  rw [h.ascending.mem_entries_iff, h.get?_eq_some_iff]

theorem Normal.mem_keys_iff (h : row.Normal) : s ∈ row.cells.keys ↔ row.coefficient s ≠ 0 := by
  rw [Table.mem_keys_iff]
  constructor
  · rintro ⟨c, hc⟩
    obtain ⟨rfl, hc⟩ := h.get?_eq_some_iff.1 hc
    exact hc
  · intro hs
    exact ⟨_, h.get?_eq_some_iff.2 ⟨rfl, hs⟩⟩

theorem eval_congr (h : row.Normal)
    (hvalue : ∀ s, row.coefficient s ≠ 0 → value s = value' s) : row.eval value = row.eval value' := by
  unfold eval
  congr 2
  apply List.map_congr_left
  rintro ⟨s, c⟩ hs
  obtain ⟨rfl, hc⟩ := h.mem_entries_iff.1 hs
  simp only
  rw [hvalue s hc]

theorem eval_zero (row : Row ℚ) : row.eval (fun _ => 0) = row.constant := by
  simp [eval]

theorem eval_eq_remove (h : row.cells.Ascending) (s : Symbol) (value : Symbol → ℚ) :
    row.eval value = row.coefficient s * value s + (row.remove s).eval value := by
  unfold eval remove
  cases hs : row.cells.get? s with
  | none =>
    rw [coefficient_of_get?_none hs, Table.erase_eq_self hs]
    ring
  | some c =>
    rw [coefficient_of_get? hs, h.sum_erase hs]
    ring

theorem coefficient_remove (row : Row ℚ) (s t : Symbol) :
    (row.remove s).coefficient t = if t = s then 0 else row.coefficient t := by
  unfold coefficient remove
  rw [Table.get?_erase]
  split
  · rfl
  · rfl

theorem Normal.remove (h : row.Normal) (s : Symbol) : (row.remove s).Normal where
  ascending := h.ascending.erase s
  nonzero t := by
    unfold Row.remove
    rw [Table.get?_erase]
    split
    · simp
    · exact h.nonzero t

theorem eval_update (h : row.Normal) (s : Symbol) (v : ℚ) (value : Symbol → ℚ) :
    row.eval (Function.update value s v) = row.eval value + row.coefficient s * (v - value s) := by
  have hrest : (row.remove s).eval (Function.update value s v) = (row.remove s).eval value := by
    apply eval_congr (h.remove s)
    intro t ht
    rw [coefficient_remove] at ht
    split at ht
    · exact absurd rfl ht
    · next hts => exact Function.update_of_ne hts _ _
  rw [eval_eq_remove h.ascending s, hrest, eval_eq_remove h.ascending s value,
    Function.update_self]
  ring

theorem eval_single (h : row.Normal) (s : Symbol) :
    row.eval (Function.update (fun _ => 0) s 1) = row.constant + row.coefficient s := by
  rw [eval_update h, eval_zero]
  ring

theorem eval_update_of_coefficient (h : row.Normal) (hs : row.coefficient s = 0) :
    row.eval (Function.update value s v) = row.eval value := by
  rw [eval_update h, hs]
  ring

/-! ### Adding -/

theorem Normal.ofConstant (c : ℚ) : (ofConstant c).Normal where
  ascending := Table.Ascending.empty
  nonzero _ := by simp [Row.ofConstant]

@[simp]
theorem eval_ofConstant (c : ℚ) (value : Symbol → ℚ) : (ofConstant c).eval value = c := by
  simp [eval, ofConstant, Table.empty]

theorem addSymbol_eq (row : Row ℚ) (s : Symbol) (c : ℚ) :
    row.addSymbol s c
      = if row.coefficient s + c = 0 then row.remove s
        else { row with cells := row.cells.insert s (row.coefficient s + c) } := by
  unfold addSymbol
  by_cases h : row.coefficient s + c = 0
  · rw [if_pos h]
    exact if_pos (decide_eq_true h)
  · rw [if_neg h]
    exact if_neg (by simpa using h)

@[simp]
theorem constant_addSymbol (row : Row ℚ) (s : Symbol) (c : ℚ) :
    (row.addSymbol s c).constant = row.constant := by
  rw [addSymbol_eq]
  split <;> rfl

theorem coefficient_addSymbol (row : Row ℚ) (s t : Symbol) (c : ℚ) :
    (row.addSymbol s c).coefficient t = row.coefficient t + if t = s then c else 0 := by
  rw [addSymbol_eq]
  by_cases hts : t = s
  · subst hts
    rw [if_pos rfl]
    split
    · next h => rw [coefficient_remove, if_pos rfl, h]
    · unfold coefficient
      rw [Table.get?_insert_self, Option.getD_some]
  · rw [if_neg hts, add_zero]
    split
    · rw [coefficient_remove, if_neg hts]
    · unfold coefficient
      rw [Table.get?_insert_ne _ hts]

theorem eval_addSymbol (h : row.cells.Ascending) (s : Symbol) (c : ℚ) (value : Symbol → ℚ) :
    (row.addSymbol s c).eval value = row.eval value + c * value s := by
  rw [addSymbol_eq]
  split
  · next hc =>
    rw [eval_eq_remove h s, show c = -row.coefficient s by linarith]
    ring
  · rw [eval_eq_remove h s]
    unfold eval remove
    dsimp only
    rw [h.sum_insert]
    ring

theorem Normal.addSymbol (h : row.Normal) (s : Symbol) (c : ℚ) : (row.addSymbol s c).Normal := by
  rw [addSymbol_eq]
  split
  · exact h.remove s
  · next hc =>
    refine ⟨h.ascending.insert _ _, ?_⟩
    intro t
    rw [Table.get?_insert]
    split
    · simpa using hc
    · exact h.nonzero t

theorem Normal.addEntries (h : row.Normal) (l : List (Symbol × ℚ)) (c : ℚ) :
    (l.foldl (fun row e => row.addSymbol e.1 (e.2 * c)) row).Normal := by
  induction l generalizing row with
  | nil => exact h
  | cons e rest ih => exact ih (h.addSymbol _ _)

theorem eval_addEntries (h : row.Normal) (l : List (Symbol × ℚ)) (c : ℚ) (value : Symbol → ℚ) :
    (l.foldl (fun row e => row.addSymbol e.1 (e.2 * c)) row).eval value
      = row.eval value + c * (l.map fun e => e.2 * value e.1).sum := by
  induction l generalizing row with
  | nil => simp
  | cons e rest ih =>
    rw [List.foldl_cons, ih (h.addSymbol _ _), eval_addSymbol h.ascending, List.map_cons,
      List.sum_cons]
    ring

theorem Normal.shifted (h : row.Normal) (v : ℚ) : ({ row with constant := v } : Row ℚ).Normal :=
  ⟨h.ascending, h.nonzero⟩

theorem Normal.addRow (h : row.Normal) (other : Row ℚ) (c : ℚ) : (row.addRow other c).Normal :=
  (h.shifted _).addEntries _ _

theorem eval_addRow (h : row.Normal) (other : Row ℚ) (c : ℚ) (value : Symbol → ℚ) :
    (row.addRow other c).eval value = row.eval value + c * other.eval value := by
  unfold Row.addRow
  refine (eval_addEntries (h.shifted _) other.cells.entries c value).trans ?_
  unfold eval
  dsimp only
  ring

theorem constant_addRow (h : row.Normal) (other : Row ℚ) (c : ℚ) :
    (row.addRow other c).constant = row.constant + c * other.constant := by
  rw [← eval_zero, eval_addRow h, eval_zero, eval_zero]

theorem coefficient_addRow (h : row.Normal) (ho : other.Normal) (c : ℚ) (t : Symbol) :
    (row.addRow other c).coefficient t = row.coefficient t + c * other.coefficient t := by
  have := eval_single (h.addRow other c) t
  rw [eval_addRow h, constant_addRow h, eval_single h, eval_single ho] at this
  linarith

/-! ### Rewriting -/

theorem coefficient_add (row : Row ℚ) (v : ℚ) (t : Symbol) :
    (row.add v).coefficient t = row.coefficient t := rfl

@[simp]
theorem constant_add (row : Row ℚ) (v : ℚ) : (row.add v).constant = row.constant + v := rfl

theorem eval_add (row : Row ℚ) (v : ℚ) (value : Symbol → ℚ) :
    (row.add v).eval value = row.eval value + v := by
  unfold eval add
  dsimp only
  ring

theorem Normal.add (h : row.Normal) (v : ℚ) : (row.add v).Normal :=
  h.shifted _

theorem eval_mapValues (cells : Table Symbol ℚ) (factor constant : ℚ) (value : Symbol → ℚ) :
    eval { cells := cells.mapValues fun d => d * factor, constant := constant * factor } value
      = eval { cells, constant } value * factor := by
  unfold eval Table.mapValues
  dsimp only
  rw [add_mul, ← List.sum_map_mul_right, List.map_map]
  congr 2
  apply List.map_congr_left
  intro e _
  simp only [Function.comp]
  ring

theorem Normal.mapValues {cells : Table Symbol ℚ} {constant : ℚ}
    (h : ({ cells, constant } : Row ℚ).Normal) {f : ℚ → ℚ} (hf : ∀ c, f c = 0 → c = 0) (v : ℚ) :
    ({ cells := cells.mapValues f, constant := v } : Row ℚ).Normal where
  ascending := h.ascending.mapValues f
  nonzero s hs := by
    rw [Table.get?_mapValues, Option.map_eq_some_iff] at hs
    obtain ⟨c, hc, hzero⟩ := hs
    rw [hf c hzero] at hc
    exact h.nonzero s hc

theorem negated_eq (row : Row ℚ) :
    row.negated = { cells := row.cells.mapValues fun d => d * (-1), constant := row.constant * (-1) } := by
  unfold negated
  simp only [mul_neg, mul_one]

theorem Normal.negated (h : row.Normal) : row.negated.Normal :=
  h.mapValues (fun _ hc => neg_eq_zero.1 hc) _

@[simp]
theorem constant_negated (row : Row ℚ) : row.negated.constant = -row.constant := rfl

theorem eval_negated (row : Row ℚ) (value : Symbol → ℚ) :
    row.negated.eval value = -row.eval value := by
  rw [negated_eq, eval_mapValues]
  ring

theorem coefficient_negated (row : Row ℚ) (t : Symbol) :
    row.negated.coefficient t = -row.coefficient t := by
  unfold coefficient negated
  rw [Table.get?_mapValues]
  cases row.cells.get? t with
  | none => simp
  | some c => rfl

/-- Solving for a symbol divides by minus its coefficient. -/
theorem solvedFor_eq (h : row.Normal) (hs : row.coefficient s ≠ 0) :
    row.solvedFor s
      = { cells := (row.remove s).cells.mapValues fun d => d * (-1 / row.coefficient s)
          constant := (row.remove s).constant * (-1 / row.coefficient s) } := by
  unfold solvedFor
  rw [h.get?_eq_some_iff.2 ⟨rfl, hs⟩]
  simp only [Scalar.ofInt_rat, Int.cast_neg, Int.cast_one]
  rfl

theorem Normal.solvedFor (h : row.Normal) (hs : row.coefficient s ≠ 0) :
    (row.solvedFor s).Normal := by
  rw [solvedFor_eq h hs]
  refine (h.remove s).mapValues ?_ _
  intro c hc
  rcases mul_eq_zero.1 hc with hc | hc
  · exact hc
  · exact absurd hc (div_ne_zero (by norm_num) hs)

theorem eval_solvedFor (h : row.Normal) (hs : row.coefficient s ≠ 0) (value : Symbol → ℚ) :
    (row.solvedFor s).eval value = value s - row.eval value / row.coefficient s := by
  rw [solvedFor_eq h hs, eval_mapValues, eval_eq_remove h.ascending s value]
  field_simp
  ring

theorem constant_solvedFor (h : row.Normal) (hs : row.coefficient s ≠ 0) :
    (row.solvedFor s).constant = -row.constant / row.coefficient s := by
  rw [← eval_zero, eval_solvedFor h hs, eval_zero]
  ring

theorem coefficient_solvedFor (h : row.Normal) (hs : row.coefficient s ≠ 0) (t : Symbol) :
    (row.solvedFor s).coefficient t
      = if t = s then 0 else -row.coefficient t / row.coefficient s := by
  have := eval_single (h.solvedFor hs) t
  rw [eval_solvedFor h hs, constant_solvedFor h hs, eval_single h] at this
  split
  · next hts =>
    subst hts
    rw [Function.update_self] at this
    field_simp at this
    have hzero : row.coefficient t * (row.solvedFor t).coefficient t = 0 := by linarith
    exact (mul_eq_zero.1 hzero).resolve_left hs
  · next hts =>
    rw [Function.update_of_ne (Ne.symm hts)] at this
    field_simp at this ⊢
    linarith

/-- The solved row says what the row equated to zero says. -/
theorem eq_eval_solvedFor_iff (h : row.Normal) (hs : row.coefficient s ≠ 0) :
    value s = (row.solvedFor s).eval value ↔ row.eval value = 0 := by
  rw [eval_solvedFor h hs]
  constructor
  · intro heq
    have : row.eval value / row.coefficient s = 0 := by linarith
    rcases div_eq_zero_iff.1 this with h0 | h0
    · exact h0
    · exact absurd h0 hs
  · intro heq
    rw [heq]
    ring

theorem coefficient_entering (row : Row ℚ) (hlr : l ≠ r) :
    (row.addSymbol l (Scalar.ofInt (-1))).coefficient r = row.coefficient r := by
  rw [coefficient_addSymbol, if_neg hlr.symm, add_zero]

section Exchange

variable (h : row.Normal) (hlr : l ≠ r) (hr : row.coefficient r ≠ 0)
include h hlr hr

theorem Normal.exchanged : (row.exchanged l r).Normal := by
  apply (h.addSymbol l _).solvedFor
  rw [coefficient_entering row hlr]
  exact hr

theorem constant_exchanged : (row.exchanged l r).constant = -row.constant / row.coefficient r := by
  unfold Row.exchanged
  have hr' := coefficient_entering row hlr
  rw [constant_solvedFor (h.addSymbol l _) (hr' ▸ hr), hr', constant_addSymbol]

theorem coefficient_exchanged (t : Symbol) :
    (row.exchanged l r).coefficient t
      = if t = r then 0 else (-row.coefficient t + if t = l then 1 else 0) / row.coefficient r := by
  unfold Row.exchanged
  have hr' := coefficient_entering row hlr
  rw [coefficient_solvedFor (h.addSymbol l _) (hr' ▸ hr), hr', coefficient_addSymbol]
  split
  · rfl
  · split
    · rw [Scalar.ofInt_rat]
      push_cast
      ring
    · ring

/-- The exchanged row says what the row said. -/
theorem eq_eval_exchanged_iff :
    value r = (row.exchanged l r).eval value ↔ value l = row.eval value := by
  have hr' := coefficient_entering row hlr
  unfold Row.exchanged
  rw [eq_eval_solvedFor_iff (h.addSymbol l _) (hr' ▸ hr), eval_addSymbol h.ascending,
    Scalar.ofInt_rat]
  push_cast
  constructor
  · intro h0
    linarith
  · intro h0
    linarith

end Exchange

theorem substitute_eq (h : row.Normal) (s : Symbol) (d : Row ℚ) :
    row.substitute s d
      = if row.coefficient s = 0 then row else (row.remove s).addRow d (row.coefficient s) := by
  unfold substitute
  cases hs : row.cells.get? s with
  | none => rw [coefficient_of_get?_none hs, if_pos rfl]
  | some c =>
    obtain ⟨rfl, hc⟩ := h.get?_eq_some_iff.1 hs
    rw [if_neg hc]

theorem Normal.substitute (h : row.Normal) (s : Symbol) (d : Row ℚ) :
    (row.substitute s d).Normal := by
  rw [substitute_eq h]
  split
  · exact h
  · exact (h.remove s).addRow _ _

theorem eval_substitute (h : row.Normal) (s : Symbol) (d : Row ℚ) (value : Symbol → ℚ) :
    (row.substitute s d).eval value
      = row.eval value + row.coefficient s * (d.eval value - value s) := by
  rw [substitute_eq h]
  split
  · next hs =>
    rw [hs]
    ring
  · rw [eval_addRow (h.remove s), eval_eq_remove h.ascending s]
    ring

theorem constant_substitute (h : row.Normal) (s : Symbol) (d : Row ℚ) :
    (row.substitute s d).constant = row.constant + row.coefficient s * d.constant := by
  rw [← eval_zero, eval_substitute h, eval_zero, eval_zero]
  ring

theorem coefficient_substitute (h : row.Normal) (hd : d.Normal) (s t : Symbol) :
    (row.substitute s d).coefficient t
      = row.coefficient t + row.coefficient s * (d.coefficient t - if t = s then 1 else 0) := by
  have := eval_single (h.substitute s d) t
  rw [eval_substitute h, constant_substitute h, eval_single h, eval_single hd,
    Function.update_apply] at this
  simp only [eq_comm (a := s)] at this
  linarith

/-- A row without the symbol stays as it is. -/
theorem substitute_of_coefficient (h : row.Normal) (hs : row.coefficient s = 0) (d : Row ℚ) :
    row.substitute s d = row := by
  rw [substitute_eq h, if_pos hs]

end Row

end ReactiveView
