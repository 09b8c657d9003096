import Mathlib
import ReactiveView.Table

/-!
This module contains the order of a `Table`. Keys that ascend do so after every operation, and as
long as they ascend the entries of a table and its look-ups say the same.
-/

namespace ReactiveView

namespace Table

variable {κ : Type*} {α β : Type*}

/-- The keys ascend. -/
def Ascending [Ord κ] (t : Table κ α) : Prop :=
  t.entries.Pairwise fun a b => compare a.1 b.1 = .lt

section Lookup

variable [DecidableEq κ]

theorem mem_of_lookup {k : κ} {a : α} {l : List (κ × α)} (h : lookup k l = some a) :
    (k, a) ∈ l := by
  induction l with
  | nil => simp [lookup] at h
  | cons e rest ih =>
    rw [lookup] at h
    split at h
    · next hk =>
      cases h
      rw [hk]
      exact List.mem_cons_self
    · exact List.mem_cons_of_mem _ (ih h)

theorem mem_of_get? {t : Table κ α} {k : κ} {a : α} (h : t.get? k = some a) :
    (k, a) ∈ t.entries :=
  mem_of_lookup h

theorem lookup_ne_none_of_mem {k : κ} {a : α} {l : List (κ × α)} (h : (k, a) ∈ l) :
    lookup k l ≠ none := by
  induction l with
  | nil => simp at h
  | cons e rest ih =>
    rw [lookup]
    split
    · simp
    · next hk =>
      rcases List.mem_cons.1 h with rfl | h
      · exact absurd rfl hk
      · exact ih h

/-- A table whose entries are made from their keys. -/
theorem lookup_map_key {γ : Type*} (f : κ → γ) (k : κ) (l : List (κ × β)) :
    lookup k (l.map fun (k, _) => (k, f k)) = (lookup k l).map fun _ => f k := by
  induction l with
  | nil => rfl
  | cons entry rest ih =>
    rw [List.map_cons, lookup, lookup]
    split
    · next hk =>
      subst hk
      rfl
    · exact ih

theorem mem_keys_iff {t : Table κ α} {k : κ} : k ∈ t.keys ↔ ∃ a, t.get? k = some a := by
  constructor
  · intro h
    obtain ⟨⟨k', a⟩, hmem, rfl⟩ := List.mem_map.1 h
    exact Option.ne_none_iff_exists'.1 (lookup_ne_none_of_mem hmem)
  · rintro ⟨a, h⟩
    exact List.mem_map.2 ⟨(k, a), mem_of_get? h, rfl⟩

theorem get?_erase (t : Table κ α) (k k' : κ) :
    (t.erase k).get? k' = if k' = k then none else t.get? k' := by
  by_cases h : k' = k
  · simp [h]
  · simp [h, get?_erase_ne]

theorem of_get?_erase {t : Table κ α} {k k' : κ} {a : α} (h : (t.erase k).get? k' = some a) :
    k' ≠ k ∧ t.get? k' = some a := by
  rw [get?_erase] at h
  split at h
  · cases h
  · next hne => exact ⟨hne, h⟩

/-- What is found after an insertion is the new entry or an old one. -/
theorem of_get?_insert [Ord κ] {t : Table κ α} {k k' : κ} {a b : α}
    (h : (t.insert k a).get? k' = some b) : k' = k ∧ b = a ∨ t.get? k' = some b := by
  rw [get?_insert] at h
  split at h
  · next heq =>
    cases h
    exact .inl ⟨heq, rfl⟩
  · exact .inr h

theorem contains_iff {t : Table κ α} {k : κ} : t.contains k = true ↔ ∃ a, t.get? k = some a := by
  rw [contains, Option.isSome_iff_exists]

theorem not_contains_iff {t : Table κ α} {k : κ} : ¬t.contains k = true ↔ t.get? k = none := by
  rw [contains, Bool.not_eq_true, Option.isSome_eq_false_iff, Option.isNone_iff_eq_none]

theorem erase_eq_self {t : Table κ α} {k : κ} (h : t.get? k = none) : t.erase k = t := by
  unfold erase
  congr 1
  apply List.filter_eq_self.2
  intro e he
  simp only [ne_eq, decide_not, Bool.not_eq_eq_eq_not, Bool.not_true, decide_eq_false_iff_not]
  rintro rfl
  exact lookup_ne_none_of_mem he h

end Lookup

section Order

variable [Ord κ]

theorem Ascending.empty : (empty : Table κ α).Ascending :=
  List.Pairwise.nil

theorem Ascending.mapValues {t : Table κ α} (h : t.Ascending) (f : α → β) :
    (t.mapValues f).Ascending := by
  unfold Ascending Table.mapValues
  exact List.Pairwise.map _ (fun _ _ hlt => hlt) h

theorem Ascending.erase [DecidableEq κ] {t : Table κ α} (h : t.Ascending) (k : κ) :
    (t.erase k).Ascending :=
  List.Pairwise.filter _ h

theorem mem_insertEntry [DecidableEq κ] {k : κ} {a : α} {e : κ × α} {l : List (κ × α)}
    (h : e ∈ insertEntry k a l) : e = (k, a) ∨ e ∈ l := by
  induction l with
  | nil => simpa [insertEntry] using h
  | cons e' rest ih =>
    rw [insertEntry] at h
    split at h
    · rcases List.mem_cons.1 h with h | h
      · exact .inl h
      · exact .inr (List.mem_cons_of_mem _ h)
    · split at h
      · exact List.mem_cons.1 h
      · rcases List.mem_cons.1 h with h | h
        · exact .inr (h ▸ List.mem_cons_self)
        · exact (ih h).imp_right (List.mem_cons_of_mem _)

/-- An entry is still there after an insertion, unless it is the one that is replaced. -/
theorem mem_insertEntry_of_mem [DecidableEq κ] {k : κ} {a : α} {e : κ × α} {l : List (κ × α)} (h : e ∈ l) :
    e ∈ insertEntry k a l ∨ lookup k l = some e.2 := by
  induction l with
  | nil => cases h
  | cons e' rest ih =>
    rw [insertEntry, lookup]
    split
    · rcases List.mem_cons.1 h with rfl | h
      · exact .inr rfl
      · exact .inl (List.mem_cons_of_mem _ h)
    · split
      · exact .inl (List.mem_cons_of_mem _ h)
      · rcases List.mem_cons.1 h with rfl | h
        · exact .inl (List.mem_cons_self ..)
        · exact (ih h).imp_left (List.mem_cons_of_mem _)

theorem insertEntry_perm [DecidableEq κ] {k : κ} (a : α) {l : List (κ × α)}
    (h : lookup k l = none) : (insertEntry k a l).Perm ((k, a) :: l) := by
  induction l with
  | nil => simp [insertEntry]
  | cons e rest ih =>
    rw [lookup] at h
    split at h
    · cases h
    · next hk =>
      rw [insertEntry, if_neg hk]
      split
      · rfl
      · exact ((ih h).cons e).trans (.swap _ _ _)

/-- The entry of a new key comes in; the order of the other entries is not looked at. -/
theorem insert_perm [DecidableEq κ] {t : Table κ α} {k : κ} (a : α) (h : t.get? k = none) :
    (t.insert k a).entries.Perm ((k, a) :: t.entries) :=
  insertEntry_perm a h

theorem filter_insertEntry [DecidableEq κ] (k : κ) (a : α) (l : List (κ × α)) :
    (insertEntry k a l).filter (fun e => decide (k ≠ e.1))
      = l.filter (fun e => decide (k ≠ e.1)) := by
  induction l with
  | nil => simp [insertEntry]
  | cons e rest ih =>
    rw [insertEntry]
    split
    · next hk => rw [List.filter_cons_of_neg (by simp), List.filter_cons_of_neg (by simp [hk])]
    · next hk =>
      split
      · rw [List.filter_cons_of_neg (by simp)]
      · rw [List.filter_cons_of_pos (by simpa using hk), List.filter_cons_of_pos (by simpa using hk),
          ih]

@[simp]
theorem erase_insert_self [DecidableEq κ] (t : Table κ α) (k : κ) (a : α) :
    (t.insert k a).erase k = t.erase k :=
  congrArg Table.mk (filter_insertEntry k a t.entries)

theorem erase_insert [DecidableEq κ] {t : Table κ α} {k : κ} (a : α) (h : t.get? k = none) :
    (t.insert k a).erase k = t := by
  rw [erase_insert_self, erase_eq_self h]

end Order

section Lawful

variable [Ord κ] [Std.LawfulEqOrd κ]

theorem compare_lt_of_not [Std.OrientedOrd κ] {k k' : κ} (hne : k ≠ k')
    (hlt : ¬compare k k' = .lt) : compare k' k = .lt := by
  cases h : compare k k' with
  | lt => exact absurd h hlt
  | eq => exact absurd (Std.LawfulEqOrd.eq_of_compare h) hne
  | gt => exact Std.OrientedCmp.gt_iff_lt.1 h

variable [DecidableEq κ]

theorem Ascending.lookup_eq_some [Std.OrientedOrd κ] {k : κ} {a : α} {l : List (κ × α)}
    (h : l.Pairwise fun a b => compare a.1 b.1 = .lt) (hmem : (k, a) ∈ l) :
    lookup k l = some a := by
  induction l with
  | nil => simp at hmem
  | cons e rest ih =>
    obtain ⟨hhead, htail⟩ := List.pairwise_cons.1 h
    rw [lookup]
    rcases List.mem_cons.1 hmem with rfl | hmem
    · simp
    · split
      · next hk =>
        have := hhead _ hmem
        rw [hk, Std.ReflOrd.compare_self] at this
        cases this
      · exact ih htail hmem

theorem Ascending.mem_entries_iff [Std.OrientedOrd κ] {t : Table κ α} (h : t.Ascending) {k : κ}
    {a : α} : (k, a) ∈ t.entries ↔ t.get? k = some a :=
  ⟨fun hmem => Ascending.lookup_eq_some h hmem, mem_of_get?⟩

variable [Std.TransOrd κ]

theorem Ascending.insert {t : Table κ α} (h : t.Ascending) (k : κ) (a : α) :
    (t.insert k a).Ascending := by
  obtain ⟨l⟩ := t
  unfold Ascending Table.insert at *
  dsimp only at *
  induction l with
  | nil => simp [insertEntry]
  | cons e rest ih =>
    obtain ⟨hhead, htail⟩ := List.pairwise_cons.1 h
    rw [insertEntry]
    split
    · next hk => exact List.pairwise_cons.2 ⟨hk ▸ hhead, htail⟩
    · next hk =>
      split
      · next hlt =>
        refine List.pairwise_cons.2 ⟨?_, h⟩
        intro e' he'
        rcases List.mem_cons.1 he' with rfl | he'
        · exact hlt
        · exact Std.TransCmp.lt_trans hlt (hhead e' he')
      · next hlt =>
        refine List.pairwise_cons.2 ⟨?_, ih htail⟩
        intro e' he'
        rcases mem_insertEntry he' with rfl | he'
        · exact compare_lt_of_not hk hlt
        · exact hhead e' he'

omit [DecidableEq κ] [Std.TransOrd κ] in
theorem Ascending.nodup_keys {t : Table κ α} (h : t.Ascending) :
    (t.entries.map Prod.fst).Nodup := by
  apply List.Pairwise.map _ _ h
  intro e e' hlt heq
  rw [heq, Std.ReflOrd.compare_self] at hlt
  cases hlt

/-- The entry of a key goes, and no other one. -/
theorem Ascending.erase_perm {t : Table κ α} (h : t.Ascending) {k : κ} {a : α}
    (hk : t.get? k = some a) : t.entries.Perm ((k, a) :: (t.erase k).entries) := by
  have hnodup : t.entries.Nodup := by
    apply h.imp
    rintro e e' hlt rfl
    rw [Std.ReflOrd.compare_self] at hlt
    cases hlt
  apply (List.perm_ext_iff_of_nodup hnodup ?_).2
  · rintro ⟨k', a'⟩
    rw [List.mem_cons, h.mem_entries_iff, (h.erase k).mem_entries_iff, get?_erase]
    by_cases hk' : k' = k
    · subst hk'
      simp [hk, eq_comm]
    · simp [hk']
  · refine List.nodup_cons.2 ⟨?_, hnodup.filter _⟩
    rw [(h.erase k).mem_entries_iff]
    simp

theorem Ascending.sum_erase {t : Table κ α} (h : t.Ascending) {k : κ} {a : α}
    (hk : t.get? k = some a) (f : κ × α → ℚ) :
    (t.entries.map f).sum = f (k, a) + ((t.erase k).entries.map f).sum := by
  rw [((h.erase_perm hk).map f).sum_eq, List.map_cons, List.sum_cons]

theorem Ascending.sum_insert {t : Table κ α} (h : t.Ascending) (k : κ) (a : α) (f : κ × α → ℚ) :
    ((t.insert k a).entries.map f).sum = f (k, a) + ((t.erase k).entries.map f).sum := by
  rw [(h.insert k a).sum_erase (get?_insert_self t k a), erase_insert_self]

end Lawful

end Table

end ReactiveView
