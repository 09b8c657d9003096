/-!
This module contains `Table`, a finite map kept as a list of entries in ascending key order. Every
order that a reader of this library can see (attributes of an object, names of a namespace, columns
of a tableau row) is the order of the keys of such a table.

The look-up lemmas hold for any list of entries, sorted or not, because insertion replaces an equal
key where it meets it and erasure removes every equal key.
-/

namespace ReactiveView

universe u v w

/--
A finite map from `κ` to `α`, listed in ascending order of the keys.
-/
structure Table (κ : Type u) (α : Type v) where
  /-- The entries, keys ascending. -/
  entries : List (κ × α) := []

namespace Table

variable {κ : Type u} {α : Type v} {β : Type w}

/-- The table without entries. -/
def empty : Table κ α := { entries := [] }

instance : Inhabited (Table κ α) := ⟨empty⟩

/-- The keys, ascending. -/
def keys (t : Table κ α) : List κ := t.entries.map Prod.fst

/-- The values, in the order of their keys. -/
def values (t : Table κ α) : List α := t.entries.map Prod.snd

/-- The number of entries. -/
def size (t : Table κ α) : Nat := t.entries.length

/-- Whether there is no entry. -/
def isEmpty (t : Table κ α) : Bool := t.entries.isEmpty

/-- The same keys with other values. -/
def mapValues (f : α → β) (t : Table κ α) : Table κ β :=
  { entries := t.entries.map fun (k, a) => (k, f a) }

/-- Keep the entries that satisfy `p`. -/
def filter (p : κ → α → Bool) (t : Table κ α) : Table κ α :=
  { entries := t.entries.filter fun (k, a) => p k a }

/-- The first entry, in key order, that satisfies `p`. -/
def findEntry? (p : κ → α → Bool) (t : Table κ α) : Option (κ × α) :=
  t.entries.find? fun (k, a) => p k a

section Lookup

variable [DecidableEq κ]

/-- The value of the first entry with key `k`. -/
def lookup (k : κ) : List (κ × α) → Option α
  | [] => none
  | (k', a) :: rest => if k = k' then some a else lookup k rest

/-- The value at `k`, if there is one. -/
def get? (t : Table κ α) (k : κ) : Option α := lookup k t.entries

/-- Whether `k` has a value. -/
def contains (t : Table κ α) (k : κ) : Bool := (t.get? k).isSome

/-- The table without the key `k`. -/
def erase (t : Table κ α) (k : κ) : Table κ α :=
  { entries := t.entries.filter fun (k', _) => decide (k ≠ k') }

theorem lookup_filter_ne_self (k : κ) (l : List (κ × α)) :
    lookup k (l.filter fun (k', _) => decide (k ≠ k')) = none := by
  induction l with
  | nil => rfl
  | cons e rest ih =>
    by_cases h : k = e.1 <;> simp_all [List.filter, lookup]

theorem lookup_filter_ne {k k' : κ} (h : k' ≠ k) (l : List (κ × α)) :
    lookup k' (l.filter fun (j, _) => decide (k ≠ j)) = lookup k' l := by
  induction l with
  | nil => rfl
  | cons e rest ih =>
    by_cases hk : k = e.1
    · have : k' ≠ e.1 := hk ▸ h
      simp_all [List.filter, lookup]
    · simp_all [List.filter, lookup]

@[simp]
theorem get?_empty (k : κ) : (empty : Table κ α).get? k = none := rfl

@[simp]
theorem get?_erase_self (t : Table κ α) (k : κ) : (t.erase k).get? k = none :=
  lookup_filter_ne_self k t.entries

theorem get?_erase_ne (t : Table κ α) {k k' : κ} (h : k' ≠ k) :
    (t.erase k).get? k' = t.get? k' :=
  lookup_filter_ne h t.entries

theorem lookup_map_snd (f : α → β) (k : κ) (l : List (κ × α)) :
    lookup k (l.map fun (j, a) => (j, f a)) = (lookup k l).map f := by
  induction l with
  | nil => rfl
  | cons e rest ih => by_cases h : k = e.1 <;> simp_all [lookup]

@[simp]
theorem get?_mapValues (f : α → β) (t : Table κ α) (k : κ) :
    (t.mapValues f).get? k = (t.get? k).map f :=
  lookup_map_snd f k t.entries

end Lookup

section Insert

variable [DecidableEq κ] [Ord κ]

/-- Put `a` at `k`: in place of an equal key, else in front of the first greater one. -/
def insertEntry (k : κ) (a : α) : List (κ × α) → List (κ × α)
  | [] => [(k, a)]
  | (k', a') :: rest =>
    if k = k' then (k, a) :: rest
    else if compare k k' = .lt then (k, a) :: (k', a') :: rest
    else (k', a') :: insertEntry k a rest

/-- Set the value at `k`. -/
def insert (t : Table κ α) (k : κ) (a : α) : Table κ α :=
  { entries := insertEntry k a t.entries }

/-- Build a table from pairs; a later pair overrides an earlier one of the same key. -/
def ofList (l : List (κ × α)) : Table κ α :=
  l.foldl (fun t (k, a) => t.insert k a) empty

/-- Copy every entry of `other` in, overriding equal keys. -/
def merge (t other : Table κ α) : Table κ α :=
  other.entries.foldl (fun t (k, a) => t.insert k a) t

/-- Replace the value at `k`, if there is one, by its image under `f`. -/
def modify (t : Table κ α) (k : κ) (f : α → α) : Table κ α :=
  match t.get? k with
  | some a => t.insert k (f a)
  | none => t

theorem lookup_insertEntry_self (k : κ) (a : α) (l : List (κ × α)) :
    lookup k (insertEntry k a l) = some a := by
  induction l with
  | nil => simp [insertEntry, lookup]
  | cons e rest ih =>
    rw [insertEntry]
    split
    · simp [lookup]
    · split <;> simp_all [lookup]

theorem lookup_insertEntry_ne {k k' : κ} (h : k' ≠ k) (a : α) (l : List (κ × α)) :
    lookup k' (insertEntry k a l) = lookup k' l := by
  induction l with
  | nil => simp [insertEntry, lookup, h]
  | cons e rest ih =>
    rw [insertEntry]
    split
    · rename_i hk
      have : k' ≠ e.1 := hk ▸ h
      simp [lookup, h, this]
    · split
      · simp [lookup, h]
      · simp [lookup, ih]

@[simp]
theorem get?_insert_self (t : Table κ α) (k : κ) (a : α) : (t.insert k a).get? k = some a :=
  lookup_insertEntry_self k a t.entries

theorem get?_insert_ne (t : Table κ α) {k k' : κ} (h : k' ≠ k) (a : α) :
    (t.insert k a).get? k' = t.get? k' :=
  lookup_insertEntry_ne h a t.entries

theorem get?_insert (t : Table κ α) (k k' : κ) (a : α) :
    (t.insert k a).get? k' = if k' = k then some a else t.get? k' := by
  by_cases h : k' = k
  · simp [h]
  · simp [h, get?_insert_ne]

end Insert

end Table

end ReactiveView
