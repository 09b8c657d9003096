import ReactiveView.Proofs.Value.Equal

/-!
This module contains values without floats. Among them equality is an equivalence: it is because of
the floats that a value need not be equal to itself. Equal values refer to the same objects.
-/

namespace ReactiveView

namespace Value

mutual

/-- Whether there is no float in the value, in lists of any depth too. -/
def floatFree : Value → Bool
  | float _ => false
  | list items => floatFreeItems items
  | _ => true

/-- Whether there is no float in the values. -/
def floatFreeItems : List Value → Bool
  | [] => true
  | v :: rest => v.floatFree && floatFreeItems rest

end

mutual

theorem equal_self (v : Value) (h : v.floatFree = true) : v.equal v = true := by
  cases v with
  | float x => cases h
  | list vs =>
    rw [equal]
    exact equalItems_self_of_floatFree vs h
  | function f => cases f <;> simp [equal, Function.same]
  | _ => simp [equal]

theorem equalItems_self_of_floatFree (vs : List Value) (h : floatFreeItems vs = true) :
    equalItems vs vs = true := by
  cases vs with
  | nil => rw [equalItems]
  | cons v rest =>
    rw [floatFreeItems, Bool.and_eq_true] at h
    rw [equalItems, equal_self v h.1, equalItems_self_of_floatFree rest h.2]
    rfl

end

mutual

/-- Equal values without floats are equal to the same values. -/
theorem equal_congr (v w : Value) (hv : v.floatFree = true) (hw : w.floatFree = true)
    (h : v.equal w = true) (u : Value) : v.equal u = w.equal u := by
  cases v with
  | float x => cases hv
  | list vs =>
    cases w with
    | list ws =>
      rw [equal] at h
      cases u with
      | list us =>
        rw [equal, equal]
        exact equalItems_congr vs ws hv hw h us
      | _ => simp [equal]
    | _ => simp [equal] at h
  | function f =>
    cases w with
    | function g =>
      rw [equal] at h
      cases u with
      | function k =>
        rw [equal, equal]
        cases f <;> cases g <;> cases k <;> simp_all [Function.same]
      | _ => simp [equal]
    | _ => simp [equal] at h
  | _ =>
    cases w with
    | float y => cases hw
    | _ => cases u <;> simp_all [equal]

theorem equalItems_congr (vs ws : List Value) (hv : floatFreeItems vs = true)
    (hw : floatFreeItems ws = true) (h : equalItems vs ws = true) (us : List Value) :
    equalItems vs us = equalItems ws us := by
  cases vs with
  | nil =>
    cases ws with
    | nil => rfl
    | cons w ws => simp [equalItems] at h
  | cons v vs =>
    cases ws with
    | nil => simp [equalItems] at h
    | cons w ws =>
      rw [floatFreeItems, Bool.and_eq_true] at hv hw
      rw [equalItems, Bool.and_eq_true] at h
      cases us with
      | nil => simp [equalItems]
      | cons u us =>
        rw [equalItems, equalItems, equal_congr v w hv.1 hw.1 h.1,
          equalItems_congr vs ws hv.2 hw.2 h.2]

end

mutual

theorem map_id_references (v w : Value) (h : v.equal w = true) :
    v.references.map ObjectRef.id = w.references.map ObjectRef.id := by
  cases v with
  | list vs =>
    cases w with
    | list ws =>
      rw [equal] at h
      rw [references, references]
      exact map_id_referencesOf vs ws h
    | _ => simp [equal] at h
  | object o =>
    cases w with
    | object p => simpa [equal, references] using h
    | _ => simp [equal] at h
  | _ => cases w <;> simp_all [equal, references]

theorem map_id_referencesOf (vs ws : List Value) (h : equalItems vs ws = true) :
    (referencesOf vs).map ObjectRef.id = (referencesOf ws).map ObjectRef.id := by
  cases vs with
  | nil =>
    cases ws with
    | nil => rfl
    | cons w ws => simp [equalItems] at h
  | cons v vs =>
    cases ws with
    | nil => simp [equalItems] at h
    | cons w ws =>
      rw [equalItems, Bool.and_eq_true] at h
      rw [referencesOf, referencesOf, List.map_append, List.map_append, map_id_references v w h.1,
        map_id_referencesOf vs ws h.2]

end

end Value

end ReactiveView
