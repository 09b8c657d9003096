import ReactiveView.Store

/-!
This module contains what the operations of a store change and what they leave alone: putting a
value changes one attribute, freeing changes one object, and neither changes what an object accepts.
-/

namespace ReactiveView

/-- An attribute of an object. -/
abbrev Slot := Nat × String

namespace Store

variable {store : Store} {o o' : ObjectRef} {attr attr' : String} {v : Value} {id : Nat}

/-- What an object accepts. -/
def shape? (store : Store) (id : Nat) : Option Shape := store.objects[id]?.map Obj.shape

theorem get?_congr (h : o.id = o'.id) (attr : String) :
    store.get? o attr = store.get? o' attr := by
  unfold get? attrs
  rw [h]

/-! ### Putting -/

theorem objects_put (store : Store) (o : ObjectRef) (attr : String) (v : Value) (id : Nat) :
    (store.put o attr v).objects[id]? =
      if o.id = id then store.objects[id]?.map fun obj =>
        { obj with attrs := obj.attrs.insert attr v }
      else store.objects[id]? := by
  unfold put
  rw [Array.getElem?_modify]

@[simp]
theorem size_put : (store.put o attr v).objects.size = store.objects.size := by
  unfold put
  exact Array.size_modify

@[simp]
theorem isAlive_put : (store.put o attr v).isAlive id = store.isAlive id := by
  unfold isAlive
  rw [objects_put]
  rcases Decidable.em (o.id = id) with he | hne
  · rw [if_pos he]
    cases store.objects[id]? <;> rfl
  · rw [if_neg hne]

@[simp]
theorem shape?_put : (store.put o attr v).shape? id = store.shape? id := by
  unfold shape?
  rw [objects_put]
  split
  · cases store.objects[id]? <;> rfl
  · rfl

theorem attrs_put_ne (h : o.id ≠ o'.id) : (store.put o attr v).attrs o' = store.attrs o' := by
  unfold attrs
  rw [objects_put, if_neg h]

theorem attrs_put_self (h : o.id < store.objects.size) (he : o.id = o'.id) :
    (store.put o attr v).attrs o' = (store.attrs o').insert attr v := by
  have h' : o'.id < store.objects.size := he ▸ h
  unfold attrs
  rw [objects_put, if_pos he]
  simp [Array.getElem?_eq_getElem h']

theorem get?_put_self (h : o.id < store.objects.size) (he : o.id = o'.id) :
    (store.put o attr v).get? o' attr = some v := by
  unfold get?
  rw [attrs_put_self h he, Table.get?_insert_self]

theorem attrs_put_of_le (h : store.objects.size ≤ o.id) :
    (store.put o attr v).attrs o' = store.attrs o' := by
  rcases Decidable.em (o.id = o'.id) with he | he
  · have hnone : store.objects[o'.id]? = none := Array.getElem?_eq_none (he ▸ h)
    unfold attrs
    rw [objects_put, if_pos he, hnone]
    rfl
  · exact attrs_put_ne he

theorem get?_put_ne (h : ¬(o'.id = o.id ∧ attr' = attr)) :
    (store.put o attr v).get? o' attr' = store.get? o' attr' := by
  unfold get?
  rcases Decidable.em (o.id = o'.id) with he | he
  · have hattr : attr' ≠ attr := fun ha => h ⟨he.symm, ha⟩
    rcases Nat.lt_or_ge o.id store.objects.size with hlt | hge
    · rw [attrs_put_self hlt he, Table.get?_insert_ne _ hattr]
    · rw [attrs_put_of_le hge]
  · rw [attrs_put_ne he]

theorem has_put (h : store.has o' attr' = true) : (store.put o attr v).has o' attr' = true := by
  rcases Decidable.em (o'.id = o.id ∧ attr' = attr) with he | hne
  · obtain ⟨hid, rfl⟩ := he
    rcases Nat.lt_or_ge o.id store.objects.size with hlt | hge
    · unfold has
      rw [get?_put_self hlt hid.symm]
      rfl
    · unfold has get? at h ⊢
      rwa [attrs_put_of_le hge]
  · unfold has
    rwa [get?_put_ne hne]

/-! ### Freeing -/

@[simp]
theorem size_free : (store.free id).objects.size = store.objects.size := by
  unfold free
  exact Array.size_modify

theorem objects_free (store : Store) (id id' : Nat) :
    (store.free id).objects[id']? =
      if id = id' then store.objects[id']?.map fun obj =>
        { obj with attrs := Table.empty, alive := false }
      else store.objects[id']? := by
  unfold free
  rw [Array.getElem?_modify]

theorem isAlive_free {id' : Nat} :
    (store.free id).isAlive id' = (id != id' && store.isAlive id') := by
  unfold isAlive
  rw [objects_free]
  rcases Decidable.em (id = id') with rfl | hne
  · rw [if_pos rfl, bne_self_eq_false, Bool.false_and]
    cases store.objects[id]? <;> rfl
  · rw [if_neg hne, bne_iff_ne.2 hne, Bool.true_and]

@[simp]
theorem shape?_free {id' : Nat} : (store.free id).shape? id' = store.shape? id' := by
  unfold shape?
  rw [objects_free]
  split
  · cases store.objects[id']? <;> rfl
  · rfl

theorem attrs_free_ne (h : id ≠ o.id) : (store.free id).attrs o = store.attrs o := by
  unfold attrs
  rw [objects_free, if_neg h]

theorem get?_free_ne (h : id ≠ o.id) : (store.free id).get? o attr = store.get? o attr := by
  unfold get?
  rw [attrs_free_ne h]

theorem get?_free_self : (store.free o.id).get? o attr = none := by
  unfold get? attrs
  rw [objects_free, if_pos rfl]
  cases store.objects[o.id]? <;> rfl

/-! ### Assigning -/

theorem assign_changed {store' : Store} {old : Value}
    (h : store.assign o attr v = .ok (.changed store' old)) :
    store' = store.put o attr v ∧ o.id < store.objects.size ∧
      (store.get? o attr = some old ∧ old.equal v = false ∨
        store.get? o attr = none ∧ old = .none) := by
  unfold assign at h
  rcases hobj : store.objects[o.id]? with _ | obj
  · rw [hobj] at h
    cases h
  · have hlt : o.id < store.objects.size := (Array.getElem?_eq_some_iff.1 hobj).1
    have hget : store.get? o attr = obj.attrs.get? attr := by
      unfold get? attrs
      rw [hobj]
    simp only [hobj] at h
    split at h
    · cases h
    · rcases hold : obj.attrs.get? attr with _ | present
      · simp only [hold] at h
        split at h <;> cases h
        exact ⟨rfl, hlt, .inr ⟨hget.trans hold, rfl⟩⟩
      · simp only [hold] at h
        split at h
        · cases h
        · next hne =>
          cases h
          exact ⟨rfl, hlt, .inl ⟨hget.trans hold, Bool.eq_false_iff.2 hne⟩⟩

/-- An object that accepts declared attributes only gets no others. -/
theorem exists_of_assign_changed {store' : Store} {old : Value}
    (h : store.assign o attr v = .ok (.changed store' old))
    (hdeclared : store.shape? o.id = some .declared) : ∃ present, store.get? o attr = some present := by
  refine Option.ne_none_iff_exists'.1 fun hnone => ?_
  unfold assign at h
  unfold shape? at hdeclared
  unfold get? attrs at hnone
  rcases hobj : store.objects[o.id]? with _ | obj
  · rw [hobj] at h
    cases h
  · rw [hobj, Option.map_some, Option.some_inj] at hdeclared
    rw [hobj] at hnone
    simp only [hobj, hdeclared, hnone, if_neg (show Shape.declared ≠ .frozen by decide)] at h
    cases h

theorem assign_unchanged (h : store.assign o attr v = .ok .unchanged) {present : Value}
    (hget : store.get? o attr = some present) : present.equal v = true := by
  unfold assign at h
  unfold get? attrs at hget
  rcases hobj : store.objects[o.id]? with _ | obj
  · rw [hobj] at hget
    cases hget
  · simp only [hobj] at h hget
    simp only [hget] at h
    split at h
    · cases h
    · split at h
      · assumption
      · cases h

theorem exists_of_assign_unchanged (h : store.assign o attr v = .ok .unchanged)
    (halive : store.isAlive o.id = true) : ∃ present, store.get? o attr = some present := by
  unfold assign at h
  unfold isAlive at halive
  unfold get? attrs
  rcases hobj : store.objects[o.id]? with _ | obj
  · rw [hobj] at halive
    cases halive
  · simp only [hobj] at h ⊢
    rcases hold : obj.attrs.get? attr with _ | present
    · simp only [hold] at h
      split at h
      · cases h
      · split at h <;> cases h
    · exact ⟨present, rfl⟩

theorem assign_refused {e : EvalError} (h : store.assign o attr v = .error e) :
    store.shape? o.id = some .frozen ∨
      store.shape? o.id = some .declared ∧ store.get? o attr = none := by
  unfold assign at h
  unfold shape? get? attrs
  rcases hobj : store.objects[o.id]? with _ | obj
  · rw [hobj] at h
    cases h
  · simp only [hobj] at h ⊢
    split at h
    · next hfrozen => exact .inl (congrArg some hfrozen)
    · right
      rcases hold : obj.attrs.get? attr with _ | present
      · simp only [hold] at h
        split at h
        · next hdeclared => exact ⟨congrArg some hdeclared, rfl⟩
        · cases h
      · simp only [hold] at h
        split at h <;> cases h

/-! ### Attributes by identity -/

variable {w : Value} {s : Slot}

/-- The value of an attribute of an object. -/
def at? (store : Store) (s : Slot) : Option Value := store.get? ⟨s.1, ""⟩ s.2

theorem get?_eq_at? (store : Store) (o : ObjectRef) (attr : String) :
    store.get? o attr = store.at? (o.id, attr) :=
  get?_congr rfl attr

theorem at?_put (ho : o.id < store.objects.size) :
    (store.put o attr v).at? s = if s = (o.id, attr) then some v else store.at? s := by
  unfold at?
  split
  · next hs =>
    subst hs
    exact get?_put_self ho rfl
  · next hs => exact get?_put_ne fun h => hs (Prod.ext h.1 h.2)

/-- The attribute can be assigned and does not have the value. -/
def Differs (store : Store) (s : Slot) (old v : Value) : Prop :=
  store.at? s = some old ∧ old.equal v = false ∨
    store.at? s = none ∧ store.shape? s.1 = some .open ∧ old = .none

/-- What an assignment does to an attribute that does not have the value. -/
theorem assign_eq_changed (halive : store.isAlive o.id = true)
    (hshape : store.shape? o.id ≠ some .frozen) (h : store.Differs (o.id, attr) w v) :
    store.assign o attr v = .ok (.changed (store.put o attr v) w) := by
  unfold Differs at h
  rw [← get?_eq_at?] at h
  unfold assign
  unfold isAlive at halive
  unfold shape? get? attrs at *
  cases hobj : store.objects[o.id]? with
  | none =>
    rw [hobj] at halive
    cases halive
  | some obj =>
    simp only [hobj, Option.map_some, ne_eq, Option.some.injEq] at hshape h ⊢
    rw [if_neg hshape]
    rcases h with ⟨hget, hne⟩ | ⟨hget, hopen, rfl⟩
    · simp only [hget, hne, Bool.false_eq_true, if_false]
    · simp only [hget, hopen, reduceCtorEq, if_false]

/-- What an assignment does to an attribute that has the value. -/
theorem assign_eq_unchanged (hshape : store.shape? o.id ≠ some .frozen) (hget : store.get? o attr = some w)
    (h : w.equal v = true) : store.assign o attr v = .ok .unchanged := by
  unfold assign
  unfold shape? get? attrs at *
  cases hobj : store.objects[o.id]? with
  | none => rfl
  | some obj =>
    simp only [hobj, Option.map_some, ne_eq, Option.some.injEq] at hshape hget ⊢
    rw [if_neg hshape]
    simp only [hget, h, if_true]

end Store

end ReactiveView
