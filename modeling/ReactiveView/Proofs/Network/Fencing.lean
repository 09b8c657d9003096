import ReactiveView.Proofs.Expr.Pairing
import ReactiveView.Proofs.Network.Coupling
import ReactiveView.Proofs.Network.Recoding
import Mathlib

/-!
This module contains what can change while the code of a view is being tied: only attributes that are
still to be assigned or that binds keep up to date, and what is delegated to those. Where no other
attribute sets a notify off, no statement is run, so it does not matter what the statements are.
-/

namespace ReactiveView

open Cascade Network

/-! ### Networks that fade -/

/-- The object once it is forgotten. -/
def Obj.forgotten (obj : Obj) : Obj := { obj with attrs := Table.empty, alive := false }

/-- Each object is as it was, or forgotten. -/
def Store.Fades (store store' : Store) (id : Nat) : Prop :=
  store'.objects[id]? = store.objects[id]? ∨
    store'.objects[id]? = store.objects[id]?.map Obj.forgotten

namespace Store.Fades

variable {store store' store'' : Store} {id : Nat} {o : ObjectRef}

theorem refl (store : Store) (id : Nat) : store.Fades store id := .inl rfl

theorem trans (h : store.Fades store' id) (h' : store'.Fades store'' id) :
    store.Fades store'' id := by
  rcases h with h | h <;> rcases h' with h' | h'
  · exact .inl (h'.trans h)
  · exact .inr (h'.trans (congrArg _ h))
  · exact .inr (h'.trans h)
  · rw [h, Option.map_map] at h'
    exact .inr h'

/-- An object that is alive has kept its attributes. -/
theorem attrs (h : store.Fades store' o.id) (halive : store'.isAlive o.id = true) :
    store'.attrs o = store.attrs o := by
  unfold Store.attrs
  rcases h with h | h
  · rw [h]
  · unfold Store.isAlive at halive
    rw [h] at halive
    cases hobj : store.objects[o.id]? with
    | none => rw [h, hobj, Option.map_none]
    | some obj =>
      rw [hobj] at halive
      cases halive

end Store.Fades

theorem Store.fades_free (store : Store) (i id : Nat) : store.Fades (store.free i) id := by
  unfold Fades
  rw [objects_free]
  split
  · exact .inr rfl
  · exact .inl rfl

namespace Network

/-- Nothing was added: subscriptions and bindings only went, and objects were only forgotten. -/
structure Fades (net net' : Network) : Prop where
  observers : net'.observers ⊆ net.observers
  links : ∀ k lk', net'.link? k = some lk' → ∃ lk, net.link? k = some lk ∧ lk'.body = lk.body
  count : net'.links.size = net.links.size
  objects : ∀ id, net.store.Fades net'.store id

variable {net net' net'' : Network} {k : Nat}

theorem Fades.refl (net : Network) : net.Fades net :=
  ⟨fun _ h => h, fun _ lk h => ⟨lk, h, rfl⟩, rfl, fun id => .refl _ id⟩

theorem Fades.trans (h : net.Fades net') (h' : net'.Fades net'') : net.Fades net'' where
  observers _ ho := h.observers (h'.observers ho)
  links k lk'' hlk'' := by
    obtain ⟨lk', hlk', hbody'⟩ := h'.links k lk'' hlk''
    obtain ⟨lk, hlk, hbody⟩ := h.links k lk' hlk'
    exact ⟨lk, hlk, hbody'.trans hbody⟩
  count := h'.count.trans h.count
  objects id := (h.objects id).trans (h'.objects id)

theorem fades_of_same (hobservers : net'.observers = net.observers) (hlinks : net'.links = net.links)
    (hstore : net'.store = net.store) : net.Fades net' where
  observers _ ho := hobservers ▸ ho
  links k lk hlk := ⟨lk, by rwa [link?, ← hlinks], rfl⟩
  count := congrArg _ hlinks
  objects id := .inl (by rw [hstore])

theorem fades_foldl_free (ids : List Nat) : net.Fades (ids.foldl free net) := by
  have hfree (net : Network) (id : Nat) : net.Fades (net.free id) :=
    ⟨fun _ h => (List.mem_filter.1 h).1, fun _ lk h => ⟨lk, h, rfl⟩, rfl,
      fun i => Store.fades_free net.store id i⟩
  induction ids generalizing net with
  | nil => exact .refl net
  | cons id rest ih => exact (hfree net id).trans ih

theorem fades_sweep (net : Network) : net.Fades net.sweep :=
  sweep_induction (fun _ ids _ h => h.trans (fades_foldl_free ids)) (.refl net)

theorem fades_letGo (busy : List Nat) : net.Fades (net.letGo busy) :=
  have hbusy : net.Fades { net with busy } := fades_of_same rfl rfl rfl
  hbusy.trans (fades_sweep _)

theorem fades_modifyLink (k : Nat) {f : Link → Link} (hf : ∀ lk, (f lk).body = lk.body) :
    net.Fades (net.modifyLink k f) where
  observers _ h := h
  links j lk' hlk' := by
    rw [link?_modifyLink] at hlk'
    split at hlk'
    · obtain ⟨lk, hlk, rfl⟩ := Option.map_eq_some_iff.1 hlk'
      exact ⟨lk, hlk, hf lk⟩
    · exact ⟨lk', hlk', rfl⟩
  count := Array.size_modify
  objects id := .refl _ id

theorem fades_disconnect (k : Nat) : net.Fades (net.disconnect k) where
  observers o ho := (mem_observers_disconnect.1 ho).1
  links j lk' hlk' := by
    rw [link?_disconnect] at hlk'
    split at hlk'
    · obtain ⟨lk, hlk, rfl⟩ := Option.map_eq_some_iff.1 hlk'
      exact ⟨lk, hlk, rfl⟩
    · exact ⟨lk', hlk', rfl⟩
  count := size_links_disconnect net k
  objects id := .inl (by rw [store_disconnect])

theorem fades_withoutLink (k : Nat) : net.Fades (net.withoutLink k) where
  observers _ h := h
  links j lk hlk := by
    rw [link?_withoutLink] at hlk
    split at hlk
    · cases hlk
    · exact ⟨lk, hlk, rfl⟩
  count := Array.size_modify
  objects id := .refl _ id

theorem fades_leaveLink (k : Nat) : net.Fades (net.leaveLink k) := by
  have hsettle (net : Network) : net.Fades (net.settleLink k) := by
    rcases settleLink_eq net k with h | h
    · rw [h]
      exact .refl _
    · rw [h]
      exact ((fades_disconnect k).trans (fades_withoutLink k)).trans (fades_sweep _)
  have hleave : net.Fades (net.modifyLink k fun l => { l with running := l.running - 1 }) :=
    fades_modifyLink k fun _ => rfl
  exact hleave.trans (hsettle _)

end Network

/-! ### Fences -/

/--
What can change while the code of a view is being tied.
-/
structure Fence where
  /-- The first object of the view. -/
  base : Nat
  /-- The first binding of the view. -/
  first : Nat
  /-- Where the delegates end at which an attribute starts. -/
  root : Slot → Slot
  /-- Attributes that are still to be assigned. -/
  pending : Slot → Prop
  /-- Attributes that a bind keeps up to date. -/
  bound : Nat → Slot → Prop
  /-- Binds that read nothing of the view, and so are never evaluated again. -/
  outer : Nat → Prop

namespace Fence

variable (F : Fence)

/-- The attribute can still change. -/
def Open (x : Slot) : Prop := F.pending (F.root x) ∨ ∃ k, F.bound k (F.root x)

/-- The binds that keep attributes up to date. -/
def inner (k : Nat) : Prop := ∃ x, F.bound k x

/-- The code reads nothing of the view. -/
def Outside (scope : Scope) (e : Expr) : Prop := scope.AlikeOn (.below F.base) scope e.names

/-- What may be done when the attribute changes: only attributes that can change too are assigned, and
no statement is run. -/
def Admits (x : Slot) : Handler → Prop
  | .refresh k => F.inner k
  | .run _ => False
  | .writeThrough o attr => F.root (o.id, attr) = F.root x
  | .writeBack o attr => F.root (o.id, attr) = F.root x
  | .hint _ => True
  | .host _ _ => False

/-- Only attributes of the view can change, and those that are assigned are not delegated. -/
structure Sound : Prop where
  base : ∀ x, F.Open x → F.base ≤ x.1
  pending : ∀ x, F.pending x → F.root x = x
  bound : ∀ k x, F.bound k x → F.root x = x
  apart : ∀ k x, F.pending x → ¬F.bound k x

/-- A network that keeps to a fence. -/
structure Guards (store : Store) (net : Network) : Prop where
  /-- Changes set nothing off outside of the fence. -/
  handlers : ∀ ob ∈ net.observers, F.Open (ob.object, ob.attr) →
    F.Admits (ob.object, ob.attr) ob.handler
  /-- Binds assign inside of the fence. -/
  inner : ∀ k, F.inner k → F.first ≤ k ∧ k < net.links.size ∧ ∀ lk, net.link? k = some lk →
    ∃ e o attr scope, lk.body = .bind e o attr scope ∧ F.bound k (o.id, attr) ∧
      (F.outer k → F.Outside scope e)
  /-- What reads nothing of the view observes nothing of it. -/
  outer : ∀ ob ∈ net.observers, ∀ k, ob.handler = .refresh k → F.outer k → ob.object < F.base
  /-- Subscriptions to the view are for bindings that are there. -/
  numbered : ∀ ob ∈ net.observers, F.base ≤ ob.object → ∀ k, ob.handler = .refresh k →
    k < net.links.size
  count : F.first ≤ net.links.size
  /-- Objects that are not of the view keep their attributes. -/
  kept : ∀ id < F.base, store.Fades net.store id
  /-- They refer to nothing of the view. -/
  closed : store.Alike (.below F.base) store

namespace Guards

variable {F} {store : Store} {net net' : Network} {k : Nat}

theorem fade (h : F.Guards store net) (hfade : net.Fades net') : F.Guards store net' where
  handlers ob hob := h.handlers ob (hfade.observers hob)
  inner k hk := by
    obtain ⟨hfirst, hlt, hbody⟩ := h.inner k hk
    refine ⟨hfirst, hfade.count.symm ▸ hlt, fun lk' hlk' => ?_⟩
    obtain ⟨lk, hlk, hsame⟩ := hfade.links k lk' hlk'
    rw [hsame]
    exact hbody lk hlk
  outer ob hob := h.outer ob (hfade.observers hob)
  numbered ob hob hbase k hk := hfade.count.symm ▸ h.numbered ob (hfade.observers hob) hbase k hk
  count := hfade.count.symm ▸ h.count
  kept id hid := (h.kept id hid).trans (hfade.objects id)
  closed := h.closed

/-- What is not of the view refers to nothing of it. -/
theorem alike (h : F.Guards store net) : net.store.Alike (.below F.base) net.store := by
  rintro i _ ⟨rfl, hi⟩
  have hclosed := h.closed i i ⟨rfl, hi⟩
  rcases h.kept i hi with heq | heq
  · rw [heq]
    exact hclosed
  · rw [heq]
    cases store.objects[i]? with
    | none => exact .none
    | some obj => exact .some ⟨rfl, rfl, rfl, .nil⟩

/-- Code that reads nothing of the view reads objects that are not of it. -/
theorem reads (h : F.Guards store net) {scope : Scope} {e : Expr} (he : F.Outside scope e) :
    ∀ d ∈ (net.outcome scope e).2.reads, d.object.id < F.base := by
  have hrun (n : Nat) := Expr.run_alike h.alike e he fun i => (rfl : n + i = n + i)
  have hreads := (hrun net.nextFunction).2.reads
  intro d hd
  obtain ⟨i, hi, rfl⟩ := List.mem_iff_getElem.1 hd
  exact (List.forall₂_iff_get.1 hreads |>.2 i hi hi).object.id.2

/-- What code that reads nothing of the view comes to does not refer to the view. -/
theorem references (h : F.Guards store net) {scope : Scope} {e : Expr} (he : F.Outside scope e)
    {o : ObjectRef} (ho : (net.outcome scope e).1 = .ok (.object o)) : o.id < F.base := by
  have hrun (n : Nat) := Expr.run_alike h.alike e he fun i => (rfl : n + i = n + i)
  have hresult := (hrun net.nextFunction).1
  change Results _ (net.outcome scope e).1 (net.outcome scope e).1 at hresult
  rw [ho] at hresult
  cases hresult with
  | ok hv =>
    cases hv with
    | object ho => exact ho.id.2

/-- The value of an attribute that can change is another one. -/
theorem put (h : F.Guards store net) {o : ObjectRef} (ho : F.base ≤ o.id) (attr : String) (v : Value) :
    F.Guards store { net with store := net.store.put o attr v } where
  handlers := h.handlers
  inner := h.inner
  outer := h.outer
  numbered := h.numbered
  count := h.count
  kept id hid := by
    refine (h.kept id hid).trans (.inl ?_)
    dsimp only
    rw [Store.objects_put, if_neg (by omega)]
  closed := h.closed

/-- A subscription that is admitted. -/
theorem subscribe (h : F.Guards store net) (object : Nat) (attr : String) (handler : Handler)
    (hadmits : F.Open (object, attr) → F.Admits (object, attr) handler)
    (houter : ∀ k, handler = .refresh k → F.outer k → object < F.base)
    (hnumbered : ∀ k, handler = .refresh k → k < net.links.size) :
    F.Guards store (net.subscribe object attr handler).2 where
  handlers ob hob := by
    rcases List.mem_append.1 hob with hold | hnew
    · exact h.handlers ob hold
    · obtain rfl := List.mem_singleton.1 hnew
      exact hadmits
  inner := h.inner
  outer ob hob := by
    rcases List.mem_append.1 hob with hold | hnew
    · exact h.outer ob hold
    · obtain rfl := List.mem_singleton.1 hnew
      exact houter
  numbered ob hob := by
    rcases List.mem_append.1 hob with hold | hnew
    · exact h.numbered ob hold
    · obtain rfl := List.mem_singleton.1 hnew
      exact fun _ => hnumbered
  count := h.count
  kept := h.kept
  closed := h.closed

theorem subscribeAll (h : F.Guards store net) (hk : F.inner k) (ds : List Dependency)
    (houter : F.outer k → ∀ d ∈ ds, d.object.id < F.base) :
    F.Guards store (net.subscribeAll (.refresh k) ds).2 := by
  induction ds generalizing net with
  | nil => exact h
  | cons d rest ih =>
    refine ih (h.subscribe _ _ _ (fun _ => hk) ?_ ?_) fun ho d hd => houter ho d (List.mem_cons_of_mem _ hd)
    · rintro _ ⟨⟩ ho
      exact houter ho d List.mem_cons_self
    · rintro _ ⟨⟩
      exact (h.inner k hk).2.1

/-- A bind is subscribed to what it reads. -/
theorem resubscribed (h : F.Guards store net) (hk : F.inner k) {e : Expr} {o : ObjectRef}
    {attr : String} {scope : Scope} (hbind : net.HasBind k e o attr scope) :
    F.Guards store (net.resubscribed k scope e) := by
  obtain ⟨lk, hlk, hbody⟩ := hbind
  have hcut := h.fade (fades_disconnect k)
  have hreads (houter : F.outer k) :
      ∀ d ∈ ((net.disconnect k).outcome scope e).2.reads, d.object.id < F.base := by
    obtain ⟨_, _, _, _, hbody', -, hout⟩ := (h.inner k hk).2.2 lk hlk
    cases hbody.symm.trans hbody'
    exact hcut.reads (hout houter)
  have hevaluated : F.Guards store ((net.disconnect k).evaluated scope e) :=
    hcut.fade (fades_of_same rfl rfl rfl)
  exact (hevaluated.subscribeAll hk _ hreads).fade (fades_modifyLink k fun _ => rfl)

/-- A binding that nothing is known of. -/
theorem addLink (h : F.Guards store net) (lk : Link) : F.Guards store (net.addLink lk).2 where
  handlers := h.handlers
  inner k hk := by
    obtain ⟨hfirst, hlt, hbody⟩ := h.inner k hk
    refine ⟨hfirst, hlt.trans_le ?_, fun lk' hlk' => hbody lk' ?_⟩
    · exact (Nat.le_succ _).trans_eq (Array.size_push _).symm
    · rwa [link?_addLink, if_neg hlt.ne] at hlk'
  outer := h.outer
  numbered ob hob hbase k hk := (h.numbered ob hob hbase k hk).trans_le
    ((Nat.le_succ _).trans_eq (Array.size_push _).symm)
  count := h.count.trans ((Nat.le_succ _).trans_eq (Array.size_push _).symm)
  kept := h.kept
  closed := h.closed

end Guards

/-! ### What keeps to a fence -/

/-- Two networks that keep to a fence, the same but for statements. -/
structure Nets (store : Store) (net net' : Network) : Prop where
  guards : F.Guards store net
  recoded : net.Recoded F.first net'

/-- The same happens to both of them, and no statement is run. -/
def likeness (store : Store) : Likeness where
  nets := F.Nets store
  values := Eq
  ids := Eq
  slots o o' attr := o = o' ∧ F.Open (o.id, attr)
  links k k' := k = k' ∧ F.inner k
  widgets := Eq
  scopes := Eq
  runs := False

variable {F} {store : Store} {net net' : Network}

theorem Nets.fade (h : F.Nets store net net') {a b : Network} (hfade : net.Fades a)
    (hrecoded : a.Recoded F.first b) : F.Nets store a b :=
  ⟨h.guards.fade hfade, hrecoded⟩

/-- A handler that is admitted does the same. -/
theorem handlers_likeness {x : Slot} (hx : F.Open x) {handler : Handler}
    (h : F.Admits x handler) : (F.likeness store).Handlers handler handler := by
  have hopen {o : ObjectRef} {attr : String} (hroot : F.root (o.id, attr) = F.root x) :
      F.Open (o.id, attr) := by
    unfold Open
    rwa [hroot]
  cases handler with
  | refresh k => exact .refresh ⟨rfl, h⟩
  | run k => exact absurd h not_false
  | writeThrough o attr => exact .writeThrough ⟨rfl, hopen h⟩
  | writeBack o attr => exact .writeBack ⟨rfl, hopen h⟩
  | hint w => exact .hint rfl
  | host id actions => exact absurd h not_false

/-- An open slot takes the same value, and whoever observes it is admitted. -/
theorem Nets.assign (h : F.Nets store net net') (hF : F.Sound) {o : ObjectRef} {attr : String}
    (hopen : F.Open (o.id, attr)) (v : Value) :
    (F.likeness store).Assignments net net' o o attr (net.store.assign o attr v)
      (net'.store.assign o attr v) := by
  rw [h.recoded.store]
  rcases hassign : net.store.assign o attr v with e | _ | ⟨store', old⟩
  · exact .refused e
  · exact .unchanged
  · obtain ⟨rfl, -⟩ := Store.assign_changed hassign
    refine .changed ⟨h.guards.put (hF.base _ hopen) attr v, h.recoded.stored _⟩ rfl ?_
    unfold observersOf
    rw [h.recoded.observers]
    refine List.forall₂_same.2 fun ob hob => ?_
    obtain ⟨hmem, hslot⟩ := List.mem_filter.1 hob
    rw [Bool.and_eq_true, beq_iff_eq, beq_iff_eq] at hslot
    obtain ⟨hid, hattr⟩ := hslot
    rw [← hid, ← hattr] at hopen
    exact handlers_likeness hopen (h.guards.handlers ob hmem hopen)

/-- A binding inside is a bind to an open slot in both networks. -/
theorem Nets.link? (h : F.Nets store net net') (hF : F.Sound) {k : Nat} (hk : F.inner k) :
    Option.Rel (fun lk lk' => (F.likeness store).Bodies lk.body lk'.body) (net.link? k)
      (net'.link? k) := by
  cases hlk : net.link? k with
  | none =>
    rw [h.recoded.link?_eq_none hlk]
    exact .none
  | some lk =>
    obtain ⟨lk', hlk', hsame⟩ := h.recoded.exists_link? hlk
    obtain ⟨e, o, attr, scope, hbody, hbound, -⟩ := (h.guards.inner k hk).2.2 lk hlk
    have hopen : F.Open (o.id, attr) := .inr ⟨k, (hF.bound k _ hbound).symm ▸ hbound⟩
    have hbodies := hsame.body
    rw [hbody] at hbodies
    rw [hlk']
    refine .some ?_
    rw [hbody]
    generalize lk'.body = body' at hbodies ⊢
    cases hbodies
    exact .bind ⟨rfl, hopen⟩ rfl

theorem lawful (hF : F.Sound) (store : Store) : (F.likeness store).Lawful where
  assign := by
    rintro a b o _ attr v _ hnets ⟨rfl, hopen⟩ rfl
    exact hnets.assign hF hopen v
  hold := by
    intro a b is is' hnets his
    obtain rfl := List.forall₂_eq_eq_eq ▸ his
    exact hnets.fade (fades_of_same rfl rfl rfl) (hnets.recoded.hold is)
  letGo hnets hnets' := by
    rw [hnets.recoded.busy]
    exact hnets'.fade (fades_letGo _) (hnets'.recoded.letGo _)
  ids := by
    rintro o _ attr ⟨rfl, -⟩
    rfl
  references := by
    rintro v _ rfl
    exact List.forall₂_same.2 fun _ _ => rfl
  note level message fields hnets :=
    hnets.fade (fades_of_same rfl rfl rfl) (hnets.recoded.note level message fields)
  signal := by
    rintro a b w _ hnets rfl
    exact hnets.fade (fades_of_same rfl rfl rfl) (hnets.recoded.signal w)
  happened := by
    rintro a b c c' id hnets ⟨⟨hobject, -⟩, hattr, hold, hnew⟩
    obtain rfl : c = c' := by
      cases c
      cases c'
      cases hobject
      cases hattr
      cases hold
      cases hnew
      rfl
    exact hnets.fade (fades_of_same rfl rfl rfl) (hnets.recoded.happened _)
  describe := by
    rintro a b o _ attr hnets ⟨rfl, -⟩
    rw [hnets.recoded.store]
  alive := by
    rintro a b o _ attr hnets ⟨rfl, -⟩
    rw [hnets.recoded.store]
  link := by
    rintro a b k _ hnets ⟨rfl, hk⟩
    exact hnets.link? hF hk
  enter := by
    rintro a b k _ hnets ⟨rfl, -⟩
    exact hnets.fade (fades_modifyLink k fun _ => rfl) (hnets.recoded.enterLink k)
  leave := by
    rintro a b k _ hnets ⟨rfl, -⟩
    exact hnets.fade (fades_leaveLink k) (hnets.recoded.leaveLink k)
  outcome := by
    rintro a b scope _ e hnets rfl
    rw [hnets.recoded.outcome]
    refine ⟨?_, List.forall₂_same.2 fun _ _ => rfl⟩
    cases (a.outcome scope e).1 with
    | error e => exact .error e
    | ok v => exact .ok rfl
  evaluated := by
    rintro a b scope _ e hnets rfl
    exact hnets.fade (fades_of_same rfl rfl rfl) (hnets.recoded.evaluated scope e)
  disconnect := by
    rintro a b k _ hnets ⟨rfl, -⟩
    exact hnets.fade (fades_disconnect k) (hnets.recoded.disconnect k)
  resubscribed := by
    rintro a b k _ e o o' attr scope _ hnets ⟨rfl, hk⟩ rfl hbind -
    exact ⟨hnets.guards.resubscribed hk hbind, hnets.recoded.resubscribed k scope e⟩
  names hruns := absurd hruns not_false
  kinds := by
    rintro v _ rfl
    cases v with
    | object o => exact .object fun hruns => absurd hruns not_false
    | _ => exact .other rfl rfl rfl

end Fence

end ReactiveView
