import ReactiveView.Proofs.Expr.Trail
import ReactiveView.Proofs.Network.Frame

/-!
This module contains which bindings and subscriptions the operations on a network leave behind.

A network wanes when bindings and subscriptions only go: what is left was there before. Subscribing
and tying are the only operations under which it does not.
-/

namespace ReactiveView

namespace Network

variable {P : Command → Prop} {net net' net'' : Network} {k : Nat}

/-! ### Bindings by identity -/

theorem link?_modifyLink (net : Network) (id : Nat) (f : Link → Link) (k : Nat) :
    (net.modifyLink id f).link? k = if id = k then (net.link? k).map f else net.link? k := by
  unfold link? modifyLink
  rw [Array.getElem?_modify]
  split
  · rcases net.links[k]? with _ | _ | _ <;> rfl
  · rfl

theorem link?_addLink (net : Network) (link : Link) (k : Nat) :
    (net.addLink link).2.link? k = if k = net.links.size then some link else net.link? k := by
  unfold link? addLink
  simp only [Array.getElem?_push]
  split <;> rfl

/-- The network without a binding. -/
def withoutLink (net : Network) (id : Nat) : Network :=
  { net with links := net.links.modify id fun _ => none }

theorem link?_withoutLink (net : Network) (id k : Nat) :
    (net.withoutLink id).link? k = if id = k then none else net.link? k := by
  unfold link? withoutLink
  rw [Array.getElem?_modify]
  split
  · rcases net.links[k]? with _ | _ <;> rfl
  · rfl

theorem settleLink_eq (net : Network) (id : Nat) :
    net.settleLink id = net ∨ net.settleLink id = ((net.disconnect id).withoutLink id).sweep := by
  unfold settleLink
  split
  · exact .inl rfl
  · split
    · exact .inl rfl
    · exact .inr rfl

/-! ### Subscriptions -/

theorem foldl_unsubscribe (net : Network) (ids : List Nat) :
    ids.foldl unsubscribe net
      = { net with observers := net.observers.filter fun o => !ids.contains o.id } := by
  induction ids generalizing net with
  | nil =>
    have hall : net.observers.filter (fun o => !([] : List Nat).contains o.id) = net.observers :=
      List.filter_eq_self.2 fun _ _ => rfl
    rw [hall, List.foldl_nil]
  | cons id rest ih =>
    rw [List.foldl_cons, ih]
    simp only [unsubscribe, List.filter_filter, List.contains_cons, Bool.not_or, bne,
      Bool.and_comm]

theorem disconnect_of_some {lk : Link} (h : net.link? k = some lk) :
    net.disconnect k =
      { net with observers := net.observers.filter fun o => !lk.subscriptions.contains o.id
                 links := net.links.modify k (Option.map fun l => { l with subscriptions := [] }) }
    := by
  unfold disconnect
  rw [h]
  simp only [foldl_unsubscribe]
  rfl

theorem disconnect_of_none (h : net.link? k = none) : net.disconnect k = net := by
  unfold disconnect
  rw [h]

@[simp]
theorem store_disconnect : (net.disconnect k).store = net.store := by
  rcases h : net.link? k with _ | lk
  · rw [disconnect_of_none h]
  · rw [disconnect_of_some h]

theorem link?_disconnect (net : Network) (k j : Nat) :
    (net.disconnect k).link? j =
      if k = j then (net.link? j).map fun l => { l with subscriptions := [] } else net.link? j := by
  rcases h : net.link? k with _ | lk
  · rw [disconnect_of_none h]
    split
    · next he =>
      rw [← he, h]
      rfl
    · rfl
  · rw [disconnect_of_some h]
    exact link?_modifyLink net k _ j

/-- The observers that are left are those that the binding does not list. -/
theorem mem_observers_disconnect {o : Observer} :
    o ∈ (net.disconnect k).observers ↔
      o ∈ net.observers ∧ ∀ lk, net.link? k = some lk → o.id ∉ lk.subscriptions := by
  rcases h : net.link? k with _ | lk
  · rw [disconnect_of_none h]
    simp
  · rw [disconnect_of_some h]
    simp

/-- What subscribing to several attributes leaves behind. -/
structure Subscribed (net : Network) (handler : Handler) (ds : List Dependency) (ids : List Nat)
    (net' : Network) : Prop where
  /-- Each of them is observed. -/
  observed : ∀ d ∈ ds, ∃ o ∈ net'.observers,
    o.object = d.object.id ∧ o.attr = d.attr ∧ o.handler = handler
  /-- The subscriptions are new. -/
  ids : ∀ i ∈ ids, net.nextObserver ≤ i ∧ i < net'.nextObserver
  /-- Old subscriptions stay. -/
  kept : net.observers ⊆ net'.observers
  /-- New ones have the handler. -/
  fresh : ∀ o ∈ net'.observers, o ∈ net.observers ∨ o.handler = handler
  next : net.nextObserver ≤ net'.nextObserver
  store : net'.store = net.store
  links : net'.links = net.links
  nextFunction : net'.nextFunction = net.nextFunction

theorem subscribed_subscribeAll (net : Network) (handler : Handler) (ds : List Dependency) :
    net.Subscribed handler ds (net.subscribeAll handler ds).1 (net.subscribeAll handler ds).2 := by
  induction ds generalizing net with
  | nil => exact ⟨nofun, nofun, fun _ h => h, fun _ h => .inl h, Nat.le_refl _, rfl, rfl, rfl⟩
  | cons d rest ih =>
    obtain ⟨observed, ids, kept, fresh, next, store, links, nextFunction⟩ :=
      ih (net.subscribe d.object.id d.attr handler).2
    have hnew : (⟨net.nextObserver, d.object.id, d.attr, handler⟩ : Observer)
        ∈ (net.subscribe d.object.id d.attr handler).2.observers :=
      List.mem_append_right _ (List.mem_singleton_self _)
    have hnext : net.nextObserver + 1 ≤ (net.subscribeAll handler (d :: rest)).2.nextObserver := next
    refine ⟨?_, ?_, fun o ho => kept (List.mem_append_left _ ho), fun o ho => ?_, by omega, store,
      links, nextFunction⟩
    · rintro e (_ | ⟨_, he⟩)
      · exact ⟨_, kept hnew, rfl, rfl, rfl⟩
      · exact observed e he
    · rintro i (_ | ⟨_, hi⟩)
      · exact ⟨Nat.le_refl _, hnext⟩
      · exact ⟨Nat.le_of_succ_le (ids i hi).1, (ids i hi).2⟩
    · rcases fresh o ho with hold | hhandler
      · rcases List.mem_append.1 hold with hold | hlast
        · exact .inl hold
        · exact .inr (List.mem_singleton.1 hlast ▸ rfl)
      · exact .inr hhandler

/-! ### Networks that wane -/

/-- Bindings and subscriptions only went, and no attribute was assigned. -/
structure Wanes (net net' : Network) : Prop where
  quiet : Quiet (fun _ => False) net net'
  /-- Bindings do what they did. -/
  links : ∀ k lk', net'.link? k = some lk' → ∃ lk, net.link? k = some lk ∧ lk'.body = lk.body
    ∧ lk'.succeeded = lk.succeeded ∧ lk'.subscriptions ⊆ lk.subscriptions
  observers : net'.observers ⊆ net.observers
  watches : ∀ name w, net'.desk.watches.get? name = some w → net.desk.watches.get? name = some w
  nextObserver : net'.nextObserver = net.nextObserver
  nextFunction : net.nextFunction ≤ net'.nextFunction
  values : ∀ o name v, net'.store.get? o name = some v → net.store.get? o name = some v

theorem Wanes.refl (net : Network) : net.Wanes net :=
  ⟨.refl net, fun _ lk h => ⟨lk, h, rfl, rfl, fun _ h => h⟩, fun _ h => h, fun _ _ h => h, rfl,
    Nat.le_refl _, fun _ _ _ h => h⟩

theorem Wanes.trans (h : net.Wanes net') (h' : net'.Wanes net'') : net.Wanes net'' where
  quiet := h.quiet.trans h'.quiet
  links k lk'' hlk'' := by
    obtain ⟨lk', hlk', hbody', hsucceeded', hsub'⟩ := h'.links k lk'' hlk''
    obtain ⟨lk, hlk, hbody, hsucceeded, hsub⟩ := h.links k lk' hlk'
    exact ⟨lk, hlk, hbody'.trans hbody, hsucceeded'.trans hsucceeded, fun _ h => hsub (hsub' h)⟩
  observers o ho := h.observers (h'.observers ho)
  watches name w hw := h.watches name w (h'.watches name w hw)
  nextObserver := h'.nextObserver.trans h.nextObserver
  nextFunction := Nat.le_trans h.nextFunction h'.nextFunction
  values o name v hv := h.values o name v (h'.values o name v hv)

/-- Nothing changed that counts here. -/
theorem wanes_of_same (hquiet : Quiet (fun _ => False) net net') (hlinks : net'.links = net.links)
    (hobservers : net'.observers = net.observers) (hwatches : net'.desk.watches = net.desk.watches)
    (hnextObserver : net'.nextObserver = net.nextObserver)
    (hnextFunction : net.nextFunction ≤ net'.nextFunction) (hstore : net'.store = net.store) :
    net.Wanes net' where
  quiet := hquiet
  links k lk hlk := ⟨lk, by rwa [link?, ← hlinks], rfl, rfl, fun _ h => h⟩
  observers o ho := hobservers ▸ ho
  watches name w hw := by rwa [← hwatches]
  nextObserver := hnextObserver
  nextFunction := hnextFunction
  values o name v hv := by rwa [← hstore]

theorem Adds.wanes (h : net.Adds net') : net.Wanes net' :=
  wanes_of_same h.quiet h.links h.observers (congrArg Desk.watches h.desk) h.nextObserver
    (Nat.le_of_eq h.nextFunction.symm) h.store

theorem wanes_hold (ids : List Nat) : net.Wanes (net.hold ids) :=
  wanes_of_same (quiet_hold ids) rfl rfl rfl rfl (Nat.le_refl _) rfl

theorem wanes_busy (busy : List Nat) : net.Wanes { net with busy } :=
  wanes_of_same (quiet_of_same rfl rfl (fun _ h => h) rfl rfl fun _ h => h) rfl rfl rfl rfl
    (Nat.le_refl _) rfl

theorem nextFunction_evaluated (net : Network) (scope : Scope) (e : Expr) :
    net.nextFunction ≤ (net.evaluated scope e).nextFunction :=
  (e.grows_eval net.store scope { fresh := net.nextFunction }).2

theorem wanes_evaluated (scope : Scope) (e : Expr) : net.Wanes (net.evaluated scope e) :=
  wanes_of_same (quiet_evaluated scope e) rfl rfl rfl rfl (nextFunction_evaluated net scope e) rfl

theorem wanes_modifyLink (id : Nat) {f : Link → Link} (hf : ∀ l, (f l).body = l.body
      ∧ (f l).succeeded = l.succeeded ∧ (f l).subscriptions ⊆ l.subscriptions) :
    net.Wanes (net.modifyLink id f) where
  quiet := quiet_modifyLink id f
  links k lk' hlk' := by
    rw [link?_modifyLink] at hlk'
    split at hlk'
    · obtain ⟨lk, hlk, rfl⟩ := Option.map_eq_some_iff.1 hlk'
      exact ⟨lk, hlk, hf lk⟩
    · exact ⟨lk', hlk', rfl, rfl, fun _ h => h⟩
  observers _ h := h
  watches _ _ h := h
  nextObserver := rfl
  nextFunction := Nat.le_refl _
  values _ _ _ h := h

theorem wanes_enterLink (id : Nat) : net.Wanes (net.enterLink id) :=
  wanes_modifyLink id fun _ => ⟨rfl, rfl, fun _ h => h⟩

theorem wanes_withoutLink (id : Nat) : net.Wanes (net.withoutLink id) where
  quiet := quiet_of_same rfl rfl (fun _ h => h) rfl rfl fun _ h => h
  links k lk hlk := by
    rw [link?_withoutLink] at hlk
    split at hlk
    · cases hlk
    · exact ⟨lk, hlk, rfl, rfl, fun _ h => h⟩
  observers _ h := h
  watches _ _ h := h
  nextObserver := rfl
  nextFunction := Nat.le_refl _
  values _ _ _ h := h

theorem wanes_unsubscribe (id : Nat) : net.Wanes (net.unsubscribe id) where
  quiet := quiet_unsubscribe id
  links _ lk h := ⟨lk, h, rfl, rfl, fun _ h => h⟩
  observers _ h := (List.mem_filter.1 h).1
  watches _ _ h := h
  nextObserver := rfl
  nextFunction := Nat.le_refl _
  values _ _ _ h := h

theorem wanes_foldl_unsubscribe (ids : List Nat) : net.Wanes (ids.foldl unsubscribe net) := by
  induction ids generalizing net with
  | nil => exact .refl net
  | cons id rest ih => exact (wanes_unsubscribe id).trans ih

theorem wanes_disconnect (k : Nat) : net.Wanes (net.disconnect k) := by
  unfold disconnect
  split
  · exact .refl net
  · exact (wanes_foldl_unsubscribe _).trans
      (wanes_modifyLink k fun _ => ⟨rfl, rfl, List.nil_subset _⟩)

theorem wanes_free {id : Nat} (hid : id ∉ net.owners) : net.Wanes (net.free id) where
  quiet := quiet_free hid
  links _ lk h := ⟨lk, h, rfl, rfl, fun _ h => h⟩
  observers _ h := (List.mem_filter.1 h).1
  watches _ _ h := h
  nextObserver := rfl
  nextFunction := Nat.le_refl _
  values o name v hv := by
    rcases Decidable.em (id = o.id) with rfl | hne
    · rw [free, Store.get?_free_self] at hv
      cases hv
    · rwa [free, Store.get?_free_ne hne] at hv

theorem wanes_foldl_free {ids : List Nat} (h : ∀ id ∈ ids, id ∉ net.owners) :
    net.Wanes (ids.foldl free net) := by
  induction ids generalizing net with
  | nil => exact .refl net
  | cons id rest ih =>
    exact (wanes_free (h id (List.mem_cons_self ..))).trans
      (@ih (net.free id) fun id' hid' => h id' (List.mem_cons_of_mem _ hid'))

/-- Objects that are not freed keep their attributes and their observers. -/
theorem foldl_free_spares {ids : List Nat} {o : ObjectRef} (h : o.id ∉ ids) :
    (ids.foldl free net).store.attrs o = net.store.attrs o ∧
      ∀ obs ∈ net.observers, obs.object = o.id → obs ∈ (ids.foldl free net).observers := by
  induction ids generalizing net with
  | nil => exact ⟨rfl, fun _ h _ => h⟩
  | cons id rest ih =>
    rw [List.mem_cons, not_or] at h
    obtain ⟨hattrs, hobservers⟩ := @ih (net.free id) h.2
    refine ⟨hattrs.trans (Store.attrs_free_ne (Ne.symm h.1)), fun obs hobs hobject => ?_⟩
    refine hobservers obs (List.mem_filter.2 ⟨hobs, ?_⟩) hobject
    rw [bne_iff_ne, hobject]
    exact h.1

/-- Only living objects that nothing refers to are freed. -/
theorem sweep_induction {Q : Network → Prop}
    (hfree : ∀ (net : Network) (ids : List Nat), (∀ id ∈ ids, id ∈ net.unheld) → Q net →
      Q (ids.foldl free net)) (h : Q net) : Q net.sweep := by
  have hrounds (n : Nat) : ∀ net, Q net → Q (sweepFor n net) := by
    induction n with
    | zero => exact fun _ h => h
    | succ n ih =>
      intro net h
      rw [sweepFor]
      split
      · exact h
      · exact ih _ (hfree net _ (fun _ hid => hid) h)
  exact hrounds _ _ h

end Network

end ReactiveView
