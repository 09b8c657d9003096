import ReactiveView.Proofs.Network.Commands
import ReactiveView.Proofs.Store.Changes

/-!
This module contains what no computation on a network undoes: what is gone stays gone, objects keep
what they accept and the attributes that they have, those of widgets stay, signals are only added,
and subscriptions are numbered in order. The network afterwards is a later one.

Every step of a computation other than an assignment is quiet: it changes no attribute of an object
that stays alive.
-/

namespace ReactiveView

/-- A handler that makes the host run commands of `P` only. -/
def Handler.Within (P : Command → Prop) : Handler → Prop
  | .host _ actions => ∀ c ∈ actions, P c
  | _ => True

namespace Network

variable (P : Command → Prop)

/-- The observers of the host run commands of `P` only. -/
def Hosts (net : Network) : Prop := ∀ o ∈ net.observers, o.handler.Within P

/-- All subscriptions have been numbered. -/
def Numbered (net : Network) : Prop := ∀ o ∈ net.observers, o.id < net.nextObserver

/--
What the network looks like at some later time, observers of the host running commands of `P`.
-/
structure Later (net net' : Network) : Prop where
  /-- What is gone stays gone. -/
  alive : ∀ id, net'.store.isAlive id = true → net.store.isAlive id = true
  /-- Objects accept what they accepted. -/
  shape : ∀ id, net'.store.shape? id = net.store.shape? id
  /-- Objects that stay alive keep their attributes. -/
  has : ∀ (o : ObjectRef) (attr : String), net'.store.isAlive o.id = true →
    net.store.has o attr = true → net'.store.has o attr = true
  /-- Numbers of subscriptions are not given again. -/
  next : net.nextObserver ≤ net'.nextObserver
  /-- A subscription is an old one or has a new number. -/
  observers : ∀ o ∈ net'.observers, o ∈ net.observers ∨
    (net.nextObserver ≤ o.id ∧ o.id < net'.nextObserver ∧ o.handler.Within P)
  /-- The host gives no new names. -/
  names : ∀ name o, net'.desk.objects.get? name = some o → net.desk.objects.get? name = some o
  /-- Widgets and compiled views refer to what they referred to. -/
  owners : net'.owners = net.owners
  /-- What they refer to stays. -/
  owned : ∀ id ∈ net.owners, net.store.isAlive id = true → net'.store.isAlive id = true
  /-- Signals are only added. -/
  signals : net.signals ⊆ net'.signals

/--
What the network looks like later when nothing was assigned in between.
-/
structure Quiet (net net' : Network) : Prop extends Later P net net' where
  /-- Objects that stay alive keep the values of their attributes. -/
  attrs : ∀ o : ObjectRef, net'.store.isAlive o.id = true → net'.store.attrs o = net.store.attrs o

variable {P} {net net' net'' : Network}

namespace Later

theorem refl (net : Network) : Later P net net :=
  ⟨fun _ h => h, fun _ => rfl, fun _ _ _ h => h, Nat.le_refl _, fun _ h => .inl h,
    fun _ _ h => h, rfl, fun _ _ h => h, fun _ h => h⟩

theorem trans (h : Later P net net') (h' : Later P net' net'') : Later P net net'' where
  alive id hid := h.alive id (h'.alive id hid)
  shape id := (h'.shape id).trans (h.shape id)
  has o attr halive hhas := h'.has o attr halive (h.has o attr (h'.alive o.id halive) hhas)
  next := Nat.le_trans h.next h'.next
  observers o ho := by
    rcases h'.observers o ho with hold | ⟨hle, hlt, hwithin⟩
    · rcases h.observers o hold with hold | ⟨hle, hlt, hwithin⟩
      · exact .inl hold
      · exact .inr ⟨hle, Nat.lt_of_lt_of_le hlt h'.next, hwithin⟩
    · exact .inr ⟨Nat.le_trans h.next hle, hlt, hwithin⟩
  names name o hname := h.names name o (h'.names name o hname)
  owners := h'.owners.trans h.owners
  owned id hid halive := h'.owned id (h.owners ▸ hid) (h.owned id hid halive)
  signals _ hsignal := h'.signals (h.signals hsignal)

theorem hosts (h : Later P net net') (hnet : net.Hosts P) : net'.Hosts P := by
  intro o ho
  rcases h.observers o ho with hold | ⟨-, -, hwithin⟩
  · exact hnet o hold
  · exact hwithin

end Later

namespace Quiet

theorem refl (net : Network) : Quiet P net net := ⟨.refl net, fun _ _ => rfl⟩

theorem trans (h : Quiet P net net') (h' : Quiet P net' net'') : Quiet P net net'' :=
  ⟨h.toLater.trans h'.toLater,
    fun o ho => (h'.attrs o ho).trans (h.attrs o (h'.alive o.id ho))⟩

theorem get? (h : Quiet P net net') {o : ObjectRef} (halive : net'.store.isAlive o.id = true)
    (attr : String) : net'.store.get? o attr = net.store.get? o attr := by
  unfold Store.get?
  rw [h.attrs o halive]

end Quiet

theorem Quiet.of_attrs
    (alive : ∀ id, net'.store.isAlive id = true → net.store.isAlive id = true)
    (shape : ∀ id, net'.store.shape? id = net.store.shape? id)
    (next : net.nextObserver ≤ net'.nextObserver)
    (observers : ∀ o ∈ net'.observers, o ∈ net.observers ∨
      (net.nextObserver ≤ o.id ∧ o.id < net'.nextObserver ∧ o.handler.Within P))
    (names : ∀ name o, net'.desk.objects.get? name = some o →
      net.desk.objects.get? name = some o)
    (owners : net'.owners = net.owners)
    (owned : ∀ id ∈ net.owners, net.store.isAlive id = true → net'.store.isAlive id = true)
    (signals : net.signals ⊆ net'.signals)
    (attrs : ∀ o : ObjectRef, net'.store.isAlive o.id = true →
      net'.store.attrs o = net.store.attrs o) : Quiet P net net' := by
  refine ⟨⟨alive, shape, fun o attr halive hhas => ?_, next, observers, names, owners, owned,
    signals⟩, attrs⟩
  unfold Store.has Store.get? at hhas ⊢
  rwa [attrs o halive]

/-! ### Quiet steps -/

/-- Subscriptions that ended, and all that is not looked at here. -/
theorem quiet_of_same (hstore : net'.store = net.store)
    (hnext : net'.nextObserver = net.nextObserver)
    (hobservers : ∀ o ∈ net'.observers, o ∈ net.observers)
    (hobjects : net'.desk.objects = net.desk.objects) (howners : net'.owners = net.owners)
    (hsignals : net.signals ⊆ net'.signals) : Quiet P net net' := by
  refine .of_attrs (fun _ h => ?_) (fun _ => ?_) (Nat.le_of_eq hnext.symm)
    (fun o ho => .inl (hobservers o ho)) (fun _ _ h => ?_) howners (fun _ _ h => ?_) hsignals
    fun _ _ => ?_
  · rwa [hstore] at h
  · rw [hstore]
  · rwa [hobjects] at h
  · rwa [hstore]
  · rw [hstore]

theorem Adds.quiet (h : net.Adds net') : Quiet P net net' :=
  quiet_of_same h.store h.nextObserver (fun _ ho => h.observers ▸ ho)
    (congrArg Desk.objects h.desk) h.owners h.signals

theorem quiet_hold (ids : List Nat) : Quiet P net (net.hold ids) :=
  quiet_of_same rfl rfl (fun _ h => h) rfl rfl fun _ h => h

theorem quiet_evaluated (scope : Scope) (e : Expr) : Quiet P net (net.evaluated scope e) :=
  quiet_of_same rfl rfl (fun _ h => h) rfl rfl fun _ h => h

theorem quiet_modifyLink (id : Nat) (f : Link → Link) : Quiet P net (net.modifyLink id f) :=
  quiet_of_same rfl rfl (fun _ h => h) rfl rfl fun _ h => h

theorem quiet_addLink (link : Link) : Quiet P net (net.addLink link).2 :=
  quiet_of_same rfl rfl (fun _ h => h) rfl rfl fun _ h => h

theorem quiet_unsubscribe (id : Nat) : Quiet P net (net.unsubscribe id) :=
  quiet_of_same rfl rfl (fun _ h => (List.mem_filter.1 h).1) rfl rfl fun _ h => h

theorem quiet_free {id : Nat} (hid : id ∉ net.owners) : Quiet P net (net.free id) := by
  refine .of_attrs (fun id' h => ?_) (fun _ => Store.shape?_free) (Nat.le_refl _)
    (fun _ ho => .inl (List.mem_filter.1 ho).1) (fun _ _ h => h) rfl (fun id' hid' halive => ?_)
    (fun _ h => h) fun o ho => ?_
  · change (net.store.free id).isAlive id' = true at h
    rw [Store.isAlive_free, Bool.and_eq_true] at h
    exact h.2
  · change (net.store.free id).isAlive id' = true
    rw [Store.isAlive_free, Bool.and_eq_true, bne_iff_ne]
    exact ⟨fun heq => hid (heq ▸ hid'), halive⟩
  · change (net.store.free id).isAlive o.id = true at ho
    rw [Store.isAlive_free, Bool.and_eq_true] at ho
    exact Store.attrs_free_ne (bne_iff_ne.1 ho.1)

theorem quiet_foldl {α : Type} {f : Network → α → Network} (hf : ∀ net a, Quiet P net (f net a))
    (l : List α) : Quiet P net (l.foldl f net) := by
  induction l generalizing net with
  | nil => exact .refl net
  | cons a rest ih => exact (hf net a).trans ih

theorem not_mem_owners {id : Nat} (h : net.holds id = false) : id ∉ net.owners := by
  intro hmem
  have hcontains : net.owners.contains id = true := List.contains_iff_mem.2 hmem
  simp only [holds, hcontains, Bool.true_or, Bool.true_eq_false] at h

theorem quiet_foldl_free {ids : List Nat} (h : ∀ id ∈ ids, id ∉ net.owners) :
    Quiet P net (ids.foldl free net) := by
  induction ids generalizing net with
  | nil => exact .refl net
  | cons id rest ih =>
    exact (quiet_free (h id (List.mem_cons_self ..))).trans
      (@ih (net.free id) fun id' hid' => h id' (List.mem_cons_of_mem _ hid'))

theorem holds_of_mem_unheld {id : Nat} (h : id ∈ net.unheld) : net.holds id = false := by
  have hunheld := (List.mem_filter.1 h).2
  rw [Bool.and_eq_true, Bool.not_eq_true'] at hunheld
  exact hunheld.2

theorem quiet_sweepFor (n : Nat) : Quiet P net (sweepFor n net) := by
  induction n generalizing net with
  | zero => exact .refl net
  | succ n ih =>
    rw [sweepFor]
    split
    · exact .refl net
    · exact (quiet_foldl_free fun id hid => not_mem_owners (holds_of_mem_unheld hid)).trans ih

theorem quiet_sweep : Quiet P net net.sweep := quiet_sweepFor _

theorem quiet_letGo (busy : List Nat) : Quiet P net (net.letGo busy) := by
  have hbusy : Quiet P net { net with busy } :=
    quiet_of_same rfl rfl (fun _ h => h) rfl rfl fun _ h => h
  exact hbusy.trans quiet_sweep

theorem quiet_subscribe (object : Nat) (attr : String) (handler : Handler)
    (h : handler.Within P) : Quiet P net (net.subscribe object attr handler).2 := by
  refine .of_attrs (fun _ h => h) (fun _ => rfl) (Nat.le_succ _) (fun o ho => ?_) (fun _ _ h => h)
    rfl (fun _ _ h => h) (fun _ h => h) fun _ _ => rfl
  rcases List.mem_append.1 ho with hold | hnew
  · exact .inl hold
  · obtain rfl := List.mem_singleton.1 hnew
    exact .inr ⟨Nat.le_refl _, Nat.lt_succ_self _, h⟩

theorem quiet_subscribeAll (handler : Handler) (h : handler.Within P) (ds : List Dependency) :
    Quiet P net (net.subscribeAll handler ds).2 := by
  induction ds generalizing net with
  | nil => exact .refl net
  | cons d rest ih => exact (quiet_subscribe d.object.id d.attr handler h).trans ih

theorem quiet_disconnect (link : Nat) : Quiet P net (net.disconnect link) := by
  unfold disconnect
  split
  · exact .refl net
  · exact (quiet_foldl (fun _ id => quiet_unsubscribe id) _).trans (quiet_modifyLink _ _)

theorem quiet_settleLink (link : Nat) : Quiet P net (net.settleLink link) := by
  unfold settleLink
  split
  · exact .refl net
  · split
    · exact .refl net
    · refine (quiet_disconnect link).trans (.trans ?_ quiet_sweep)
      exact quiet_of_same rfl rfl (fun _ h => h) rfl rfl fun _ h => h

theorem quiet_enterLink (link : Nat) : Quiet P net (net.enterLink link) := quiet_modifyLink _ _

theorem quiet_leaveLink (link : Nat) : Quiet P net (net.leaveLink link) :=
  (quiet_modifyLink _ _).trans (quiet_settleLink link)

theorem quiet_ownLink (link : Nat) : Quiet P net (net.ownLink link) := quiet_modifyLink _ _

theorem quiet_dropLink (link : Nat) : Quiet P net (net.dropLink link) :=
  (quiet_modifyLink _ _).trans (quiet_settleLink link)

theorem quiet_resubscribed (link : Nat) (scope : Scope) (e : Expr) :
    Quiet P net (net.resubscribed link scope e) :=
  (quiet_disconnect link).trans <| (quiet_evaluated scope e).trans <|
    (quiet_subscribeAll (.refresh link) trivial _).trans (quiet_modifyLink _ _)

theorem quiet_bound (e : Expr) (target : ObjectRef) (attr : String) (scope : Scope) :
    Quiet P net (net.bound e target attr scope) :=
  quiet_addLink _

theorem quiet_delegated (target : ObjectRef) (attr : String) (source : ObjectRef)
    (name : String) : Quiet P net (net.delegated target attr source name) :=
  (quiet_subscribe target.id attr (.writeThrough source name) trivial).trans <|
    (quiet_subscribe source.id name (.writeBack target attr) trivial).trans
      (quiet_addLink _)

theorem quiet_notified (statements : List Statement) (scope : Scope) (target : ObjectRef)
    (attr : String) : Quiet P net (net.notified statements scope target attr) :=
  (quiet_addLink _).trans <|
    (quiet_subscribe target.id attr (.run _) trivial).trans (quiet_modifyLink _ _)

theorem quiet_handled (handle : String) (link : Option Nat) :
    Quiet P net (net.handled handle link) := by
  have hinsert : Quiet P net { net with desk :=
      { net.desk with handles := net.desk.handles.insert handle link } } :=
    quiet_of_same rfl rfl (fun _ h => h) rfl rfl fun _ h => h
  unfold handled
  rcases (net.desk.handles.get? handle).join with _ | old
  · exact hinsert
  · exact hinsert.trans (quiet_dropLink old)

theorem quiet_released (handle : String) (link : Option Nat) :
    Quiet P net (net.released handle link) := by
  have herase : Quiet P net { net with desk :=
      { net.desk with handles := net.desk.handles.erase handle } } :=
    quiet_of_same rfl rfl (fun _ h => h) rfl rfl fun _ h => h
  unfold released
  rcases link with _ | id
  · exact herase
  · exact herase.trans (quiet_dropLink id)

theorem quiet_watched (o : ObjectRef) (attr id : String) {actions : List Command}
    (h : ∀ c ∈ actions, P c) : Quiet P net (net.watched o attr id actions) := by
  refine (quiet_subscribe o.id attr (.host id actions) h).trans (.trans ?_ quiet_sweep)
  exact quiet_of_same rfl rfl (fun _ h => h) rfl rfl fun _ h => h

theorem quiet_layered (names : Namespace) :
    Quiet P net { net with desk := { net.desk with scope := net.desk.scope.push names } } :=
  quiet_of_same rfl rfl (fun _ h => h) rfl rfl fun _ h => h

theorem quiet_forgot (object : String) :
    Quiet P net
      { net with desk := { net.desk with objects := net.desk.objects.erase object } }.sweep := by
  refine .trans ?_ quiet_sweep
  refine .of_attrs (fun _ h => h) (fun _ => rfl) (Nat.le_refl _) (fun _ h => .inl h)
    (fun name o h => ?_) rfl (fun _ _ h => h) (fun _ h => h) fun _ _ => rfl
  rcases Decidable.em (name = object) with rfl | hne
  · rw [Table.get?_erase_self] at h
    cases h
  · rwa [Table.get?_erase_ne _ hne] at h

/-- The network when a value has been put into an attribute is a later one. -/
theorem later_put (o : ObjectRef) (attr : String) (v : Value) :
    Later P net { net with store := net.store.put o attr v } where
  alive _ h := by rwa [Store.isAlive_put] at h
  shape _ := Store.shape?_put
  has _ _ _ h := Store.has_put h
  next := Nat.le_refl _
  observers _ ho := .inl ho
  names _ _ h := h
  owners := rfl
  owned _ _ h := by rwa [Store.isAlive_put]
  signals _ h := h

end Network

end ReactiveView
