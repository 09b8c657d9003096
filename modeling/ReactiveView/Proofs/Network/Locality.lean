import ReactiveView.Proofs.Network.Realms
import Mathlib

/-!
This module contains that what a party does comes to the same on two networks that are the same in its
realm: what is assigned, what that sets off, and what is tied. On either network nothing changes
outside of the realm.
-/

namespace ReactiveView

open Cascade Network

theorem Results.imp {β β' : Type} {S T : β → β' → Prop} {r : Except EvalError β}
    {r' : Except EvalError β'} (h : Results S r r') (hST : ∀ x y, S x y → T x y) : Results T r r' := by
  cases h with
  | ok h => exact .ok (hST _ _ h)
  | error e => exact .error e

namespace Realm

variable (R : Realm)

/-- Two networks that are the same in the realm, and on which the same numbers come next. -/
structure Same (a b : Network) : Prop where
  objects : ∀ i, R.Within i → b.store.objects[i]? = a.store.objects[i]?
  objectCount : b.store.objects.size = a.store.objects.size
  links : ∀ k, R.links k → b.link? k = a.link? k
  linkCount : b.links.size = a.links.size
  observers : b.observers.filter R.follows = a.observers.filter R.follows
  nextObserver : b.nextObserver = a.nextObserver
  nextFunction : b.nextFunction = a.nextFunction
  owners : ∀ i, R.objects i → (i ∈ b.owners ↔ i ∈ a.owners)
  busy : b.busy = a.busy
  signals : b.signals = a.signals

/-- Two networks that differ from what they were at first only in the realm, and there they are the
same. -/
structure Nets (base base' a b : Network) : Prop where
  left : R.Confines base a
  right : R.Confines base' b
  same : R.Same a b
  /-- The same is held from outside. -/
  held : ∀ i, R.objects i → (R.HeldOutside base' i ↔ R.HeldOutside base i)

variable {R} {base base' a b a' b' net : Network} {i k : Nat}

theorem Same.refl (net : Network) : R.Same net net :=
  ⟨fun _ _ => rfl, rfl, fun _ _ => rfl, rfl, rfl, rfl, rfl, fun _ _ => Iff.rfl, rfl, rfl⟩

/-! ### Operations on both -/

namespace Same

variable (h : R.Same a b)

include h

theorem hold (is : List Nat) : R.Same (a.hold is) (b.hold is) :=
  { h with busy := congrArg (is ++ ·) h.busy }

theorem signal (w : Nat) : R.Same { a with signals := a.signals ++ [w] }
    { b with signals := b.signals ++ [w] } :=
  { h with signals := congrArg (· ++ [w]) h.signals }

theorem stored {store store' : Store}
    (hobjects : ∀ i, R.Within i → store'.objects[i]? = store.objects[i]?)
    (hsize : store'.objects.size = store.objects.size) :
    R.Same { a with store } { b with store := store' } :=
  { h with
    objects := hobjects
    objectCount := hsize }

theorem put (o : ObjectRef) (attr : String) (v : Value) :
    R.Same { a with store := a.store.put o attr v } { b with store := b.store.put o attr v } :=
  h.stored (fun i hi => by rw [Store.objects_put, Store.objects_put, h.objects i hi])
    (Store.size_put.trans (h.objectCount.trans Store.size_put.symm))

theorem unfollow (p : Observer → Bool) :
    R.Same { a with observers := a.observers.filter p }
      { b with observers := b.observers.filter p } :=
  { h with
    observers := by
      dsimp only
      rw [List.filter_comm, h.observers, List.filter_comm] }

theorem free (i : Nat) : R.Same (a.free i) (b.free i) :=
  (h.unfollow fun ob => ob.object != i).stored
    (fun j hj => by rw [Store.objects_free, Store.objects_free, h.objects j hj])
    (Store.size_free.trans (h.objectCount.trans Store.size_free.symm))

theorem relinked {links links' : Array (Option Link)}
    (hlinks : ∀ k, R.links k → (b.relinked links').link? k = (a.relinked links).link? k)
    (hsize : links'.size = links.size) : R.Same (a.relinked links) (b.relinked links') :=
  { h with
    links := hlinks
    linkCount := hsize }

theorem modifyLink (k : Nat) (f : Link → Link) : R.Same (a.modifyLink k f) (b.modifyLink k f) := by
  refine h.relinked (fun j hj => ?_) ?_
  · change (b.modifyLink k f).link? j = (a.modifyLink k f).link? j
    rw [link?_modifyLink, link?_modifyLink, h.links j hj]
  · exact Array.size_modify.trans (h.linkCount.trans Array.size_modify.symm)

theorem withoutLink (k : Nat) : R.Same (a.withoutLink k) (b.withoutLink k) := by
  refine h.relinked (fun j hj => ?_) ?_
  · change (b.withoutLink k).link? j = (a.withoutLink k).link? j
    rw [link?_withoutLink, link?_withoutLink, h.links j hj]
  · exact Array.size_modify.trans (h.linkCount.trans Array.size_modify.symm)

theorem addLink (lk : Link) : R.Same (a.addLink lk).2 (b.addLink lk).2 := by
  refine h.relinked (fun j hj => ?_) ?_
  · change (b.addLink lk).2.link? j = (a.addLink lk).2.link? j
    rw [link?_addLink, link?_addLink, h.links j hj, h.linkCount]
  · exact (Array.size_push _).trans ((congrArg (· + 1) h.linkCount).trans (Array.size_push _).symm)

theorem disconnect (hk : R.links k) : R.Same (a.disconnect k) (b.disconnect k) := by
  have hlink := h.links k hk
  cases hlk : a.link? k with
  | none => rwa [disconnect_of_none hlk, disconnect_of_none (hlink.trans hlk)]
  | some lk =>
    rw [disconnect_of_some hlk, disconnect_of_some (hlink.trans hlk)]
    exact (h.unfollow fun ob => !lk.subscriptions.contains ob.id).modifyLink k _

theorem subscribe (object : Nat) (attr : String) (handler : Handler) :
    R.Same (a.subscribe object attr handler).2 (b.subscribe object attr handler).2 :=
  { h with
    observers := by
      unfold Network.subscribe
      dsimp only
      rw [List.filter_append, List.filter_append, h.observers, h.nextObserver]
    nextObserver := congrArg (· + 1) h.nextObserver }

theorem subscribeAll (handler : Handler) (ds : List Dependency) :
    (b.subscribeAll handler ds).1 = (a.subscribeAll handler ds).1 ∧
      R.Same (a.subscribeAll handler ds).2 (b.subscribeAll handler ds).2 := by
  induction ds generalizing a b with
  | nil => exact ⟨rfl, h⟩
  | cons d rest ih =>
    obtain ⟨hids, hrest⟩ := ih (h.subscribe d.object.id d.attr handler)
    exact ⟨congrArg₂ List.cons h.nextObserver hids, hrest⟩

theorem delegated (o : ObjectRef) (attr : String) (source : ObjectRef) (name : String) :
    R.Same (a.delegated o attr source name) (b.delegated o attr source name) := by
  have hsub := (h.subscribe o.id attr (.writeThrough source name)).subscribe source.id name
    (.writeBack o attr)
  have hadded := hsub.addLink
    { body := .delegate, subscriptions := [a.nextObserver, a.nextObserver + 1], owned := true }
  unfold Network.delegated
  change R.Same _ ((((b.subscribe o.id attr (.writeThrough source name)).2.subscribe source.id name
    (.writeBack o attr)).2.addLink
      { body := .delegate, subscriptions := [b.nextObserver, b.nextObserver + 1], owned := true }).2)
  rw [h.nextObserver]
  exact hadded

theorem notified (statements : List Statement) (scope : Scope) (o : ObjectRef) (attr : String) :
    R.Same (a.notified statements scope o attr) (b.notified statements scope o attr) := by
  have hadded := h.addLink { body := .notify statements scope, owned := true }
  have hsub := hadded.subscribe o.id attr (.run a.links.size)
  unfold Network.notified
  change R.Same _ (((b.addLink { body := .notify statements scope, owned := true }).2.subscribe o.id
    attr (.run b.links.size)).2.modifyLink b.links.size
      fun l => { l with subscriptions := [b.nextObserver] })
  rw [h.linkCount, h.nextObserver]
  exact hsub.modifyLink _ _

end Same

namespace Nets

/-- Who observes an object of the realm is the same on both sides. -/
theorem observersOf (h : R.Nets base base' a b) (hi : R.objects i) (attr : String) :
    b.observersOf i attr = a.observersOf i attr := by
  have hfollows {net base : Network} (hnet : R.Confines base net) : net.observersOf i attr
      = (net.observers.filter R.follows).filter fun ob => ob.object == i && ob.attr == attr := by
    unfold Network.observersOf
    rw [List.filter_filter]
    refine List.filter_congr fun ob hob => ?_
    cases hslot : ob.object == i && ob.attr == attr with
    | false => rfl
    | true =>
      rw [Bool.and_eq_true, beq_iff_eq] at hslot
      exact (follows_eq_true_iff.2 (hnet.watched ob hob (hslot.1 ▸ hi))).symm
  rw [hfollows h.left, hfollows h.right, h.same.observers]

theorem isAlive (h : R.Nets base base' a b) (hi : R.Within i) :
    b.store.isAlive i = a.store.isAlive i := by
  unfold Store.isAlive
  rw [h.same.objects i hi]

theorem attrs (h : R.Nets base base' a b) {o : ObjectRef} (ho : R.Within o.id) :
    b.store.attrs o = a.store.attrs o := by
  unfold Store.attrs
  rw [h.same.objects _ ho]

theorem get? (h : R.Nets base base' a b) {o : ObjectRef} (ho : R.Within o.id) (attr : String) :
    b.store.get? o attr = a.store.get? o attr := by
  unfold Store.get?
  rw [h.attrs ho]

/-! ### Sweeping -/

theorem holds (h : R.Nets base base' a b) (hi : R.objects i) : b.holds i = a.holds i := by
  have hinside : R.HeldInside b i ↔ R.HeldInside a i := by
    unfold HeldInside
    refine or_congr ?_ ?_
    · exact exists₂_congr fun j obj => and_congr_right fun hj => by rw [h.same.objects j (.inl hj)]
    · exact exists₂_congr fun k lk => and_congr_right fun hk => by rw [h.same.links k hk]
  refine Bool.eq_iff_iff.2 ?_
  rw [holds_iff (R := R), holds_iff (R := R), h.same.owners i hi, h.same.busy, hinside,
    h.left.heldOutside_iff, h.right.heldOutside_iff, h.held i hi]

/-- The same is held by nothing on both sides. -/
theorem unheld (h : R.Nets base base' a b) : b.unheld = a.unheld := by
  unfold Network.unheld
  rw [h.same.objectCount]
  refine List.filter_congr fun i _ => ?_
  by_cases hi : R.objects i
  · rw [h.holds hi, h.isAlive (.inl hi)]
  · have houtside {net base : Network} (hnet : R.Confines base net) :
        (net.store.isAlive i && !net.holds i) = false := by
      cases halive : net.store.isAlive i with
      | false => rfl
      | true => rw [hnet.holds hi halive, Bool.not_true, Bool.and_false]
    rw [houtside h.left, houtside h.right]

theorem foldl_free (h : R.Nets base base' a b) {is : List Nat} (his : ∀ i ∈ is, R.objects i) :
    R.Nets base base' (is.foldl Network.free a) (is.foldl Network.free b) := by
  induction is generalizing a b with
  | nil => exact h
  | cons i rest ih =>
    rw [List.forall_mem_cons] at his
    exact ih ⟨h.left.free his.1, h.right.free his.1, h.same.free i, h.held⟩ his.2

theorem sweep (h : R.Nets base base' a b) : R.Nets base base' a.sweep b.sweep := by
  have hrounds (n : Nat) : R.Nets base base' (sweepFor n a) (sweepFor n b) := by
    induction n generalizing a b with
    | zero => exact h
    | succ n ih =>
      rw [sweepFor, sweepFor, h.unheld]
      split
      · exact h
      · exact ih (h.foldl_free fun i hi => h.left.objects_of_mem_unheld hi)
  unfold Network.sweep
  rw [h.same.objectCount]
  exact hrounds _

theorem letGo (h : R.Nets base base' a b) {busy : List Nat} (hbusy : ∀ i ∈ busy, R.Within i) :
    R.Nets base base' (a.letGo busy) (b.letGo busy) :=
  have hleft : R.Nets base base' { a with busy } { b with busy } :=
    ⟨h.left.same rfl rfl rfl rfl rfl rfl hbusy h.left.signals,
      h.right.same rfl rfl rfl rfl rfl rfl hbusy h.right.signals, { h.same with busy := rfl }, h.held⟩
  hleft.sweep

/-! ### Life of bindings -/

theorem modifyLink (h : R.Nets base base' a b) (hk : R.links k) {f : Link → Link}
    (hf : ∀ lk, R.Ties lk → R.Ties (f lk)) :
    R.Nets base base' (a.modifyLink k f) (b.modifyLink k f) :=
  ⟨h.left.modifyLink hk hf, h.right.modifyLink hk hf, h.same.modifyLink k f, h.held⟩

theorem disconnect (h : R.Nets base base' a b) (hk : R.links k) :
    R.Nets base base' (a.disconnect k) (b.disconnect k) :=
  ⟨h.left.disconnect hk, h.right.disconnect hk, h.same.disconnect hk, h.held⟩

theorem settleLink (h : R.Nets base base' a b) (hk : R.links k) :
    R.Nets base base' (a.settleLink k) (b.settleLink k) := by
  unfold Network.settleLink
  rw [h.same.links k hk]
  split
  · exact h
  · split
    · exact h
    · have hcut := h.disconnect hk
      exact Nets.sweep ⟨hcut.left.withoutLink hk, hcut.right.withoutLink hk, hcut.same.withoutLink k,
        h.held⟩

theorem leaveLink (h : R.Nets base base' a b) (hk : R.links k) :
    R.Nets base base' (a.leaveLink k) (b.leaveLink k) :=
  have hleft : R.Nets base base' (a.modifyLink k fun l => { l with running := l.running - 1 })
      (b.modifyLink k fun l => { l with running := l.running - 1 }) :=
    h.modifyLink hk fun _ hlk => ⟨hlk.body, hlk.subscriptions⟩
  hleft.settleLink hk

theorem ownLink (h : R.Nets base base' a b) (hk : R.links k) :
    R.Nets base base' (a.ownLink k) (b.ownLink k) :=
  h.modifyLink hk fun _ hlk => ⟨hlk.body, hlk.subscriptions⟩

end Nets

/-! ### Evaluation -/

theorem within_iff {i i' j j' : Nat} (h : i = i' ∧ R.Within i) (h' : j = j' ∧ R.Within j) :
    i = j ↔ i' = j' :=
  Eq.congr h.1 h'.1

variable (R) in
/-- What the realm may refer to stands for itself, and so do methods. -/
def pairing : Pairing where
  objects i i' := i = i' ∧ R.Within i
  methods i i' := i = i'
  objects_iff := @within_iff R
  methods_iff := @Eq.congr Nat

theorem eq_of_alike {v v' : Value} (h : v.Alike R.pairing v') : v' = v ∧ R.Knows v := by
  refine ⟨v.eq_of_alike v' (fun _ _ (h : _ ∧ _) => h.1) (fun _ _ => id) h, ?_⟩
  have hreferences : List.Forall₂ (fun o o' => R.Within o.id ∧ o.Alike R.pairing o') v.references
      v'.references := (v.references_alike v' h).imp fun o o' ho => ⟨ho.id.2, ho⟩
  exact ((List.forall₂_and_left _ _).1 hreferences).1

theorem Knows.alike {v : Value} (h : R.Knows v) : v.Alike R.pairing v :=
  Value.alike_self v (fun o ho => ⟨rfl, h o ho⟩) fun _ _ => rfl

namespace Nets

variable {scope : Scope}

theorem alike (h : R.Nets base base' a b) : a.store.Alike R.pairing b.store := by
  rintro i _ ⟨rfl, hi⟩
  rw [h.same.objects i hi]
  cases hobj : a.store.objects[i]? with
  | none => exact .none
  | some obj =>
    refine .some ⟨rfl, rfl, rfl, List.forall₂_same.2 fun entry hentry => ⟨rfl, ?_⟩⟩
    exact (h.left.knows hi hobj (List.mem_map_of_mem hentry)).alike

/-- An expression comes to the same on both sides, reads the same, and the same number comes next. -/
theorem run (h : R.Nets base base' a b) (hscope : R.Sees scope) (e : Expr) :
    Results (fun v v' => v' = v ∧ R.Knows v) (a.outcome scope e).1 (b.outcome scope e).1 ∧
      (b.outcome scope e).2.reads = (a.outcome scope e).2.reads ∧
      (∀ d ∈ (a.outcome scope e).2.reads, R.Within d.object.id) ∧
      (b.outcome scope e).2.fresh = (a.outcome scope e).2.fresh := by
  have hnames : scope.AlikeOn R.pairing scope e.names :=
    Scope.alikeOn_self (P := R.pairing) (fun o ho => ⟨rfl, hscope o ho⟩) (fun _ => rfl) e.names
  obtain ⟨hresult, hfresh, hreads, -⟩ := e.run_alike h.alike hnames
    (fun n => (rfl : a.nextFunction + n = a.nextFunction + n))
  have hright : b.outcome scope e = e.run b.store scope a.nextFunction := by
    unfold outcome
    rw [h.same.nextFunction]
  rw [hright]
  have hsame : List.Forall₂ (fun d d' => R.Within d.object.id ∧ d = d') (a.outcome scope e).2.reads
      (e.run b.store scope a.nextFunction).2.reads := hreads.imp fun d d' hd => by
    refine ⟨hd.object.id.2, ?_⟩
    have hobject := hd.object.eq hd.object.id.1
    have hattr := hd.attr
    cases d
    cases d'
    cases hobject
    cases hattr
    rfl
  obtain ⟨hwithin, hreads⟩ := (List.forall₂_and_left _ _).1 hsame
  rw [List.forall₂_eq_eq_eq] at hreads
  exact ⟨hresult.imp fun _ _ => eq_of_alike, hreads.symm, hwithin, (hfresh 0).symm⟩

theorem evaluated (h : R.Nets base base' a b) (hscope : R.Sees scope) (e : Expr) :
    R.Nets base base' (a.evaluated scope e) (b.evaluated scope e) :=
  ⟨h.left.evaluated scope e, h.right.evaluated scope e,
    { h.same with nextFunction := (h.run hscope e).2.2.2 }, h.held⟩

/-- A bind is subscribed to what it reads. -/
theorem resubscribed (h : R.Nets base base' a b) (hk : R.links k) (hscope : R.Sees scope)
    (e : Expr) : R.Nets base base' (a.resubscribed k scope e) (b.resubscribed k scope e) := by
  have hcut := h.disconnect hk
  obtain ⟨hresult, hreads, hwithin, -⟩ := hcut.run hscope e
  have hevaluated := hcut.evaluated hscope e
  have hok : ((b.disconnect k).outcome scope e).1.isOk = ((a.disconnect k).outcome scope e).1.isOk := by
    generalize ((a.disconnect k).outcome scope e).1 = r at hresult ⊢
    generalize ((b.disconnect k).outcome scope e).1 = r' at hresult ⊢
    cases hresult <;> rfl
  obtain ⟨hleft, hids⟩ := hevaluated.left.subscribeAll (.refresh k) hk hwithin
  obtain ⟨hright, -⟩ := hevaluated.right.subscribeAll (.refresh k) hk hwithin
  obtain ⟨hsameIds, hsame⟩ := hevaluated.same.subscribeAll (.refresh k)
    ((a.disconnect k).outcome scope e).2.reads
  unfold Network.resubscribed
  dsimp only
  rw [hreads, hsameIds, hok]
  exact Nets.modifyLink ⟨hleft, hright, hsame, h.held⟩ hk fun lk hlk => ⟨hlk.body, hids⟩

end Nets

/-! ### The likeness -/

variable (R) in
/-- The same happens on both sides, as far as the realm goes. -/
def likeness (base base' : Network) : Likeness where
  nets := R.Nets base base'
  values v v' := v' = v ∧ R.Knows v
  ids i i' := i' = i ∧ R.Within i
  slots o o' _ := o' = o ∧ R.Within o.id
  links k k' := k' = k ∧ R.links k
  widgets w w' := w' = w ∧ R.components w
  scopes scope scope' := scope' = scope ∧ R.Sees scope
  runs := True

theorem handlers_likeness {handler : Handler} (h : R.Admits handler) :
    (R.likeness base base').Handlers handler handler := by
  cases handler with
  | refresh k => exact .refresh ⟨rfl, h⟩
  | run k => exact .run ⟨rfl, h⟩ trivial
  | writeThrough o attr => exact .writeThrough ⟨rfl, h⟩
  | writeBack o attr => exact .writeBack ⟨rfl, h⟩
  | hint w => exact .hint ⟨rfl, h⟩
  | host id actions =>
    cases (h : actions = [])
    exact .host id

theorem bodies_likeness {body : LinkBody} (h : R.Binds body) :
    (R.likeness base base').Bodies body body := by
  cases body with
  | bind e o attr scope => exact .bind ⟨rfl, h.1⟩ ⟨rfl, h.2⟩
  | delegate => exact .delegate
  | notify statements scope => exact .notify fun _ => ⟨rfl, rfl, h⟩

theorem knows_of_get? (h : R.Confines base net) {o : ObjectRef} (ho : R.Within o.id) {attr : String}
    {v : Value} (hv : net.store.get? o attr = some v) : R.Knows v := by
  unfold Store.get? Store.attrs at hv
  cases hobj : net.store.objects[o.id]? with
  | none =>
    rw [hobj] at hv
    cases hv
  | some obj =>
    rw [hobj] at hv
    exact h.knows ho hobj (List.mem_map_of_mem (Table.mem_of_get? hv))

/-- An assignment comes to the same on both sides. What nobody can change refuses it. -/
theorem Nets.assign (h : R.Nets base base' a b) {o : ObjectRef} (ho : R.Within o.id) (attr : String)
    {v : Value} (hv : R.Knows v) :
    (R.likeness base base').Assignments a b o o attr (a.store.assign o attr v)
      (b.store.assign o attr v) := by
  have hobjects := h.same.objects _ ho
  have hchanged {old : Value} (hmine : R.objects o.id) (hold : R.Knows old) :
      (R.likeness base base').Assignments a b o o attr
        (.ok (.changed (a.store.put o attr v) old)) (.ok (.changed (b.store.put o attr v) old)) := by
    refine .changed ⟨h.left.put hmine attr hv, h.right.put hmine attr hv, h.same.put o attr v, h.held⟩
      ⟨rfl, hold⟩ ?_
    rw [h.observersOf hmine]
    refine List.forall₂_same.2 fun ob hob => ?_
    obtain ⟨hmem, hslot⟩ := List.mem_filter.1 hob
    rw [Bool.and_eq_true, beq_iff_eq] at hslot
    exact handlers_likeness (h.left.admitted ob hmem (h.left.watched ob hmem (hslot.1 ▸ hmine))).2
  unfold Store.assign
  rw [hobjects]
  cases hobj : a.store.objects[o.id]? with
  | none => exact .unchanged
  | some obj =>
    dsimp only
    split
    · exact .refused _
    · next hopen =>
      have hmine : R.objects o.id := ho.resolve_right fun hshared => by
        obtain ⟨obj', hobj', hfrozen, -⟩ := h.left.shared hshared
        cases hobj.symm.trans hobj'
        exact hopen hfrozen
      cases hold : obj.attrs.get? attr with
      | none =>
        dsimp only
        split
        · exact .refused _
        · exact hchanged hmine fun o ho => by simp [Value.references] at ho
      | some old =>
        dsimp only
        split
        · exact .unchanged
        · exact hchanged hmine (h.left.knows ho hobj (List.mem_map_of_mem (Table.mem_of_get? hold)))

theorem Sees.push {scope : Scope} (h : R.Sees scope) {layer : Namespace}
    (hlayer : ∀ v ∈ layer.values, R.Knows v) : R.Sees (scope.push layer) := by
  intro o ho
  unfold Scope.references Scope.push at ho
  rw [List.flatMap_cons] at ho
  rcases List.mem_append.1 ho with ho | ho
  · obtain ⟨v, hv, ho⟩ := List.mem_flatMap.1 ho
    exact hlayer v hv o ho
  · exact h o ho

theorem knows_of_mem_ofList {entries : List (String × Value)} (h : ∀ e ∈ entries, R.Knows e.2) :
    ∀ v ∈ (Table.ofList entries).values, R.Knows v := by
  have hfold (t : Namespace) (ht : ∀ v ∈ t.values, R.Knows v) :
      ∀ v ∈ (entries.foldl (fun t e => t.insert e.1 e.2) t).values, R.Knows v := by
    induction entries generalizing t with
    | nil => exact ht
    | cons e rest ih =>
      rw [List.forall_mem_cons] at h
      refine ih h.2 _ fun v hv => ?_
      obtain ⟨e', he', rfl⟩ := List.mem_map.1 hv
      rcases Table.mem_insertEntry he' with rfl | he'
      · exact h.1
      · exact ht _ (List.mem_map_of_mem he')
  exact hfold _ (List.forall_mem_nil _)

theorem lawful (base base' : Network) : (R.likeness base base').Lawful where
  assign := by
    rintro a b o _ attr v _ h ⟨rfl, ho⟩ ⟨rfl, hv⟩
    exact h.assign ho attr hv
  hold := by
    intro a b is is' h his
    have his' : List.Forall₂ (fun i i' => R.Within i ∧ i = i') is is' :=
      his.imp fun _ _ hi => ⟨hi.2, hi.1.symm⟩
    obtain ⟨hwithin, hsame⟩ := (List.forall₂_and_left _ _).1 his'
    rw [List.forall₂_eq_eq_eq] at hsame
    subst hsame
    exact ⟨h.left.hold hwithin, h.right.hold hwithin, h.same.hold is, h.held⟩
  letGo := by
    intro a b a' b' h h'
    rw [h.same.busy]
    exact h'.letGo h.left.busy
  ids := by
    rintro o _ attr ⟨rfl, ho⟩
    exact ⟨rfl, ho⟩
  references := by
    rintro v _ ⟨rfl, hv⟩
    refine List.forall₂_same.2 fun i hi => ⟨rfl, ?_⟩
    obtain ⟨o, ho, rfl⟩ := List.mem_map.1 hi
    exact hv o ho
  note level message fields h :=
    ⟨h.left.same rfl rfl rfl rfl rfl rfl h.left.busy h.left.signals,
      h.right.same rfl rfl rfl rfl rfl rfl h.right.busy h.right.signals, { h.same with }, h.held⟩
  signal := by
    rintro a b _ w h ⟨rfl, hw⟩
    exact ⟨h.left.signal hw, h.right.signal hw, h.same.signal w, h.held⟩
  happened id h _ :=
    ⟨h.left.same rfl rfl rfl rfl rfl rfl h.left.busy h.left.signals,
      h.right.same rfl rfl rfl rfl rfl rfl h.right.busy h.right.signals, { h.same with }, h.held⟩
  describe := by
    rintro a b o _ attr h ⟨rfl, ho⟩
    unfold Store.describe
    rw [h.get? ho]
  alive := by
    rintro a b o _ attr h ⟨rfl, ho⟩
    exact h.isAlive ho
  link := by
    rintro a b _ k h ⟨rfl, hk⟩
    rw [h.same.links k hk]
    cases hlk : a.link? k with
    | none => exact .none
    | some lk => exact .some (bodies_likeness (h.left.ties k lk hk hlk).body)
  enter := by
    rintro a b k _ h ⟨rfl, hk⟩
    exact h.modifyLink hk fun _ hlk => ⟨hlk.body, hlk.subscriptions⟩
  leave := by
    rintro a b k _ h ⟨rfl, hk⟩
    exact h.leaveLink hk
  outcome := by
    rintro a b scope _ e h ⟨rfl, hscope⟩
    obtain ⟨hresult, hreads, hwithin, -⟩ := h.run hscope e
    refine ⟨hresult, ?_⟩
    rw [hreads]
    refine List.forall₂_same.2 fun i hi => ⟨rfl, ?_⟩
    obtain ⟨d, hd, rfl⟩ := List.mem_map.1 hi
    exact hwithin d hd
  evaluated := by
    rintro a b scope _ e h ⟨rfl, hscope⟩
    exact h.evaluated hscope e
  disconnect := by
    rintro a b k _ h ⟨rfl, hk⟩
    exact h.disconnect hk
  resubscribed := by
    rintro a b k _ e o o' attr scope _ h ⟨rfl, hk⟩ ⟨rfl, hscope⟩ - -
    exact h.resubscribed hk hscope e
  names := by
    rintro scope _ c c' - ⟨rfl, hscope⟩ ⟨⟨hobject, hslot⟩, -, ⟨hold, hknown⟩, hnew, hknown'⟩
    unfold Change.names
    rw [hobject, hold, hnew]
    refine ⟨rfl, hscope.push (knows_of_mem_ofList ?_)⟩
    rw [List.forall_mem_cons, List.forall_mem_cons, List.forall_mem_singleton, knows_object]
    exact ⟨hslot, hknown, hknown'⟩
  kinds := by
    rintro _ v ⟨rfl, hv⟩
    cases v with
    | object o => exact .object fun _ _ => ⟨rfl, knows_object.1 hv⟩
    | _ => exact .other rfl rfl rfl

/-! ### Tying -/

namespace Nets

variable {scope : Scope} {o : ObjectRef} {attr : String}

theorem assigned (h : R.Nets base base' a b) (n : Nat) (ho : R.Within o.id) {v : Value}
    (hv : R.Knows v) : Agree (R.Nets base base') Eq (ReactiveView.assign n o attr v a)
      (ReactiveView.assign n o attr v b) :=
  ((lawful base base').agreeing n).assign h ⟨rfl, ho⟩ ⟨rfl, hv⟩

theorem announced (h : R.Nets base base' a b) (n : Nat) (ho : R.objects o.id) {old new : Value}
    (hold : R.Knows old) (hnew : R.Knows new) :
    Agree (R.Nets base base') (fun _ _ => True) (ReactiveView.announce n ⟨o, attr, old, new⟩ a)
      (ReactiveView.announce n ⟨o, attr, old, new⟩ b) := by
  refine ((lawful base base').agreeing n).announce h ⟨⟨rfl, .inl ho⟩, rfl, ⟨rfl, hold⟩, rfl, hnew⟩ ?_
  rw [h.observersOf ho]
  refine List.forall₂_same.2 fun ob hob => ?_
  obtain ⟨hmem, hslot⟩ := List.mem_filter.1 hob
  rw [Bool.and_eq_true, beq_iff_eq] at hslot
  exact handlers_likeness (h.left.admitted ob hmem (h.left.watched ob hmem (hslot.1 ▸ ho))).2

section

variable (h : R.Nets base base' a b) (hscope : R.Sees scope) (ho : R.Within o.id)

include h hscope ho

theorem agree_default (n : Nat) (code : String) (e : Expr) :
    Agree (R.Nets base base') Eq (connect (n + 1) (.default code e) o attr scope a)
      (connect (n + 1) (.default code e) o attr scope b) := by
  unfold connect
  refine Agree.bind ((lawful base base').evaluate h ⟨rfl, hscope⟩ e) fun r r' a' b' hr h' => ?_
  obtain ⟨r, _⟩ := r
  obtain ⟨r', _⟩ := r'
  cases hr with
  | error e => exact agree_pure rfl h'
  | ok hv =>
    obtain ⟨rfl, hv⟩ := hv
    refine (h'.assigned n ho hv).bind fun r _ a' b' hr h' => ?_
    subst hr
    cases r with
    | ok _ => exact agree_pure rfl h'
    | error e => exact agree_pure rfl h'

theorem agree_bind (n : Nat) (code : String) (e : Expr) :
    Agree (R.Nets base base') Eq (connect (n + 1) (.bind code e) o attr scope a)
      (connect (n + 1) (.bind code e) o attr scope b) := by
  have hlink : R.links a.links.size := h.left.nextLink _ le_rfl
  have hbound : R.Nets base base' (a.bound e o attr scope) (b.bound e o attr scope) :=
    ⟨h.left.bound e ho attr hscope, h.right.bound e ho attr hscope, h.same.addLink _, h.held⟩
  have hcount : b.links.size = a.links.size := h.same.linkCount
  unfold connect
  refine agree_get_bind (agree_set_bind ?_)
  refine (((lawful base base').agreeing n).refresh hbound ⟨hcount, hlink⟩).bind
    fun r _ a' b' hr h' => ?_
  subst hr
  rw [hcount]
  cases r with
  | error e => exact agree_modify_bind (agree_pure rfl (h'.leaveLink hlink))
  | ok _ =>
    exact agree_modify_bind (agree_pure rfl ((h'.ownLink hlink).leaveLink hlink))

theorem agree_delegate (n : Nat) (code : String) (e : Expr) (name : String) :
    Agree (R.Nets base base') Eq (connect (n + 1) (.delegate code e name) o attr scope a)
      (connect (n + 1) (.delegate code e name) o attr scope b) := by
  unfold connect
  refine Agree.bind ((lawful base base').evaluate h ⟨rfl, hscope⟩ e) fun r r' a' b' hr h' => ?_
  obtain ⟨r, _⟩ := r
  obtain ⟨r', _⟩ := r'
  cases hr with
  | error e => exact agree_pure rfl h'
  | @ok _ v hv =>
    obtain ⟨rfl, hv⟩ := hv
    cases v with
    | object source =>
      have hsource := knows_object.1 hv
      refine agree_get_bind ?_
      rw [h'.get? hsource]
      cases hinitial : a'.store.get? source name with
      | none => exact agree_pure rfl h'
      | some initial =>
        have hknown := knows_of_get? h'.left hsource hinitial
        refine (lawful base base').agree_held h' (.cons ⟨rfl, hsource⟩ .nil) fun hheld => ?_
        refine (hheld.assigned n ho hknown).bind fun r _ a' b' hr h' => ?_
        subst hr
        cases r with
        | error e => exact agree_pure rfl h'
        | ok _ =>
          refine agree_get_bind (agree_set_bind ?_)
          refine agree_pure (congrArg _ (congrArg _ h'.same.linkCount.symm)) ?_
          exact ⟨h'.left.delegated ho hsource attr name, h'.right.delegated ho hsource attr name,
            h'.same.delegated o attr source name, h'.held⟩
    | _ => exact agree_pure rfl h'

theorem agree_notify (n : Nat) (code : String) (statements : List Statement) :
    Agree (R.Nets base base') Eq (connect (n + 1) (.notify code statements) o attr scope a)
      (connect (n + 1) (.notify code statements) o attr scope b) := by
  unfold connect
  refine agree_get_bind (agree_set_bind ?_)
  refine agree_pure (congrArg _ (congrArg _ h.same.linkCount.symm)) ?_
  exact ⟨h.left.notified statements hscope ho attr, h.right.notified statements hscope ho attr,
    h.same.notified statements scope o attr, h.held⟩

/-- Tying code comes to the same on both sides. -/
theorem agree_connect (n : Nat) (binding : Binding) :
    Agree (R.Nets base base') Eq (connect n binding o attr scope a)
      (connect n binding o attr scope b) := by
  cases n with
  | zero => exact .none
  | succ n =>
    cases binding with
    | default code e => exact h.agree_default hscope ho n code e
    | bind code e => exact h.agree_bind hscope ho n code e
    | delegate code e name => exact h.agree_delegate hscope ho n code e name
    | notify code statements => exact h.agree_notify hscope ho n code statements

end

end Nets

end Realm

end ReactiveView
