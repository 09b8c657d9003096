import ReactiveView.Proofs.Network.Keepers

/-!
This module contains that binds follow what they read. A bind has one subscription to each attribute
that its latest evaluation read, for as long as the object is there, and nothing else brings a bind
up to date. That holds in between as well, since a bind that is evaluated again loses its old
subscriptions and gets its new ones before anything else happens.
-/

namespace ReactiveView

/-- The subscriptions of a bind, each to the attribute that it read in that place. -/
def Link.follows (k : Nat) (lk : Link) : List Observer :=
  Network.enrolled (.refresh k) lk.subscriptions lk.reads

/-- A bind has noted an evaluation of its expression: what it read and whether it came to a value. -/
def Link.Evaluated (lk : Link) : Prop :=
  ∀ expr target attr scope, lk.body = .bind expr target attr scope → ∃ store fresh,
    lk.reads = (expr.run store scope fresh).2.reads ∧
      lk.succeeded = (expr.run store scope fresh).1.isOk

/-- The latest evaluation of a binding read an attribute. -/
def Link.Reads (lk : Link) (object : Nat) (attr : String) : Prop :=
  ∃ d ∈ lk.reads, d.object.id = object ∧ d.attr = attr

section

variable {k : Nat} {lk : Link} {o : Observer}

theorem Link.id_mem_of_follows (ho : o ∈ lk.follows k) : o.id ∈ lk.subscriptions := by
  obtain ⟨p, hp, rfl⟩ := List.mem_map.1 ho
  exact (List.of_mem_zip hp).1

theorem Link.reads_of_follows (ho : o ∈ lk.follows k) : lk.Reads o.object o.attr := by
  obtain ⟨p, hp, rfl⟩ := List.mem_map.1 ho
  exact ⟨p.2, (List.of_mem_zip hp).2, rfl, rfl⟩

end

theorem Handler.mem_refreshes {k : Nat} {handler : Handler} :
    k ∈ handler.refreshes ↔ handler = refresh k := by
  cases handler with
  | refresh j => simp [refreshes, eq_comm]
  | _ => simp [refreshes]

namespace Network

variable {net net' net'' mid : Network} {k : Nat} {new : Option Nat}

/-- The subscriptions that the host has for its observers. -/
def watching (net : Network) : Keeping
  | .host, i => ∃ name watch, net.desk.watches.get? name = some watch ∧ watch.observer = i
  | _, _ => False

/-- A bind has one subscription to each attribute that it read, as long as the object is there. -/
structure Follows (net : Network) (k : Nat) (lk : Link) : Prop where
  length : lk.subscriptions.length = lk.reads.length
  once : lk.reads.Pairwise fun d e => ¬(d.object.id = e.object.id ∧ d.attr = e.attr)
  observed : ∀ o ∈ lk.follows k, net.store.Spared o.object → o ∈ net.observers

/-- Binds follow what they read, and nothing else does. All of them have been evaluated, but for a
new one. -/
structure Attuned (new : Option Nat) (net : Network) : Prop extends Allotted net.watching net where
  noted : ∀ k lk, net.link? k = some lk → new ≠ some k → lk.Evaluated
  follows : ∀ k lk, net.link? k = some lk → lk.body.IsBind → net.Follows k lk
  wanted : ∀ o ∈ net.observers, ∀ k, o.handler = .refresh k →
    ∃ lk, net.link? k = some lk ∧ lk.body.IsBind ∧ o ∈ lk.follows k

theorem Follows.mono {lk : Link} (h : net.Follows k lk)
    (hspared : ∀ id, net'.store.Spared id → net.store.Spared id)
    (hobservers : net.observers ⊆ net'.observers) : net'.Follows k lk :=
  ⟨h.length, h.once, fun o ho hid => hobservers (h.observed o ho (hspared _ hid))⟩

/-- An attribute that was read once is subscribed to once. -/
theorem Follows.eq_of_same {lk : Link} {o p : Observer} (h : net.Follows k lk)
    (ho : o ∈ lk.follows k) (hp : p ∈ lk.follows k) (hsame : o.object = p.object ∧ o.attr = p.attr) :
    o = p := by
  have hreads : (lk.subscriptions.zip lk.reads).map Prod.snd = lk.reads :=
    List.map_snd_zip (Nat.le_of_eq h.length.symm)
  have honce := h.once
  rw [← hreads] at honce
  have hapart : (lk.follows k).Pairwise fun o p => ¬(o.object = p.object ∧ o.attr = p.attr) :=
    List.pairwise_map.2 (List.pairwise_map.1 honce)
  have : Std.Symm fun o p : Observer => ¬(o.object = p.object ∧ o.attr = p.attr) :=
    ⟨fun _ _ hnot h => hnot ⟨h.1.symm, h.2.symm⟩⟩
  by_contra hne
  exact hapart.forall ho hp hne hsame

theorem Follows.exists_mem {lk : Link} {object : Nat} {attr : String} (h : net.Follows k lk)
    (hread : lk.Reads object attr) : ∃ o ∈ lk.follows k, o.object = object ∧ o.attr = attr := by
  obtain ⟨d, hd, rfl, rfl⟩ := hread
  rw [← List.map_snd_zip (Nat.le_of_eq h.length.symm)] at hd
  obtain ⟨p, hp, rfl⟩ := List.mem_map.1 hd
  exact ⟨_, List.mem_map_of_mem hp, rfl, rfl⟩

theorem watching_congr (hwatches : net'.desk.watches = net.desk.watches) :
    net'.watching = net.watching := by
  unfold watching
  rw [hwatches]

theorem attuned_of_empty (hobservers : net.observers = []) (hlinks : net.links = #[])
    (hwatches : net.desk.watches = Table.empty) : net.Attuned none := by
  have hlink (k : Nat) : net.link? k = none := by
    unfold link?
    rw [hlinks]
    rfl
  refine ⟨?_, fun k lk hlk => ?_, fun k lk hlk => ?_, fun o ho => ?_⟩
  · refine allotted_of_empty hobservers hlinks fun a i => ?_
    cases a with
    | host =>
      rintro ⟨name, watch, hwatch, -⟩
      rw [hwatches, Table.get?_empty] at hwatch
      cases hwatch
    | handle | component => exact id
  · cases (hlink k).symm.trans hlk
  · cases (hlink k).symm.trans hlk
  · rw [hobservers] at ho
    cases ho

/-- It may be evaluated once more. -/
theorem Attuned.renew (h : net.Attuned none) (k : Nat) : net.Attuned (some k) :=
  { h with noted := fun j lk hlk _ => h.noted j lk hlk nofun }

/-- What is no bind is not evaluated. -/
theorem Attuned.settle (h : net.Attuned (some k))
    (hnone : ∀ expr target attr scope, ¬net.HasBind k expr target attr scope) : net.Attuned none :=
  { h with
    noted := fun j lk hlk _ => by
      by_cases hj : k = j
      · subst hj
        exact fun expr target attr scope hbody => (hnone expr target attr scope ⟨lk, hlk, hbody⟩).elim
      · exact h.noted j lk hlk fun heq => hj (Option.some.inj heq) }

/-! ### Steps that take away -/

/-- No subscription and no binding is new. Subscriptions end only with their object or with their
binding, and bindings stay subscribed to what they read. -/
structure Drains (net net' : Network) : Prop extends Ebbs net.watching net net' where
  steady : ∀ k lk', net'.link? k = some lk' → ∃ lk owned running,
    net.link? k = some lk ∧ lk' = { lk with owned, running }
  watches : net'.desk.watches = net.desk.watches

theorem Drains.trans (h : net.Drains net') (h' : net'.Drains net'') : net.Drains net'' where
  toEbbs := h.toEbbs.trans (watching_congr h.watches ▸ h'.toEbbs)
  steady k lk'' hlk'' := by
    obtain ⟨lk', owned', running', hlk', rfl⟩ := h'.steady k lk'' hlk''
    obtain ⟨lk, owned, running, hlk, rfl⟩ := h.steady k lk' hlk'
    exact ⟨lk, owned', running', hlk, rfl⟩
  watches := h'.watches.trans h.watches

theorem Attuned.drain (h : net.Attuned new) (hd : net.Drains net') : net'.Attuned new where
  toAllotted := watching_congr hd.watches ▸ h.toAllotted.ebb hd.toEbbs
  noted k lk' hlk' hk := by
    obtain ⟨lk, owned, running, hlk, rfl⟩ := hd.steady k lk' hlk'
    exact h.noted k lk hlk hk
  follows k lk' hlk' hbind := by
    obtain ⟨lk, owned, running, hlk, rfl⟩ := hd.steady k lk' hlk'
    obtain ⟨length, once, observed⟩ := h.follows k lk hlk hbind
    exact ⟨length, once, fun o ho hspared => hd.spares o (observed o ho (hd.toEbbs.spared hspared))
      hspared ⟨.inl k, _, hlk', Link.id_mem_of_follows ho⟩⟩
  wanted o ho k hhandler := by
    obtain ⟨lk, hlk, hbind, hfollow⟩ := h.wanted o (hd.observers.subset ho) k hhandler
    obtain ⟨lk', hlk', -⟩ := hd.serves o ho k ⟨lk, hlk, Link.id_mem_of_follows hfollow⟩
    obtain ⟨old, owned, running, hold, rfl⟩ := hd.steady k lk' hlk'
    cases hlk.symm.trans hold
    exact ⟨_, hlk', hbind, hfollow⟩

/-- Where subscriptions and bindings are the same there is nothing to look at. -/
theorem drains_of_same (hsize : net'.store.objects.size = net.store.objects.size)
    (halive : ∀ id, net'.store.isAlive id = true → net.store.isAlive id = true)
    (hlinks : net'.links = net.links) (hnext : net'.nextObserver = net.nextObserver)
    (hobservers : net'.observers = net.observers)
    (hhandles : net'.desk.handles = net.desk.handles)
    (hwatches : net'.desk.watches = net.desk.watches) : net.Drains net' where
  toEbbs := ebbs_of_same hsize halive hlinks hnext hobservers hhandles
  steady k lk hlk := by
    refine ⟨lk, lk.owned, lk.running, ?_, rfl⟩
    unfold link?
    rw [← hlinks]
    exact hlk
  watches := hwatches

theorem watches_sweep (net : Network) : net.sweep.desk.watches = net.desk.watches := by
  have hfree (ids : List Nat) (net : Network) :
      (ids.foldl free net).desk.watches = net.desk.watches := by
    induction ids generalizing net with
    | nil => rfl
    | cons id rest ih => exact ih _
  exact sweep_induction (Q := fun n => n.desk.watches = net.desk.watches)
    (fun _ ids _ he => (hfree ids _).trans he) rfl

theorem drains_sweep : net.Drains net.sweep where
  toEbbs := ebbs_sweep
  steady _ lk hlk := ⟨lk, lk.owned, lk.running, link?_sweep net ▸ hlk, rfl⟩
  watches := watches_sweep net

theorem drains_modifyLink (k : Nat) {f : Link → Link}
    (hf : ∀ l, ∃ owned running, f l = { l with owned, running }) : net.Drains (net.modifyLink k f) where
  toEbbs := by
    refine ebbs_modifyLink k (fun l => ?_) fun l => ?_ <;>
    · obtain ⟨owned, running, hl⟩ := hf l
      rw [hl]
  steady j lk' hlk' := by
    rw [link?_modifyLink] at hlk'
    split at hlk'
    · obtain ⟨lk, hlk, rfl⟩ := Option.map_eq_some_iff.1 hlk'
      obtain ⟨owned, running, hl⟩ := hf lk
      exact ⟨lk, owned, running, hlk, hl⟩
    · exact ⟨lk', lk'.owned, lk'.running, hlk', rfl⟩
  watches := rfl

theorem drains_settleLink (h : net.Attuned new) (k : Nat) : net.Drains (net.settleLink k) where
  toEbbs := ebbs_settleLink h.toAllotted k
  steady j lk hlk := by
    rcases settleLink_eq net k with heq | heq
    · exact ⟨lk, lk.owned, lk.running, heq ▸ hlk, rfl⟩
    · rw [heq, link?_sweep, link?_withoutLink] at hlk
      split at hlk
      · cases hlk
      · next hne =>
        rw [link?_disconnect, if_neg hne] at hlk
        exact ⟨lk, lk.owned, lk.running, hlk, rfl⟩
  watches := by
    rcases settleLink_eq net k with heq | heq
    · rw [heq]
    · rw [heq, watches_sweep]
      exact congrArg Desk.watches (desk_disconnect net k)

theorem drains_enterLink (k : Nat) : net.Drains (net.enterLink k) :=
  drains_modifyLink k fun _ => ⟨_, _, rfl⟩

theorem drains_ownLink (k : Nat) : net.Drains (net.ownLink k) :=
  drains_modifyLink k fun _ => ⟨_, _, rfl⟩

theorem drains_leaveLink (h : net.Attuned new) (k : Nat) : net.Drains (net.leaveLink k) := by
  have hleft : net.Drains (net.modifyLink k fun l => { l with running := l.running - 1 }) :=
    drains_modifyLink k fun _ => ⟨_, _, rfl⟩
  exact hleft.trans (drains_settleLink (h.drain hleft) k)

theorem drains_dropLinks (h : net.Attuned new) (ks : List Nat) :
    net.Drains (ks.foldl Network.dropLink net) := by
  induction ks generalizing net with
  | nil => exact drains_of_same rfl (fun _ h => h) rfl rfl rfl rfl rfl
  | cons k rest ih =>
    have hleft : net.Drains (net.modifyLink k fun l => { l with owned := false }) :=
      drains_modifyLink k fun _ => ⟨_, _, rfl⟩
    have hdropped : net.Drains (net.dropLink k) :=
      hleft.trans (drains_settleLink (h.drain hleft) k)
    exact hdropped.trans (ih (h.drain hdropped))

/-! ### Steps that subscribe -/

/-- Once a binding has lost what it listed it gets new subscriptions. If it is a bind, these are to
what it reads now. -/
theorem Attuned.enlist {new' : Option Nat} {lk : Link} {news : List Observer} (h : net.Attuned new)
    (hcut : net.Ebbs net.watching mid) (hothers : ∀ j, j ≠ k → mid.link? j = net.link? j)
    (hwatches : net'.desk.watches = net.desk.watches) (he : mid.Enlists k lk news net')
    (hnews : lk.body.IsBind → news = lk.follows k ∧ lk.subscriptions.length = lk.reads.length ∧
      lk.reads.Pairwise fun d e => ¬(d.object.id = e.object.id ∧ d.attr = e.attr))
    (hnoted : new' ≠ some k → lk.Evaluated)
    (hnew : ∀ j, j ≠ k → new' ≠ some j → new ≠ some j) : net'.Attuned new' where
  toAllotted := watching_congr hwatches ▸ (h.toAllotted.ebb hcut).enlist he
  noted j lj hlj hj' := by
    rw [he.links] at hlj
    split at hlj
    · next hj =>
      subst hj
      cases hlj
      exact hnoted hj'
    · next hj => exact h.noted j lj (hothers j hj ▸ hlj) (hnew j hj hj')
  follows j lj hlj hbind := by
    rw [he.links] at hlj
    split at hlj
    · next hj =>
      subst hj
      cases hlj
      obtain ⟨hfollows, hlength, honce⟩ := hnews hbind
      refine ⟨hlength, honce, fun o ho _ => ?_⟩
      rw [he.observers, hfollows]
      exact List.mem_append_right _ ho
    · next hj =>
      obtain ⟨length, once, observed⟩ := h.follows j lj (hothers j hj ▸ hlj) hbind
      refine ⟨length, once, fun o ho hspared => ?_⟩
      rw [he.store] at hspared
      rw [he.observers]
      exact List.mem_append_left _ (hcut.spares o (observed o ho (hcut.spared hspared)) hspared
        ⟨.inl j, lj, hlj, Link.id_mem_of_follows ho⟩)
  wanted o ho j hhandler := by
    rw [he.observers] at ho
    rcases List.mem_append.1 ho with ho | ho
    · obtain ⟨lj, hlj, hbind, hfollow⟩ := h.wanted o (hcut.observers.subset ho) j hhandler
      have hne : j ≠ k := by
        rintro rfl
        exact he.not_lists (hcut.serves o ho j ⟨lj, hlj, Link.id_mem_of_follows hfollow⟩)
      refine ⟨lj, ?_, hbind, hfollow⟩
      rw [he.links, if_neg hne, hothers j hne, hlj]
    · have hserves := he.serves o ho
      rw [hhandler] at hserves
      cases hbody : lk.body with
      | bind =>
        rw [hbody] at hserves
        obtain rfl : j = k := hserves
        have hbind : lk.body.IsBind := hbody ▸ trivial
        exact ⟨lk, (he.links j).trans (if_pos rfl), hbind, (hnews hbind).1 ▸ ho⟩
      | delegate | notify =>
        rw [hbody] at hserves
        exact hserves.elim

theorem Attuned.resubscribed {expr : Expr} {target : ObjectRef} {attr : String} {scope : Scope}
    (h : net.Attuned (some k)) (hbind : net.HasBind k expr target attr scope) :
    (net.resubscribed k scope expr).Attuned none := by
  obtain ⟨old, hold, hbody⟩ := hbind
  have hisBind : old.body.IsBind := hbody ▸ trivial
  refine h.enlist (ebbs_cut h.toAllotted hold hisBind scope expr) (fun j hj => ?_) ?_
    (enlists_subscribed (link?_cut hold scope expr) rfl hisBind _ _)
    (fun _ => ⟨rfl, List.length_range', expr.once_run ..⟩) (fun _ expr' target' attr' scope' hbody' => ?_)
    fun j hj _ heq => hj (Option.some.inj heq).symm
  · exact (link?_disconnect net k j).trans (if_neg (Ne.symm hj))
  · unfold Network.resubscribed
    simp only [subscribeAll_eq]
    exact congrArg Desk.watches (desk_disconnect net k)
  · cases hbody.symm.trans hbody'
    exact ⟨_, _, rfl, rfl⟩

theorem Attuned.bound (h : net.Attuned none) (expr : Expr) (target : ObjectRef) (attr : String)
    (scope : Scope) : (net.bound expr target attr scope).Attuned (some net.links.size) :=
  h.enlist (.refl net) (fun _ _ => rfl) rfl (enlists_bound expr target attr scope)
    (fun _ => ⟨rfl, rfl, .nil⟩) (fun hne => (hne rfl).elim) fun _ _ _ => nofun

theorem Attuned.notified (h : net.Attuned new) (statements : List Statement) (scope : Scope)
    (target : ObjectRef) (attr : String) : (net.notified statements scope target attr).Attuned new :=
  h.enlist (.refl net) (fun _ _ => rfl) rfl (enlists_notified statements scope target attr)
    False.elim (fun _ => nofun) fun _ _ hj => hj

theorem Attuned.delegated (h : net.Attuned new) (target : ObjectRef) (attr : String)
    (source : ObjectRef) (name : String) : (net.delegated target attr source name).Attuned new :=
  h.enlist (.refl net) (fun _ _ => rfl) rfl (enlists_delegated target attr source name)
    False.elim (fun _ => nofun) fun _ _ hj => hj

/-! ### What the host subscribes and makes -/

theorem Attuned.desk (h : net.Attuned new) {desk : Desk} (hwatches : desk.watches = net.desk.watches) :
    Attuned new { net with desk } := by
  have hwatching : ({ net with desk } : Network).watching = net.watching := watching_congr hwatches
  refine ⟨?_, h.noted, fun k lk hlk hbind => ?_, h.wanted⟩
  · rw [hwatching]
    exact ⟨h.sorted, h.numbered, h.claimed, h.unique⟩
  · exact (h.follows k lk hlk hbind).mono (fun _ h => h) fun _ h => h

theorem Attuned.watched (h : net.Attuned new) (o : ObjectRef) (attr id : String)
    (actions : List Command) : (net.watched o attr id actions).Attuned new := by
  refine Attuned.drain ?_ drains_sweep
  have hsubscribed := h.toAllotted.subscribe o.id attr (.host id actions) .host
  refine ⟨Allotted.mono ⟨hsubscribed.sorted, hsubscribed.numbered, hsubscribed.claimed,
    hsubscribed.unique⟩ fun a i => ?_, h.noted, fun k lk hlk hbind => ?_,
    fun p hp k hhandler => ?_⟩
  · cases a with
    | host =>
      rintro ⟨name, watch, hwatch, rfl⟩
      rcases Table.of_get?_insert hwatch with ⟨-, rfl⟩ | hwatch
      · exact .inr ⟨rfl, rfl⟩
      · exact .inl ⟨name, watch, hwatch, rfl⟩
    | handle | component => exact False.elim
  · exact (h.follows k lk hlk hbind).mono (fun _ h => h) fun _ hp => List.mem_append_left _ hp
  · rcases List.mem_append.1 hp with hp | hp
    · exact h.wanted p hp k hhandler
    · cases List.mem_singleton.1 hp
      cases hhandler

/-- A subscription of the host is no bind's. -/
theorem Attuned.unwatched {name : String} {watch : Watch} (h : net.Attuned new)
    (hwatch : net.desk.watches.get? name = some watch) : (net.unsubscribe watch.observer).Attuned new where
  sorted := h.sorted.sublist (List.filter_sublist.map _)
  numbered o ho := h.numbered o (List.mem_filter.1 ho).1
  claimed := h.claimed
  unique := h.unique
  noted := h.noted
  follows k lk hlk hbind := by
    obtain ⟨length, once, observed⟩ := h.follows k lk hlk hbind
    refine ⟨length, once, fun o ho hspared => List.mem_filter.2 ⟨observed o ho hspared, ?_⟩⟩
    rw [bne_iff_ne]
    intro hid
    have hlists : net.Claims net.watching o.id (.inl k) := ⟨lk, hlk, Link.id_mem_of_follows ho⟩
    cases h.unique o.id (.inl k) (.inr .host) hlists ⟨name, watch, hwatch, hid.symm⟩
  wanted o ho := h.wanted o (List.mem_filter.1 ho).1

/-- An object that has just been made is one that nobody has lost. -/
theorem Attuned.introduced (h : net.Attuned new) (name className : String) (shape : Shape) :
    (net.introduce name className shape).Attuned new where
  sorted := h.sorted
  numbered := h.numbered
  claimed := h.claimed
  unique := h.unique
  noted := h.noted
  follows k lk hlk hbind := by
    refine (h.follows k lk hlk hbind).mono (fun id hspared hlt => ?_) fun _ h => h
    rw [← isAlive_create net.store className shape Table.empty hlt]
    exact hspared (Nat.lt_of_lt_of_le hlt (Nat.le_trans (Nat.le_succ _)
      (Nat.le_of_eq (Array.size_push _).symm)))
  wanted := h.wanted

/-! ### The subscriptions of a bind -/

/-- The observers of an attribute that bring a bind up to date. -/
def refreshers (net : Network) (k object : Nat) (attr : String) : List Observer :=
  (net.observersOf object attr).filter fun o => o.handler.refreshes.contains k

section

variable {object : Nat} {attr : String} {lk : Link}

theorem mem_refreshers {o : Observer} : o ∈ net.refreshers k object attr ↔
    o ∈ net.observers ∧ o.object = object ∧ o.attr = attr ∧ o.handler = .refresh k := by
  unfold refreshers observersOf
  simp only [List.mem_filter, Bool.and_eq_true, beq_iff_eq, List.contains_iff_mem,
    Handler.mem_refreshes, and_assoc]

/-- An attribute that a bind did not read does not bring it up to date. -/
theorem Attuned.refreshers_eq_nil (h : net.Attuned new)
    (hunread : ∀ lk, net.link? k = some lk → lk.body.IsBind → ¬lk.Reads object attr) :
    net.refreshers k object attr = [] := by
  refine List.eq_nil_iff_forall_not_mem.2 fun o ho => ?_
  obtain ⟨hmem, rfl, rfl, hhandler⟩ := mem_refreshers.1 ho
  obtain ⟨lk, hlk, hbind, hfollow⟩ := h.wanted o hmem k hhandler
  exact hunread lk hlk hbind (Link.reads_of_follows hfollow)

/-- An attribute that a bind did read brings it up to date once. -/
theorem Attuned.exists_refreshers_eq (h : net.Attuned new) (hlk : net.link? k = some lk)
    (hbind : lk.body.IsBind) (halive : net.store.isAlive object = true)
    (hread : lk.Reads object attr) : ∃ o, net.refreshers k object attr = [o] := by
  have hfollows := h.follows k lk hlk hbind
  obtain ⟨o, ho, rfl, rfl⟩ := hfollows.exists_mem hread
  have hmem : o ∈ net.refreshers k o.object o.attr :=
    mem_refreshers.2 ⟨hfollows.observed o ho fun _ => halive, rfl, rfl, handler_of_mem_enrolled ho⟩
  have hsame (p : Observer) (hp : p ∈ net.refreshers k o.object o.attr) : p = o := by
    obtain ⟨hp, hobject, hattr, hhandler⟩ := mem_refreshers.1 hp
    obtain ⟨old, hold, -, hfollow⟩ := h.wanted p hp k hhandler
    cases hlk.symm.trans hold
    exact hfollows.eq_of_same hfollow ho ⟨hobject, hattr⟩
  have hsorted : (net.refreshers k o.object o.attr).Pairwise fun p q => p.id < q.id :=
    (List.pairwise_map.1 h.sorted).sublist (List.filter_sublist.trans List.filter_sublist)
  refine ⟨o, ?_⟩
  rcases hlist : net.refreshers k o.object o.attr with _ | ⟨p, _ | ⟨q, rest⟩⟩
  · rw [hlist] at hmem
    cases hmem
  · rw [hsame p (hlist ▸ List.mem_singleton_self p)]
  · rw [hlist] at hsame hsorted
    have hless := (List.pairwise_cons.1 hsorted).1 q (List.mem_cons_self ..)
    rw [hsame p (List.mem_cons_self ..), hsame q (List.mem_cons_of_mem _ (List.mem_cons_self ..))]
      at hless
    exact absurd hless (Nat.lt_irrefl _)

end

end Network

end ReactiveView
