import ReactiveView.Proofs.Network.Derived

/-!
This module contains that the steps of a computation other than assignments leave a network settled:
what a bind reads is not freed, nobody else ends its subscriptions, and nobody else writes its
attribute.
-/

namespace ReactiveView

namespace Network

variable {net net' : Network} {k : Nat} {b : Derived} {P Q : List Nat}

theorem Settled.mono (h : Settled P net) (hPQ : P ⊆ Q) : Settled Q net :=
  ⟨h.toOrderly, fun k hk => h.upToDate k fun hP => hk (hPQ hP)⟩

/-- A bind that is up to date, or none at all, is not to be refreshed. -/
theorem Settled.remove (h : Settled Q net) (hQ : ∀ k ∈ Q, k ∈ P ∨ net.UpToDate k) :
    Settled P net := by
  refine ⟨h.toOrderly, fun k hk => ?_⟩
  rcases Classical.em (k ∈ Q) with hmem | hmem
  · exact (hQ k hmem).resolve_left hk
  · exact h.upToDate k hmem

theorem Settled.discard (h : Settled (k :: P) net) (hk : ∀ b, ¬net.Succeeded k b) :
    Settled P net := by
  refine h.remove fun j hj => ?_
  rcases List.mem_cons.1 hj with rfl | hj
  · exact .inr fun b hb => absurd hb (hk b)
  · exact .inl hj

/-- A bind stays up to date where all that matters to it stays. -/
theorem Settled.transport (h : Settled Q net) (horderly : net'.Orderly)
    (hnext : net.nextFunction ≤ net'.nextFunction)
    (hkept : ∀ k ∉ P, ∀ b, net'.Succeeded k b → k ∉ Q ∧ net.Succeeded k b ∧
      net.store.AgreeOn net'.store (b.reads net) ∧
      (∀ d ∈ b.reads net, ∀ o ∈ net.observers, o.object = d.object.id →
        o.handler = .refresh k → o ∈ net'.observers) ∧
      (net'.store.isAlive b.target.id = true → net.store.isAlive b.target.id = true ∧
        net'.store.get? b.target b.attr = net.store.get? b.target b.attr)) : Settled P net' := by
  refine ⟨horderly, fun k hk b hb => ?_⟩
  obtain ⟨hQ, hsucceeded, hreads, hobservers, htarget⟩ := hkept k hk b hb
  obtain ⟨hobserved, hconsistent⟩ := h.upToDate k hQ b hsucceeded
  exact ⟨hobserved.of_agree h.toOrderly hsucceeded.derives hnext hreads hobservers,
    hconsistent.of_agree h.toOrderly hsucceeded.derives hnext hreads htarget⟩

/-! ### Steps that only take away -/

theorem Wanes.derives (h : net.Wanes net') (hb : net'.Derives k b) : net.Derives k b := by
  obtain ⟨lk', hlk', hbody'⟩ := hb
  obtain ⟨lk, hlk, hbody, -⟩ := h.links k lk' hlk'
  exact ⟨lk, hlk, hbody.symm.trans hbody'⟩

theorem Wanes.succeeded (h : net.Wanes net') (hb : net'.Succeeded k b) : net.Succeeded k b := by
  obtain ⟨lk', hlk', hbody', hsucceeded'⟩ := hb
  obtain ⟨lk, hlk, hbody, hsucceeded, -⟩ := h.links k lk' hlk'
  exact ⟨lk, hlk, hbody.symm.trans hbody', hsucceeded.symm.trans hsucceeded'⟩

theorem Orderly.wanes (h : net.Orderly) (hw : net.Wanes net') : net'.Orderly where
  numbered o ho := by
    rw [hw.nextObserver]
    exact h.numbered o (hw.observers ho)
  calm o ho := h.calm o (hw.observers ho)
  statements := by
    rintro k ss scope ⟨lk', hlk', hbody'⟩
    obtain ⟨lk, hlk, hbody, -⟩ := hw.links k lk' hlk'
    exact h.statements k ss scope ⟨lk, hlk, hbody.symm.trans hbody'⟩
  listed o ho k hhandler j lk' hlk' hmem := by
    obtain ⟨lk, hlk, -, -, hsub⟩ := hw.links j lk' hlk'
    exact h.listed o (hw.observers ho) k hhandler j lk hlk (hsub hmem)
  hidden o ho k hhandler name w hwatch :=
    h.hidden o (hw.observers ho) k hhandler name w (hw.watches name w hwatch)
  subscribed j lk' hlk' i hi := by
    obtain ⟨lk, hlk, -, -, hsub⟩ := hw.links j lk' hlk'
    rw [hw.nextObserver]
    exact h.subscribed j lk hlk i (hsub hi)
  watched name w hwatch := by
    rw [hw.nextObserver]
    exact h.watched name w (hw.watches name w hwatch)
  plain k b hb := h.plain k b (hw.derives hb)
  distinct j k b c hb hc := h.distinct j k b c (hw.derives hb) (hw.derives hc)
  settable k b hb := by
    obtain ⟨hshape, hhas⟩ := h.settable k b (hw.derives hb)
    refine ⟨hw.quiet.shape _ ▸ hshape, fun hdeclared halive => ?_⟩
    exact hw.quiet.has _ _ halive (hhas (hw.quiet.shape _ ▸ hdeclared) (hw.quiet.alive _ halive))
  scopes k b hb name v hv := (h.scopes k b (hw.derives hb) name v hv).mono hw.nextFunction
  values o name v hv := (h.values o name v (hw.values o name v hv)).mono hw.nextFunction

theorem Settled.wanes (h : Settled P net) (hw : net.Wanes net')
    (hkept : ∀ k ∉ P, ∀ b, net'.Succeeded k b → net.store.AgreeOn net'.store (b.reads net) ∧
      ∀ d ∈ b.reads net, ∀ o ∈ net.observers, o.object = d.object.id →
        o.handler = .refresh k → o ∈ net'.observers) : Settled P net' := by
  refine h.transport (h.toOrderly.wanes hw) hw.nextFunction fun k hk b hb => ?_
  obtain ⟨hreads, hobservers⟩ := hkept k hk b hb
  exact ⟨hk, hw.succeeded hb, hreads, hobservers,
    fun halive => ⟨hw.quiet.alive _ halive, hw.quiet.get? halive _⟩⟩

/-- Where the store and the observers are the same there is nothing to look at. -/
theorem Settled.of_wanes (h : Settled P net) (hw : net.Wanes net') (hstore : net'.store = net.store)
    (hobservers : net'.observers = net.observers) : Settled P net' :=
  h.wanes hw fun _ _ _ _ => ⟨fun _ _ => by rw [hstore], fun _ _ _ ho _ _ => hobservers ▸ ho⟩

theorem Settled.adds (h : Settled P net) (hadds : net.Adds net') : Settled P net' :=
  h.of_wanes hadds.wanes hadds.store hadds.observers

theorem Settled.hold (h : Settled P net) (ids : List Nat) : Settled P (net.hold ids) :=
  h.of_wanes (wanes_hold ids) rfl rfl

theorem Settled.evaluated (h : Settled P net) (scope : Scope) (e : Expr) :
    Settled P (net.evaluated scope e) :=
  h.of_wanes (wanes_evaluated scope e) rfl rfl

theorem Settled.enterLink (h : Settled P net) (id : Nat) : Settled P (net.enterLink id) :=
  h.of_wanes (wanes_enterLink id) rfl rfl

/-- What a bind reads is held, so it is not freed. -/
theorem Settled.foldl_free (h : Settled P net) {ids : List Nat}
    (hids : ∀ id ∈ ids, net.holds id = false) : Settled P (ids.foldl free net) := by
  have hw : net.Wanes (ids.foldl free net) := 
    wanes_foldl_free fun id hid => not_mem_owners (hids id hid)
  refine h.wanes hw fun k _ b hb => ?_
  have hspared {d : Dependency} (hd : d ∈ b.reads net) : d.object.id ∉ ids := by
    intro hmem
    cases (hids _ hmem).symm.trans
      (h.toOrderly.holds_of_mem_reads (hw.succeeded hb).derives hd)
  refine ⟨fun d hd => ?_, fun d hd o ho hobject _ => ?_⟩
  · unfold Store.get?
    rw [(foldl_free_spares (hspared hd)).1]
  · exact (foldl_free_spares (hspared hd)).2 o ho hobject

theorem Settled.sweep (h : Settled P net) : Settled P net.sweep :=
  sweep_induction (fun _ _ hids h => h.foldl_free fun id hid => holds_of_mem_unheld (hids id hid)) h

theorem Settled.letGo (h : Settled P net) (busy : List Nat) : Settled P (net.letGo busy) := by
  have hbusy : Settled P { net with busy } := h.of_wanes (wanes_busy busy) rfl rfl
  exact hbusy.sweep

/-- A bind that is to be refreshed can be disconnected. -/
theorem Settled.disconnect (h : Settled P net) (hk : k ∈ P) : Settled P (net.disconnect k) := by
  refine h.wanes (wanes_disconnect k) fun j hj b _ =>
    ⟨fun _ _ => by rw [store_disconnect], fun _ _ o ho _ hhandler => ?_⟩
  refine mem_observers_disconnect.2 ⟨ho, fun lk hlk hmem => hj ?_⟩
  rwa [← h.listed o ho j hhandler k lk hlk hmem]

theorem Settled.settleLink (h : Settled P net) (k : Nat) : Settled P (net.settleLink k) := by
  rcases settleLink_eq net k with heq | heq
  · rwa [heq]
  · rw [heq]
    have hcut : Settled (k :: P) ((net.disconnect k).withoutLink k) :=
      ((h.mono (List.subset_cons_self k P)).disconnect (List.mem_cons_self ..)).of_wanes
        (wanes_withoutLink k) rfl rfl
    refine (hcut.discard fun b hb => ?_).sweep
    obtain ⟨lk, hlk, -⟩ := hb
    rw [link?_withoutLink, if_pos rfl] at hlk
    cases hlk

theorem Settled.leaveLink (h : Settled P net) (k : Nat) : Settled P (net.leaveLink k) := by
  have hleft : Settled P (net.modifyLink k fun l => { l with running := l.running - 1 }) :=
    h.of_wanes (wanes_modifyLink k fun _ => ⟨rfl, rfl, fun _ h => h⟩) rfl rfl
  exact hleft.settleLink k

theorem Settled.dropLink (h : Settled P net) (k : Nat) : Settled P (net.dropLink k) := by
  have hdropped : Settled P (net.modifyLink k fun l => { l with owned := false }) :=
    h.of_wanes (wanes_modifyLink k fun _ => ⟨rfl, rfl, fun _ h => h⟩) rfl rfl
  exact hdropped.settleLink k

/-- The host ends its own subscriptions only. -/
theorem Settled.unsubscribe (h : Settled P net) {name : String} {watch : Watch}
    (hwatch : net.desk.watches.get? name = some watch) :
    Settled P (net.unsubscribe watch.observer) := by
  refine h.wanes (wanes_unsubscribe _) fun j _ b _ =>
    ⟨fun _ _ => rfl, fun _ _ o ho _ hhandler => List.mem_filter.2 ⟨ho, ?_⟩⟩
  exact bne_iff_ne.2 fun he => h.hidden o ho j hhandler name watch hwatch he.symm

theorem Settled.desk (h : Settled P net) (desk : Desk) (hwatches : desk.watches = net.desk.watches)
    (hobjects : ∀ name o, desk.objects.get? name = some o →
      net.desk.objects.get? name = some o) : Settled P { net with desk } := by
  have hquiet : Quiet (fun _ => False) net { net with desk } :=
    .of_attrs (fun _ h => h) (fun _ => rfl) (Nat.le_refl _) (fun _ h => .inl h) hobjects rfl
      (fun _ _ h => h) (fun _ h => h) fun _ _ => rfl
  exact h.of_wanes (wanes_of_same hquiet rfl rfl hwatches rfl (Nat.le_refl _) rfl) rfl rfl

theorem Settled.handled (h : Settled P net) (handle : String) (link : Option Nat) :
    Settled P (net.handled handle link) := by
  have hinsert := h.desk { net.desk with handles := net.desk.handles.insert handle link } rfl
    fun _ _ h => h
  unfold Network.handled
  rcases (net.desk.handles.get? handle).join with _ | old
  · exact hinsert
  · exact hinsert.dropLink old

theorem Settled.released (h : Settled P net) (handle : String) (link : Option Nat) :
    Settled P (net.released handle link) := by
  have herase := h.desk { net.desk with handles := net.desk.handles.erase handle } rfl
    fun _ _ h => h
  unfold Network.released
  rcases link with _ | id
  · exact herase
  · exact herase.dropLink id

/-! ### Steps that add -/

theorem Settled.subscribe (h : Settled P net) (object : Nat) (attr : String) (handler : Handler)
    (hcalm : handler.Calm) : Settled P (net.subscribe object attr handler).2 := by
  have hnext : (net.subscribe object attr handler).2.nextObserver = net.nextObserver + 1 := rfl
  have hmem {o : Observer} (ho : o ∈ (net.subscribe object attr handler).2.observers) :
      o ∈ net.observers ∨ o = ⟨net.nextObserver, object, attr, handler⟩ :=
    (List.mem_append.1 ho).imp_right List.mem_singleton.1
  refine h.transport ?_ (Nat.le_refl _) fun k hk b hb =>
    ⟨hk, hb, fun _ _ => rfl, fun _ _ _ ho _ _ => List.mem_append_left _ ho, fun h => ⟨h, rfl⟩⟩
  refine { h.toOrderly with
    numbered := fun o ho => ?_
    calm := fun o ho => ?_
    listed := fun o ho k hhandler j lk hlk hid => ?_
    hidden := fun o ho k hhandler name w hw hid => ?_
    subscribed := fun j lk hlk i hi => Nat.lt_succ_of_lt (h.subscribed j lk hlk i hi)
    watched := fun name w hw => Nat.lt_succ_of_lt (h.watched name w hw) }
  · rw [hnext]
    rcases hmem ho with hold | rfl
    · exact Nat.lt_succ_of_lt (h.numbered o hold)
    · exact Nat.lt_succ_self _
  · rcases hmem ho with hold | rfl
    · exact h.calm o hold
    · exact hcalm
  · rcases hmem ho with hold | rfl
    · exact h.listed o hold k hhandler j lk hlk hid
    · exact absurd (h.subscribed j lk hlk _ hid) (Nat.lt_irrefl _)
  · rcases hmem ho with hold | rfl
    · exact h.hidden o hold k hhandler name w hw hid
    · exact absurd (hid ▸ h.watched name w hw) (Nat.lt_irrefl _)

theorem Settled.subscribeAll (h : Settled P net) (handler : Handler) (hcalm : handler.Calm)
    (ds : List Dependency) : Settled P (net.subscribeAll handler ds).2 := by
  induction ds generalizing net with
  | nil => exact h
  | cons d rest ih => exact ih (h.subscribe d.object.id d.attr handler hcalm)

/-- What may stand for a binding in place of another one: it is a notify that assigns nothing, or does
the same and is to be refreshed. It lists subscriptions of its own. -/
structure Relinked (net : Network) (P : List Nat) (k : Nat) (lk : Link) : Prop where
  body : k ∈ P ∧ (∃ old, net.link? k = some old ∧ lk.body = old.body) ∨
    ∃ ss scope, lk.body = .notify ss scope ∧ ∀ s ∈ ss, s.Calm
  subscribed : ∀ i ∈ lk.subscriptions, i < net.nextObserver
  listed : ∀ o ∈ net.observers, o.id ∈ lk.subscriptions → ∀ j, o.handler = .refresh j → k = j

theorem Settled.relink (h : Settled P net) {links : Array (Option Link)}
    (hlinks : ∀ k lk, { net with links }.link? k = some lk →
      net.link? k = some lk ∨ net.Relinked P k lk) : Settled P { net with links } := by
  have hderives (k : Nat) (b : Derived) (hb : { net with links }.Derives k b) :
      net.Derives k b := by
    obtain ⟨lk, hlk, hbody⟩ := hb
    rcases hlinks k lk hlk with hold | ⟨⟨-, old, hold, hsame⟩ | ⟨ss, scope, hnotify, -⟩, -, -⟩
    · exact ⟨lk, hold, hbody⟩
    · exact ⟨old, hold, hsame.symm.trans hbody⟩
    · cases hnotify.symm.trans hbody
  refine h.transport ?_ (Nat.le_refl _) fun k hk b hb =>
    ⟨hk, ?_, fun _ _ => rfl, fun _ _ _ ho _ _ => ho, fun h => ⟨h, rfl⟩⟩
  · refine { h.toOrderly with
      statements := ?_
      listed := fun o ho j hhandler k lk hlk hid => ?_
      subscribed := fun k lk hlk i hi => ?_
      plain := fun k b hb => h.plain k b (hderives k b hb)
      distinct := fun j k b c hb hc => h.distinct j k b c (hderives j b hb) (hderives k c hc)
      settable := fun k b hb => h.settable k b (hderives k b hb)
      scopes := fun k b hb => h.scopes k b (hderives k b hb) }
    · rintro k ss scope ⟨lk, hlk, hbody⟩
      rcases hlinks k lk hlk with hold | ⟨⟨-, old, hold, hsame⟩ | ⟨ss', scope', hnotify, hcalm⟩, -, -⟩
      · exact h.statements k ss scope ⟨lk, hold, hbody⟩
      · exact h.statements k ss scope ⟨old, hold, hsame.symm.trans hbody⟩
      · cases hnotify.symm.trans hbody
        exact hcalm
    · rcases hlinks k lk hlk with hold | hnew
      · exact h.listed o ho j hhandler k lk hold hid
      · exact hnew.listed o ho hid j hhandler
    · rcases hlinks k lk hlk with hold | hnew
      · exact h.subscribed k lk hold i hi
      · exact hnew.subscribed i hi
  · obtain ⟨lk, hlk, hbody, hsucceeded⟩ := hb
    rcases hlinks k lk hlk with hold | ⟨⟨hP, -⟩ | ⟨ss, scope, hnotify, -⟩, -, -⟩
    · exact ⟨lk, hold, hbody, hsucceeded⟩
    · exact absurd hP hk
    · cases hnotify.symm.trans hbody

theorem Settled.modifyLink (h : Settled P net) {f : Link → Link}
    (hf : ∀ lk, net.link? k = some lk → net.Relinked P k (f lk)) :
    Settled P (net.modifyLink k f) := by
  refine h.relink fun j lk' hlk' => ?_
  change (net.modifyLink k f).link? j = some lk' at hlk'
  rw [link?_modifyLink] at hlk'
  split at hlk'
  · next he =>
    subst he
    obtain ⟨lk, hlk, rfl⟩ := Option.map_eq_some_iff.1 hlk'
    exact .inr (hf lk hlk)
  · exact .inl hlk'

theorem Settled.addLink (h : Settled P net) {statements : List Statement} (scope : Scope)
    (hcalm : ∀ s ∈ statements, s.Calm) :
    Settled P (net.addLink { body := .notify statements scope, owned := true }).2 := by
  refine h.relink fun k lk hlk => ?_
  change (net.addLink _).2.link? k = some lk at hlk
  rw [link?_addLink] at hlk
  split at hlk
  · cases hlk
    exact .inr ⟨.inr ⟨statements, scope, rfl, hcalm⟩, nofun, nofun⟩
  · exact .inl hlk

theorem Settled.notified (h : Settled P net) {statements : List Statement} (scope : Scope)
    (target : ObjectRef) (attr : String) (hcalm : ∀ s ∈ statements, s.Calm) :
    Settled P (net.notified statements scope target attr) := by
  have hadded := (h.addLink scope hcalm).subscribe target.id attr (.run net.links.size) trivial
  refine hadded.modifyLink fun lk hlk => ⟨.inr ⟨statements, scope, ?_, hcalm⟩, ?_, ?_⟩
  · change (net.addLink _).2.link? _ = _ at hlk
    rw [link?_addLink, if_pos rfl] at hlk
    cases hlk
    rfl
  · rintro i (_ | ⟨_, ⟨⟩⟩)
    exact Nat.lt_succ_self _
  · intro o ho hid j hhandler
    rcases List.mem_append.1 ho with hold | hlast
    · exact absurd (List.mem_singleton.1 hid ▸ h.numbered o hold) (Nat.lt_irrefl _)
    · cases (List.mem_singleton.1 hlast ▸ hhandler : Handler.run _ = .refresh j)

/-- A new bind is to be refreshed. -/
theorem Settled.bound (h : Settled P net) (hb : net.Fresh b) :
    Settled (net.links.size :: P) (net.bound b.expr b.target b.attr b.scope) := by
  have hlinks (k : Nat) (lk : Link)
      (hlk : (net.bound b.expr b.target b.attr b.scope).link? k = some lk) :
      (k = net.links.size ∧
        lk = { body := .bind b.expr b.target b.attr b.scope, running := 1 }) ∨
      net.link? k = some lk := by
    refine (ite_eq_iff.1 ((link?_addLink net _ k).symm.trans hlk)).imp ?_ And.right
    exact fun ⟨hk, heq⟩ => ⟨hk, (Option.some.inj heq).symm⟩
  have hderives (k : Nat) (c : Derived)
      (hc : (net.bound b.expr b.target b.attr b.scope).Derives k c) :
      (k = net.links.size ∧ c = b) ∨ net.Derives k c := by
    obtain ⟨lk, hlk, hbody⟩ := hc
    rcases hlinks k lk hlk with ⟨rfl, rfl⟩ | hold
    · obtain ⟨expr, target, attr, scope⟩ := c
      obtain ⟨expr', target', attr', scope'⟩ := b
      cases hbody
      exact .inl ⟨rfl, rfl⟩
    · exact .inr ⟨lk, hold, hbody⟩
  refine h.transport ?_ (Nat.le_refl _) fun k hk c hc =>
    ⟨fun hP => hk (List.mem_cons_of_mem _ hP), ?_, fun _ _ => rfl, fun _ _ _ ho _ _ => ho,
      fun h => ⟨h, rfl⟩⟩
  · refine { h.toOrderly with
      statements := ?_
      listed := fun o ho j hhandler k lk hlk hid => ?_
      subscribed := fun k lk hlk i hi => ?_
      plain := fun k c hc => ?_
      distinct := fun j k c d hc hd htarget hattr => ?_
      settable := fun k c hc => ?_
      scopes := fun k c hc => ?_ }
    · rintro k ss scope ⟨lk, hlk, hbody⟩
      rcases hlinks k lk hlk with ⟨-, rfl⟩ | hold
      · cases hbody
      · exact h.statements k ss scope ⟨lk, hold, hbody⟩
    · rcases hlinks k lk hlk with ⟨-, rfl⟩ | hold
      · cases hid
      · exact h.listed o ho j hhandler k lk hold hid
    · rcases hlinks k lk hlk with ⟨-, rfl⟩ | hold
      · cases hi
      · exact h.subscribed k lk hold i hi
    · rcases hderives k c hc with ⟨-, rfl⟩ | hold
      · exact hb.plain
      · exact h.plain k c hold
    · rcases hderives j c hc with ⟨hj, rfl⟩ | hold
      · rcases hderives k d hd with ⟨hk, rfl⟩ | hold'
        · exact hj.trans hk.symm
        · exact absurd ⟨htarget.symm, hattr.symm⟩ (hb.free k d hold')
      · rcases hderives k d hd with ⟨hk, rfl⟩ | hold'
        · exact absurd ⟨htarget, hattr⟩ (hb.free j c hold)
        · exact h.distinct j k c d hold hold' htarget hattr
    · rcases hderives k c hc with ⟨-, rfl⟩ | hold
      · exact hb.settable
      · exact h.settable k c hold
    · rcases hderives k c hc with ⟨-, rfl⟩ | hold
      · exact hb.scope
      · exact h.scopes k c hold
  · obtain ⟨lk, hlk, hbody, hsucceeded⟩ := hc
    rcases hlinks k lk hlk with ⟨rfl, -⟩ | hold
    · exact absurd (List.mem_cons_self ..) hk
    · exact ⟨lk, hold, hbody, hsucceeded⟩

theorem Settled.ownLink (h : Settled P net) (id : Nat) : Settled P (net.ownLink id) :=
  h.of_wanes (wanes_modifyLink id fun _ => ⟨rfl, rfl, fun _ h => h⟩) rfl rfl

theorem Settled.watch (h : Settled P net) (o : ObjectRef) (attr id : String)
    {actions : List Command} (hcalm : ∀ c ∈ actions, c.Calm) :
    Settled P (net.watched o attr id actions) := by
  have hadded := h.subscribe o.id attr (.host id actions) hcalm
  refine Settled.sweep (hadded.transport ?_ (Nat.le_refl _) fun k hk b hb =>
    ⟨hk, hb, fun _ _ => rfl, fun _ _ _ ho _ _ => ho, fun h => ⟨h, rfl⟩⟩)
  refine { hadded.toOrderly with
    hidden := fun o' ho k hhandler name w hw hid => ?_
    watched := fun name w hw => ?_ }
  · rcases Table.of_get?_insert hw with ⟨-, rfl⟩ | hold
    · rcases List.mem_append.1 ho with hmem | hlast
      · exact absurd (hid ▸ h.numbered o' hmem) (Nat.lt_irrefl _)
      · cases (List.mem_singleton.1 hlast ▸ hhandler : Handler.host _ _ = .refresh k)
    · exact hadded.hidden o' ho k hhandler name w hold hid
  · rcases Table.of_get?_insert hw with ⟨-, rfl⟩ | hold
    · exact Nat.lt_succ_self _
    · exact hadded.watched name w hold

end Network

end ReactiveView
