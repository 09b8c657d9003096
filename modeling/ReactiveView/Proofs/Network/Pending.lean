import ReactiveView.Proofs.Network.Settled

/-!
This module contains which binds are pending while a change sets off others. A bind may read
attributes of other binds, or its own, so refreshes nest, and while they do, an outer run goes
through observers that are long gone. An assignment makes those binds pending that observe the
attribute, and every one of them is refreshed before the announcement of the change comes to an end.
A refresh takes one bind from those that are pending, whatever it sets off in turn.
-/

namespace ReactiveView

open Network

variable {net net' : Network} {k n : Nat} {b : Derived} {P Q : List Nat} {o : ObjectRef}
  {attr : String} {v : Value}

/-! ### Assignments -/

/-- The binds that observe an attribute. -/
def Network.refreshed (net : Network) (object : Nat) (attr : String) : List Nat :=
  (net.observersOf object attr).flatMap fun o => o.handler.refreshes

/-- A bind that does not observe an attribute does not read it. -/
theorem Derived.Observed.agree_put (hobserved : b.Observed net k)
    (hk : k ∉ net.refreshed o.id attr) :
    net.store.AgreeOn (net.store.put o attr v) (b.reads net) := by
  intro d hd
  refine Store.get?_put_ne fun hsame => hk ?_
  obtain ⟨obs, hobs, hobject, hattr, hhandler⟩ := hobserved d hd
  refine List.mem_flatMap.2 ⟨obs, List.mem_filter.2 ⟨hobs, ?_⟩, ?_⟩
  · rw [hobject, hattr, hsame.1, hsame.2]
    simp
  · rw [hhandler]
    exact List.mem_singleton_self k

theorem Network.Orderly.put (h : net.Orderly) (o : ObjectRef) (attr : String)
    (hv : v.Below net.nextFunction) :
    { net with store := net.store.put o attr v }.Orderly := by
  refine { h with
    settable := fun k b hb => ?_
    values := fun o' name w hw => ?_ }
  · obtain ⟨hshape, hhas⟩ := h.settable k b hb
    refine ⟨by rwa [Store.shape?_put], fun hdeclared halive => Store.has_put (hhas ?_ ?_)⟩
    · rwa [Store.shape?_put] at hdeclared
    · rwa [Store.isAlive_put] at halive
  · rcases Classical.em (o'.id = o.id ∧ name = attr) with ⟨hid, rfl⟩ | hne
    · rcases Nat.lt_or_ge o.id net.store.objects.size with hlt | hge
      · change (net.store.put o name v).get? o' name = some w at hw
        rw [Store.get?_put_self hlt hid.symm] at hw
        cases hw
        exact hv
      · change (net.store.put o name v).get? o' name = some w at hw
        unfold Store.get? at hw
        rw [Store.attrs_put_of_le hge] at hw
        exact h.values o' name w hw
    · change (net.store.put o attr v).get? o' name = some w at hw
      rw [Store.get?_put_ne hne] at hw
      exact h.values o' name w hw

/-- Putting a value into an attribute that is no bind's makes those pending that observe it. -/
theorem Network.Settled.put (h : Settled Q net) (o : ObjectRef) (attr : String)
    (hv : v.Below net.nextFunction)
    (hslot : ∀ k ∉ Q, ∀ b, net.Derives k b → ¬(b.target.id = o.id ∧ b.attr = attr)) :
    Settled (net.refreshed o.id attr ++ Q) { net with store := net.store.put o attr v } := by
  refine h.transport (h.toOrderly.put o attr hv) (Nat.le_refl _) fun k hk b hb => ?_
  rw [List.mem_append, not_or] at hk
  refine ⟨hk.2, hb, (h.upToDate k hk.2 b hb).1.agree_put hk.1, fun _ _ _ ho _ _ => ho,
    fun halive => ⟨?_, Store.get?_put_ne (hslot k hk.2 b hb.derives)⟩⟩
  rwa [Store.isAlive_put] at halive

/-- A bind that puts its value into its attribute is up to date, unless it observes the attribute
itself. -/
theorem Derived.upToDate_put (h : net.Orderly) (hb : net.Derives k b)
    (hobserved : b.Observed net k)
    (hvalue : ∃ w, b.value net = .ok w ∧ (w.Below net.nextFunction → w = v))
    (hsize : b.target.id < net.store.objects.size) (hk : k ∉ net.refreshed b.target.id b.attr) :
    { net with store := net.store.put b.target b.attr v }.UpToDate k := by
  intro c hc
  obtain rfl := hb.unique hc.derives
  have hreads := hobserved.agree_put (v := v) hk
  refine ⟨hobserved.of_agree h hb (Nat.le_refl _) hreads fun _ _ _ ho _ _ => ho, ?_⟩
  obtain ⟨w, hw, hsame⟩ := hvalue
  obtain ⟨w', hw', hsame'⟩ : ∃ w', b.value { net with store := net.store.put b.target b.attr v }
      = .ok w' ∧ (w'.Below net.nextFunction → w' = w ∧ w.Below net.nextFunction) :=
    value_eq_of_agree h hb (Nat.le_refl _) hreads hw
  refine ⟨w', hw', fun hbelow hself _ => ⟨v, Store.get?_put_self hsize rfl, ?_⟩⟩
  obtain ⟨rfl, hold⟩ := hsame' hbelow
  rwa [hsame hold] at hself ⊢

/-! ### Evaluating a bind again -/

theorem Network.link?_resubscribed (net : Network) (k : Nat) (scope : Scope) (e : Expr) :
    (net.resubscribed k scope e).link? k = (net.link? k).map fun l =>
      { l with
        subscriptions := (((net.disconnect k).evaluated scope e).subscribeAll (.refresh k)
          ((net.disconnect k).outcome scope e).2.reads).1
        succeeded := ((net.disconnect k).outcome scope e).1.isOk
        reads := ((net.disconnect k).outcome scope e).2.reads } := by
  have hsub := subscribed_subscribeAll ((net.disconnect k).evaluated scope e) (.refresh k)
    ((net.disconnect k).outcome scope e).2.reads
  have hlinks : (((net.disconnect k).evaluated scope e).subscribeAll (.refresh k)
      ((net.disconnect k).outcome scope e).2.reads).2.link? k = (net.disconnect k).link? k := by
    unfold link?
    rw [hsub.links]
    rfl
  refine (link?_modifyLink _ k _ k).trans ?_
  rw [if_pos rfl]
  refine (congrArg (Option.map _) hlinks).trans ?_
  rw [link?_disconnect, if_pos rfl, Option.map_map]
  rfl

theorem Network.store_resubscribed (net : Network) (k : Nat) (scope : Scope) (e : Expr) :
    (net.resubscribed k scope e).store = net.store := by
  have hsub := subscribed_subscribeAll ((net.disconnect k).evaluated scope e) (.refresh k)
    ((net.disconnect k).outcome scope e).2.reads
  exact hsub.store.trans store_disconnect

theorem Network.Settled.resubscribed (h : Settled P net) (hk : k ∈ P) (scope : Scope) (e : Expr) :
    Settled P (net.resubscribed k scope e) := by
  have heval := (h.disconnect hk).evaluated scope e
  have hsub := subscribed_subscribeAll ((net.disconnect k).evaluated scope e) (.refresh k)
    ((net.disconnect k).outcome scope e).2.reads
  refine (heval.subscribeAll (.refresh k) trivial _).modifyLink fun lk hlk =>
    ⟨.inl ⟨hk, lk, hlk, rfl⟩, fun i hi => (hsub.ids i hi).2, fun o ho hid j hhandler => ?_⟩
  rcases hsub.fresh o ho with hold | hnew
  · exact absurd (heval.numbered o hold) (Nat.not_lt.2 (hsub.ids _ hid).1)
  · cases hnew.symm.trans hhandler
    rfl

theorem Network.Derives.resubscribed (hb : net.Derives k b) :
    (net.resubscribed k b.scope b.expr).Derives k b := by
  obtain ⟨lk, hlk, hbody⟩ := hb
  exact ⟨_, (link?_resubscribed net k b.scope b.expr).trans (congrArg (Option.map _) hlk), hbody⟩

/-- A bind whose evaluation fails does not count as up to date or not. -/
theorem Network.not_succeeded_resubscribed {scope : Scope} {expr : Expr} {e : EvalError}
    (he : ((net.disconnect k).outcome scope expr).1 = .error e) :
    ¬(net.resubscribed k scope expr).Succeeded k b := by
  rintro ⟨lk, hlk, -, hsucceeded⟩
  rw [link?_resubscribed, he] at hlk
  obtain ⟨old, -, rfl⟩ := Option.map_eq_some_iff.1 hlk
  cases hsucceeded

section

variable (h : (net.disconnect k).Orderly) (hb : net.Derives k b)

include h hb

/-- A bind that has been evaluated again observes what it read, and evaluates to the same. -/
theorem Derived.resubscribed_spec :
    b.Observed (net.resubscribed k b.scope b.expr) k ∧
      ∀ v, b.value (net.disconnect k) = .ok v →
        v.Below (net.resubscribed k b.scope b.expr).nextFunction ∧
        ∃ w, b.value (net.resubscribed k b.scope b.expr) = .ok w ∧
          (w.Below (net.resubscribed k b.scope b.expr).nextFunction → w = v) := by
  have hsub := subscribed_subscribeAll ((net.disconnect k).evaluated b.scope b.expr) (.refresh k)
    (b.reads (net.disconnect k))
  have hbd : (net.disconnect k).Derives k b := by
    obtain ⟨lk, hlk, hbody⟩ := hb
    have hlink := link?_disconnect net k k
    rw [if_pos rfl, hlk] at hlink
    exact ⟨_, hlink, hbody⟩
  have hnext : (net.resubscribed k b.scope b.expr).nextFunction
      = ((net.disconnect k).evaluated b.scope b.expr).nextFunction := hsub.nextFunction
  have hle : (net.disconnect k).nextFunction
      ≤ (net.resubscribed k b.scope b.expr).nextFunction := by
    rw [hnext]
    exact nextFunction_evaluated _ _ _
  have hagree : (net.disconnect k).store.AgreeOn (net.resubscribed k b.scope b.expr).store
      (b.reads (net.disconnect k)) := by
    intro d _
    rw [store_resubscribed, store_disconnect]
  refine ⟨fun d hd => ?_, fun v hv => ⟨?_, ?_⟩⟩
  · rw [(outcome_eq_of_agree h hbd hle hagree).1] at hd
    exact hsub.observed d hd
  · rw [hnext]
    exact h.below_value hbd hv
  · obtain ⟨w, hw, hsame⟩ := value_eq_of_agree h hbd hle hagree hv
    exact ⟨w, hw, fun hbelow => (hsame hbelow).1⟩

end

/-! ### The induction -/

/-- An assignment either leaves the attribute as it is and the network settled, or makes those
pending that observe it. -/
structure Assignable (P : List Nat) (net : Network) (o : ObjectRef) (attr : String) (v : Value) :
    Prop where
  changed : ∀ store old, net.store.assign o attr v = .ok (.changed store old) →
    Settled (net.refreshed o.id attr ++ P) { net with store }
  same : (∀ store old, net.store.assign o attr v ≠ .ok (.changed store old)) → Settled P net

/-- A bind that observes what it reads can assign its value. -/
theorem Assignable.of_bind (hnet : Settled (k :: P) net) (hb : net.Derives k b)
    (hobserved : b.Observed net k)
    (hvalue : ∃ w, b.value net = .ok w ∧ (w.Below net.nextFunction → w = v))
    (hbelow : v.Below net.nextFunction) (halive : net.store.isAlive b.target.id = true) :
    Assignable P net b.target b.attr v := by
  have hk : k ∈ k :: P := List.mem_cons_self ..
  constructor
  · intro store old hassign
    obtain ⟨rfl, hsize, -⟩ := Store.assign_changed hassign
    have hput := hnet.put b.target b.attr hbelow fun j hj c hc hslot =>
      hj (hnet.distinct j k c b hc hb hslot.1 hslot.2 ▸ hk)
    refine hput.remove fun j hj => ?_
    rcases Classical.em (j ∈ net.refreshed b.target.id b.attr) with hmem | hmem
    · exact .inl (List.mem_append_left _ hmem)
    · rcases List.mem_cons.1 ((List.mem_append.1 hj).resolve_left hmem) with rfl | hP
      · exact .inr (Derived.upToDate_put hnet.toOrderly hb hobserved hvalue hsize hmem)
      · exact .inl (List.mem_append_right _ hP)
  · intro hsame
    refine hnet.remove fun j hj => ?_
    rcases List.mem_cons.1 hj with rfl | hP
    · right
      intro c hc
      obtain rfl := hb.unique hc.derives
      obtain ⟨hopen, hhas⟩ := hnet.settable j b hb
      obtain ⟨w, hw, hnew⟩ := hvalue
      refine ⟨hobserved, w, hw, fun hwbelow _ _ => ?_⟩
      rw [hnew hwbelow]
      rcases hassign : net.store.assign b.target b.attr v with e | _ | ⟨store, old⟩
      · rcases Store.assign_refused hassign with hfrozen | ⟨hdeclared, hnone⟩
        · exact absurd hfrozen hopen
        · cases hnone.symm.trans (Option.isSome_iff_exists.1 (hhas hdeclared halive)).choose_spec
      · obtain ⟨present, hpresent⟩ := Store.exists_of_assign_unchanged hassign halive
        exact ⟨present, hpresent, Store.assign_unchanged hassign hpresent⟩
      · exact absurd hassign (hsame store old)
    · exact .inl hP

/--
What every computation with a budget does to a settled network: it takes away what is pending, and
what it assigns makes nothing pending in the end.
-/
structure Mends (n : Nat) : Prop where
  assign : ∀ {P net net' o attr v r}, Assignable P net o attr v →
    ReactiveView.assign n o attr v net = some (r, net') → Settled P net'
  announce : ∀ {P net net' change u},
    Settled (net.refreshed change.object.id change.attr ++ P) net →
    ReactiveView.announce n change net = some (u, net') → Settled P net'
  react : ∀ {P net net' change handler u}, handler.Calm → Settled (handler.refreshes ++ P) net →
    ReactiveView.react n change handler net = some (u, net') → Settled P net'
  refresh : ∀ {P net net' k r}, Settled (k :: P) net →
    ReactiveView.refresh n k net = some (r, net') → Settled P net'
  execute : ∀ {P net net' scope statements r}, (∀ s ∈ statements, s.Calm) → Settled P net →
    ReactiveView.execute n scope statements net = some (r, net') → Settled P net'
  executeOne : ∀ {P net net' scope statement r}, statement.Calm → Settled P net →
    ReactiveView.executeOne n scope statement net = some (r, net') → Settled P net'
  connect : ∀ {P net net' binding target attr scope r}, binding.Calm → Settled P net →
    ReactiveView.connect n binding target attr scope net = some (r, net') → Settled P net'
  perform : ∀ {P net net' change command outcome}, command.Calm → Settled P net →
    ReactiveView.perform n change command net = some (outcome, net') → Settled P net'

namespace Mends

theorem zero : Mends 0 := by
  constructor <;> intros <;> rename_i h <;> cases h

section

variable (h : Mends n)

include h

theorem assigns {r : Except EvalError Bool} (hnet : Assignable P net o attr v)
    (hrun : Assigns n o attr v net r net') : Settled P net' := by
  cases hrun with
  | refused herror => exact hnet.same fun _ _ heq => nomatch herror.symm.trans heq
  | unchanged hsame => exact hnet.same fun _ _ heq => nomatch hsame.symm.trans heq
  | changed hput hannounce => exact h.announce (hnet.changed _ _ hput) hannounce

theorem reactAll {change : Change} {observers : List Observer}
    (hcalm : ∀ o ∈ observers, o.handler.Calm)
    (hnet : Settled ((observers.flatMap fun o => o.handler.refreshes) ++ P) net)
    (hrun : ReactAll n change observers net net') : Settled P net' := by
  induction hrun with
  | nil => exact hnet
  | cons hhead _ ih =>
    rw [List.flatMap_cons, List.append_assoc] at hnet
    exact ih (fun o ho => hcalm o (List.mem_cons_of_mem _ ho))
      (h.react (hcalm _ (List.mem_cons_self ..)) hnet hhead)

theorem performAll {id : String} {change : Change} {actions : List Command}
    (hcalm : ∀ c ∈ actions, c.Calm) (hnet : Settled P net)
    (hrun : PerformAll n id change actions net net') : Settled P net' := by
  induction hrun with
  | nil => exact hnet
  | cons hhead _ ih =>
    exact ih (fun c hc => hcalm c (List.mem_cons_of_mem _ hc))
      ((h.perform (hcalm _ (List.mem_cons_self ..)) hnet hhead).adds (adds_happened _ _))

theorem reacts {change : Change} {handler : Handler} (hcalm : handler.Calm)
    (hnet : Settled (handler.refreshes ++ P) net) (hrun : Reacts n change net handler net') :
    Settled P net' := by
  cases hrun with
  | refreshed _ hrefresh hecho =>
    exact ((h.refresh (hnet.enterLink _) hrefresh).adds hecho).leaveLink _
  | unbound hunbound => exact hnet.discard fun b hb => hunbound _ _ _ _ hb.derives
  | ran hnotify hexecute hecho =>
    exact ((h.execute (hnet.statements _ _ _ hnotify) (hnet.enterLink _) hexecute).adds
      hecho).leaveLink _
  | cut => exact hnet
  | passed hpass | dead hpass =>
    cases handler with
    | writeThrough | writeBack => exact hcalm.elim
    | refresh | run | hint | host => cases hpass
  | @hinted widget => exact hnet.adds (adds_signal net widget)
  | hosted hecho hperform => exact h.performAll hcalm (hnet.adds hecho) hperform

theorem refreshes {r : Except EvalError Unit} (hnet : Settled (k :: P) net)
    (hrun : Refreshes n k net r net') : Settled P net' := by
  have hk : k ∈ k :: P := List.mem_cons_self ..
  cases hrun with
  | unbound hunbound => exact hnet.discard fun b hb => hunbound _ _ _ _ hb.derives
  | @failed expr _ _ scope _ _ herror =>
    exact (hnet.resubscribed hk scope expr).discard fun _ => not_succeeded_resubscribed herror
  | @dead expr target attr scope v hbind hv hdead =>
    have hb : net.Derives k ⟨expr, target, attr, scope⟩ := hbind
    have ⟨hobserved, hvalue⟩ := Derived.resubscribed_spec (hnet.disconnect hk).toOrderly hb
    refine (hnet.resubscribed hk scope expr).remove fun j hj => ?_
    rcases List.mem_cons.1 hj with rfl | hP
    · right
      intro c hc
      obtain rfl := hb.resubscribed.unique hc.derives
      obtain ⟨-, w, hw, -⟩ := hvalue v hv
      exact ⟨hobserved, w, hw, fun _ _ halive => nomatch hdead.symm.trans halive⟩
    · exact .inl hP
  | @assigned expr target attr scope v _ _ hbind hv halive hassign =>
    have hb : net.Derives k ⟨expr, target, attr, scope⟩ := hbind
    have ⟨hobserved, hvalue⟩ := Derived.resubscribed_spec (hnet.disconnect hk).toOrderly hb
    obtain ⟨hbelow, hvalue⟩ := hvalue v hv
    refine (h.assign ?_ hassign).letGo _
    exact .of_bind ((hnet.resubscribed hk scope expr).hold _) hb.resubscribed hobserved hvalue
      hbelow halive

theorem executeAll {scope : Scope} {statements : List Statement} {r : Except EvalError Unit}
    (hcalm : ∀ s ∈ statements, s.Calm) (hnet : Settled P net)
    (hrun : ExecuteAll n scope statements net r net') : Settled P net' := by
  induction hrun with
  | nil => exact hnet
  | cons hhead _ ih =>
    exact ih (fun s hs => hcalm s (List.mem_cons_of_mem _ hs))
      (h.executeOne (hcalm _ (List.mem_cons_self ..)) hnet hhead)
  | stop hhead => exact h.executeOne (hcalm _ (List.mem_cons_self ..)) hnet hhead

omit h in
theorem executesOne {scope : Scope} {statement : Statement} {r : Except EvalError Unit}
    (hcalm : statement.Calm) (hnet : Settled P net)
    (hrun : ExecutesOne n scope net statement r net') : Settled P net' := by
  cases hrun with
  | evaluated => exact hnet.evaluated _ _
  | noObject | noValue | assigned => exact hcalm.elim

omit h in
theorem connects {binding : Binding} {target : ObjectRef} {attr : String} {scope : Scope}
    {r : Except EvalError (Option Nat)} (hcalm : binding.Calm) (hnet : Settled P net)
    (hrun : Connects n target attr scope net binding r net') : Settled P net' := by
  cases hrun with
  | notify => exact hnet.notified scope target attr hcalm
  | noDefault | default | noBind | bind | noSource | refused | delegate => exact hcalm.elim

theorem performs {change : Option Change} {command : Command} (hcalm : command.Calm)
    (hnet : Settled P net) (hrun : Performs n change net command net') : Settled P net' := by
  cases hrun with
  | answered => exact hnet
  | evaluated => exact hnet.evaluated _ _
  | assigned | put =>
    rw [Command.Calm] at hcalm
    exact hcalm.elim
  | emitted _ _ hannounce => exact h.announce (hnet.mono (List.subset_append_right ..)) hannounce
  | observed =>
    rw [Command.Calm, allCalm_iff] at hcalm
    exact hnet.watch _ _ _ hcalm
  | unobserved hwatch => exact hnet.unsubscribe hwatch
  | @forgot object =>
    refine (hnet.desk { net.desk with objects := net.desk.objects.erase object } rfl
      fun name o hname => ?_).sweep
    exact (Table.of_get?_erase hname).2
  | layered => exact hnet.desk _ rfl fun _ _ h => h
  | executed hparse hexecute =>
    rw [Command.Calm] at hcalm
    exact h.execute (hcalm _ hparse) hnet hexecute
  | unconnected _ hcompile hconnect =>
    rw [Command.Calm] at hcalm
    exact (h.connect (hcalm _ hcompile) (hnet.hold _) hconnect).letGo _
  | connected _ hcompile hconnect =>
    rw [Command.Calm] at hcalm
    exact ((h.connect (hcalm _ hcompile) (hnet.hold _) hconnect).letGo _).handled _ _
  | dropped => exact hnet.released _ _

theorem succ : Mends (n + 1) where
  assign hnet hrun := h.assigns hnet (assign_cases hrun)
  announce hnet hrun := by
    obtain ⟨net₁, hall, rfl⟩ := announce_cases hrun
    exact (h.reactAll (fun o ho => hnet.calm o (List.mem_filter.1 ho).1) (hnet.hold _) hall).letGo _
  react hcalm hnet hrun := h.reacts hcalm hnet (react_cases hrun)
  refresh hnet hrun := h.refreshes hnet (refresh_cases hrun)
  execute hcalm hnet hrun := h.executeAll hcalm hnet (execute_cases hrun)
  executeOne hcalm hnet hrun := executesOne hcalm hnet (executeOne_cases hrun)
  connect hcalm hnet hrun := connects hcalm hnet (connect_cases hrun)
  perform hcalm hnet hrun := h.performs hcalm hnet (perform_cases hrun)

end

end Mends

theorem mends (n : Nat) : Mends n := by
  induction n with
  | zero => exact .zero
  | succ n ih => exact ih.succ

end ReactiveView
