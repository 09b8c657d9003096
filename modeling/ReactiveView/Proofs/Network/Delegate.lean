import ReactiveView.Proofs.Network.Induction
import ReactiveView.Proofs.Value.Equal

/-!
This module contains that a delegate keeps its two attributes equal whatever else observes them. A
delegate passes on the value of the change, not the present one, so while changes nest its ends can
disagree and an outer run can pass on a value that is out of date. The ends are equal again in the
end because every assignment that changes one of them leaves them equal: after it, one of the two
observers passes the value on, and either that is a change of the other end, with a smaller budget,
or the other end had that value already.
-/

namespace ReactiveView

open Network

mutual

/-- The attributes that a command puts values into without telling observers, by the names of their
objects, those of the observers included that it installs. -/
def Command.puts : Command → List (String × String)
  | .put object attr _ => [(object, attr)]
  | .observe _ _ _ actions => Command.putsAll actions
  | _ => []

/-- The attributes that commands put values into. -/
def Command.putsAll : List Command → List (String × String)
  | [] => []
  | c :: rest => c.puts ++ Command.putsAll rest

end

theorem Command.puts_subset_putsAll {c : Command} {cs : List Command} (h : c ∈ cs) :
    c.puts ⊆ putsAll cs := by
  induction h with
  | head rest =>
    rw [putsAll]
    exact List.subset_append_left _ _
  | tail b _ ih =>
    rw [putsAll]
    exact List.subset_append_of_subset_right _ ih

/--
A delegate between an attribute of a target and an attribute of a source.
-/
structure Joint where
  /-- The target. -/
  target : ObjectRef
  /-- The attribute of the target. -/
  attr : String
  /-- The source. -/
  source : ObjectRef
  /-- The attribute of the source. -/
  name : String
  /-- The subscription to the target. -/
  outward : Nat
  /-- The subscription to the source. -/
  inward : Nat

namespace Joint

/-- An end of the delegate, and the other one. -/
inductive Passes (d : Joint) : ObjectRef → String → ObjectRef → String → Prop
  | outward : Passes d d.target d.attr d.source d.name
  | inward : Passes d d.source d.name d.target d.attr

/-- The delegate observes both ends, and both objects are alive. -/
structure Live (d : Joint) (net : Network) : Prop where
  outward : ⟨d.outward, d.target.id, d.attr, .writeThrough d.source d.name⟩ ∈ net.observers
  inward : ⟨d.inward, d.source.id, d.name, .writeBack d.target d.attr⟩ ∈ net.observers
  target : net.store.isAlive d.target.id = true
  source : net.store.isAlive d.source.id = true

/-- Both ends have equal values. -/
def InSync (d : Joint) (net : Network) : Prop :=
  ∃ v w, net.store.get? d.target d.attr = some v ∧ net.store.get? d.source d.name = some w
    ∧ v.equal w = true

/-- A command puts no value into an end of the delegate. -/
def Spared (d : Joint) (names : Table String ObjectRef) (c : Command) : Prop :=
  ∀ p ∈ c.puts, ∀ o, names.get? p.1 = some o →
    ¬(o.id = d.target.id ∧ p.2 = d.attr) ∧ ¬(o.id = d.source.id ∧ p.2 = d.name)

/-- The subscriptions of the delegate have been numbered. -/
def Known (d : Joint) (net : Network) : Prop :=
  d.outward < net.nextObserver ∧ d.inward < net.nextObserver

/-- Both ends can be assigned, and the names of the host are known. -/
structure Fit (d : Joint) (names : Table String ObjectRef) (net : Network) : Prop where
  known : d.Known net
  target : net.store.shape? d.target.id ≠ some .frozen ∧ net.store.has d.target d.attr = true
  source : net.store.shape? d.source.id ≠ some .frozen ∧ net.store.has d.source d.name = true
  names : ∀ name o, net.desk.objects.get? name = some o → names.get? name = some o

/-- The ends are equal, or nothing happened to them. -/
def Settled (d : Joint) (net net' : Network) : Prop :=
  d.InSync net' ∨ net'.store.get? d.target d.attr = net.store.get? d.target d.attr
    ∧ net'.store.get? d.source d.name = net.store.get? d.source d.name

/-- The network is a later one in which the ends are equal or nothing happened to them. -/
def Kept (d : Joint) (names : Table String ObjectRef) (net net' : Network) : Prop :=
  Later (d.Spared names) net net' ∧ (d.Fit names net → d.Live net' → d.Settled net net')

variable {d : Joint} {names : Table String ObjectRef} {P : Command → Prop}
  {net net' net'' : Network} {x y : ObjectRef} {a b : String}

theorem Passes.swap (h : d.Passes x a y b) : d.Passes y b x a := by
  cases h with
  | outward => exact .inward
  | inward => exact .outward

theorem Live.exists_observer (h : d.Live net) (hpass : d.Passes x a y b) :
    ∃ o ∈ net.observers, o.object = x.id ∧ o.attr = a ∧ o.handler.passesTo? = some (y, b) := by
  cases hpass with
  | outward => exact ⟨_, h.outward, rfl, rfl, rfl⟩
  | inward => exact ⟨_, h.inward, rfl, rfl, rfl⟩

theorem Live.isAlive (h : d.Live net) (hpass : d.Passes x a y b) :
    net.store.isAlive x.id = true := by
  cases hpass with
  | outward => exact h.target
  | inward => exact h.source

theorem Fit.accepts (h : d.Fit names net) (hpass : d.Passes x a y b) :
    net.store.shape? x.id ≠ some .frozen ∧ net.store.has x a = true := by
  cases hpass with
  | outward => exact h.target
  | inward => exact h.source

theorem inSync_iff (hpass : d.Passes x a y b) :
    d.InSync net ↔ ∃ v w, net.store.get? x a = some v ∧ net.store.get? y b = some w
      ∧ v.equal w = true := by
  cases hpass with
  | outward => exact Iff.rfl
  | inward =>
    constructor
    · rintro ⟨v, w, hv, hw, he⟩
      exact ⟨w, v, hw, hv, (Value.equal_comm w v).trans he⟩
    · rintro ⟨v, w, hv, hw, he⟩
      exact ⟨w, v, hw, hv, (Value.equal_comm w v).trans he⟩

theorem Known.later (hknown : d.Known net) (h : Later P net net') : d.Known net' :=
  hknown.imp (Nat.lt_of_lt_of_le · h.next) (Nat.lt_of_lt_of_le · h.next)

theorem Live.earlier (hlive : d.Live net') (hknown : d.Known net) (h : Later P net net') :
    d.Live net where
  outward := by
    rcases h.observers _ hlive.outward with hold | ⟨hle, -, -⟩
    · exact hold
    · exact absurd hknown.1 (Nat.not_lt.2 hle)
  inward := by
    rcases h.observers _ hlive.inward with hold | ⟨hle, -, -⟩
    · exact hold
    · exact absurd hknown.2 (Nat.not_lt.2 hle)
  target := h.alive _ hlive.target
  source := h.alive _ hlive.source

theorem Fit.later (hfit : d.Fit names net) (hlive : d.Live net') (h : Later P net net') :
    d.Fit names net' where
  known := hfit.known.later h
  target := ⟨h.shape _ ▸ hfit.target.1, h.has _ _ hlive.target hfit.target.2⟩
  source := ⟨h.shape _ ▸ hfit.source.1, h.has _ _ hlive.source hfit.source.2⟩
  names name o hname := hfit.names name o (h.names name o hname)

theorem InSync.settled (hsync : d.InSync net) (h : d.Settled net net') : d.InSync net' := by
  rcases h with hsync' | ⟨htarget, hsource⟩
  · exact hsync'
  · obtain ⟨v, w, hv, hw, he⟩ := hsync
    exact ⟨v, w, htarget.trans hv, hsource.trans hw, he⟩

theorem Settled.refl (net : Network) : d.Settled net net := .inr ⟨rfl, rfl⟩

theorem Settled.trans (h : d.Settled net net') (h' : d.Settled net' net'') :
    d.Settled net net'' := by
  rcases h with hsync | ⟨htarget, hsource⟩
  · exact .inl (hsync.settled h')
  · rcases h' with hsync | ⟨htarget', hsource'⟩
    · exact .inl hsync
    · exact .inr ⟨htarget'.trans htarget, hsource'.trans hsource⟩

theorem Settled.of_quiet (h : Quiet P net net') (hlive : d.Live net') : d.Settled net net' :=
  .inr ⟨h.get? hlive.target _, h.get? hlive.source _⟩

theorem Settled.get?_eq (h : d.Settled net net') (hpass : d.Passes x a y b) :
    d.InSync net' ∨ net'.store.get? x a = net.store.get? x a := by
  rcases h with hsync | ⟨htarget, hsource⟩
  · exact .inl hsync
  · cases hpass with
    | outward => exact .inr htarget
    | inward => exact .inr hsource

theorem settled_put {o : ObjectRef} {attr : String} {v : Value}
    (htarget : ¬(o.id = d.target.id ∧ attr = d.attr))
    (hsource : ¬(o.id = d.source.id ∧ attr = d.name)) :
    d.Settled net { net with store := net.store.put o attr v } :=
  .inr ⟨Store.get?_put_ne fun h => htarget ⟨h.1.symm, h.2.symm⟩,
    Store.get?_put_ne fun h => hsource ⟨h.1.symm, h.2.symm⟩⟩

theorem spared_of_observe {object attr id : String} {actions : List Command}
    (h : d.Spared names (.observe object attr id actions)) : ∀ c ∈ actions, d.Spared names c := by
  intro c hc p hp
  refine h p ?_
  rw [Command.puts]
  exact Command.puts_subset_putsAll hc hp

theorem carrier_kept (d : Joint) (names : Table String ObjectRef) :
    Carrier (d.Spared names) (d.Kept names) where
  trans := by
    rintro net₁ net₂ net₃ ⟨hlater, hkept⟩ ⟨hlater', hkept'⟩
    refine ⟨hlater.trans hlater', fun hfit hlive => ?_⟩
    have hlive₂ : d.Live net₂ := hlive.earlier (hfit.known.later hlater) hlater'
    exact (hkept hfit hlive₂).trans (hkept' (hfit.later hlive₂ hlater) hlive)
  later h := h.1
  quiet h := ⟨h.toLater, fun _ hlive => .of_quiet h hlive⟩
  put v hspared hobject :=
    ⟨later_put _ _ _, fun hfit _ =>
      have hends := hspared _ (List.mem_singleton.2 rfl) _ (hfit.names _ _ hobject)
      settled_put hends.1 hends.2⟩
  observed := spared_of_observe

section

variable {n : Nat}

/-- A handler of a delegate assigns the other end. -/
theorem react_passed {change : Change} {handler : Handler}
    (hhandler : handler.passesTo? = some (y, b)) (halive : net.store.isAlive y.id = true)
    (h : react (n + 1) change handler net = some ((), net')) :
    ∃ r net₁, assign n y b change.new net = some (r, net₁) ∧ net₁.Adds net' := by
  cases react_cases h with
  | passed hpass _ hassign hecho =>
    cases hhandler.symm.trans hpass
    exact ⟨_, _, hassign, hecho⟩
  | dead hpass hdead =>
    cases hhandler.symm.trans hpass
    cases halive.symm.trans hdead
  | refreshed | unbound | ran | cut | hinted | hosted => cases hhandler

/-- After the other end has been offered a value that this end has, the ends are equal. -/
theorem inSync_of_offer {r : Except EvalError Bool} {v : Value} (hpass : d.Passes x a y b)
    (hfit : d.Fit names net) (hr : r ≠ .ok true) (hx : net.store.get? x a = some v)
    (h : assign n y b v net = some (r, net')) : d.InSync net' := by
  cases n with
  | zero => cases h
  | succ n =>
    have ⟨hopen, hhas⟩ := hfit.accepts hpass.swap
    obtain ⟨w, hw⟩ := Option.isSome_iff_exists.1 hhas
    cases assign_cases h with
    | refused herror =>
      rcases Store.assign_refused herror with hfrozen | ⟨-, hnone⟩
      · exact absurd hfrozen hopen
      · cases hnone.symm.trans hw
    | unchanged hsame =>
      exact (inSync_iff hpass.swap).2 ⟨w, v, hw, hx, Store.assign_unchanged hsame hw⟩
    | changed => exact absurd rfl hr

/-- A reaction of the delegate to a change of one end leaves the ends equal, if that end still has
the new value or they have been equal since. -/
theorem inSync_of_react {change : Change} {handler : Handler} {net₀ : Network}
    (hpass : d.Passes x a y b) (hhandler : handler.passesTo? = some (y, b))
    (hassigned : Carried (d.Spared names) (d.Kept names) n)
    (hchanged : ∀ {net net'}, net.Hosts (d.Spared names) → d.Fit names net → d.Live net' →
      assign n y b change.new net = some (.ok true, net') → d.InSync net')
    (hnet : net.Hosts (d.Spared names)) (hfit : d.Fit names net) (hlive : d.Live net)
    (hlive' : d.Live net') (hsettled : d.Settled net₀ net)
    (hnew : net₀.store.get? x a = some change.new)
    (h : react (n + 1) change handler net = some ((), net')) : d.InSync net' := by
  obtain ⟨r, net₁, hassign, hecho⟩ := react_passed hhandler (hlive.isAlive hpass.swap) h
  have hquiet : Quiet (d.Spared names) net₁ net' := hecho.quiet
  have ⟨hlater, hkept⟩ := hassigned.assign hnet hassign
  have hlive₁ : d.Live net₁ := hlive'.earlier (hfit.known.later hlater) hquiet.toLater
  refine InSync.settled ?_ (.of_quiet hquiet hlive')
  rcases Classical.em (r = .ok true) with rfl | hr
  · exact hchanged hnet hfit hlive₁ hassign
  · rcases hsettled.get?_eq hpass with hsync | hsame
    · exact hsync.settled (hkept hfit hlive₁)
    · exact inSync_of_offer hpass hfit hr (hsame.trans hnew) hassign

/-- An assignment that changes one end leaves the ends equal. The induction is on the budget: the
observer of the changed end assigns the other one. -/
theorem inSync_of_assign {o : ObjectRef} {v : Value}
    (hcarried : ∀ m < n, Carried (d.Spared names) (d.Kept names) m)
    (hpass : d.Passes x a y b) (ho : o.id = x.id) (hnet : net.Hosts (d.Spared names))
    (hfit : d.Fit names net) (hlive : d.Live net')
    (h : assign n o a v net = some (.ok true, net')) : d.InSync net' := by
  induction n using Nat.strongRecOn generalizing net net' x y a b o v with
  | _ n ih =>
  cases n with
  | zero => cases h
  | succ n =>
  cases assign_cases h with
  | @changed _ old _ hput hannounce =>
  obtain ⟨rfl, hsize, -⟩ := Store.assign_changed hput
  cases n with
  | zero => cases hannounce
  | succ n =>
  obtain ⟨net₃, hall, rfl⟩ := announce_cases hannounce
  have hcarriedn := hcarried n (by omega)
  have hR := carrier_kept d names
  have hstart : Later (d.Spared names) net
      ({ net with store := net.store.put o a v }.hold (Change.references ⟨o, a, old, v⟩)) :=
    (later_put o a v).trans (quiet_hold _).toLater
  have hnet₀ := hstart.hosts hnet
  have hknown₀ := hfit.known.later hstart
  have hall₀ := hcarriedn.reactAll hR hnet₀ (fun o ho => hnet₀ o (List.mem_filter.1 ho).1) hall
  have hlive₃ : d.Live net₃ :=
    hlive.earlier (hknown₀.later hall₀.1) (quiet_letGo (P := d.Spared names) _).toLater
  have hlive₀ := hlive₃.earlier hknown₀ hall₀.1
  have hfit₀ := hfit.later hlive₀ hstart
  -- The observer of the changed end is among those that are told.
  obtain ⟨observer, hmem, hobject, hattr, hhandler⟩ := hlive₀.exists_observer hpass
  obtain ⟨before, behind, net₁, net₂, hbefore, hbehind, hrunb, hreact, hrunr⟩ :=
    hall.split (List.mem_filter.2 ⟨hmem, by simp [hobject, hattr, ho]⟩)
  have hkept₁ := hcarriedn.reactAll hR hnet₀
    (fun o ho => hnet₀ o (List.mem_filter.1 (hbefore o ho)).1) hrunb
  have hnet₁ := hkept₁.1.hosts hnet₀
  have hkept₂ := hcarriedn.react hnet₁ (hnet₀ observer hmem) hreact
  have hnet₂ := hkept₂.1.hosts hnet₁
  have hkept₃ := hcarriedn.reactAll hR hnet₂
    (fun o ho => hnet₀ o (List.mem_filter.1 (hbehind o ho)).1) hrunr
  have hknown₁ := hknown₀.later hkept₁.1
  have hlive₂ := hlive₃.earlier (hknown₁.later hkept₂.1) hkept₃.1
  have hlive₁ := hlive₂.earlier hknown₁ hkept₂.1
  have hfit₁ := hfit₀.later hlive₁ hkept₁.1
  cases n with
  | zero => cases hreact
  | succ n =>
  have hnew : (net.store.put o a v).get? x a = some (Change.new ⟨o, a, old, v⟩) :=
    Store.get?_put_self hsize ho
  have hsync₂ : d.InSync net₂ := inSync_of_react hpass hhandler (hcarried n (by omega))
    (fun hnet hfit hlive h =>
      ih n (by omega) (fun m hm => hcarried m (by omega)) hpass.swap rfl hnet hfit hlive h)
    hnet₁ hfit₁ hlive₁ hlive₂ (hkept₁.2 hfit₀ hlive₁) hnew hreact
  exact (hsync₂.settled (hkept₃.2 (hfit₁.later hlive₂ hkept₂.1) hlive₃)).settled
    (.of_quiet (quiet_letGo (P := d.Spared names) _) hlive)

end

/-- Every computation leaves the ends equal or does nothing to them. -/
theorem carried_kept (d : Joint) (names : Table String ObjectRef) (n : Nat) :
    Carried (d.Spared names) (d.Kept names) n := by
  refine .of_assigns (carrier_kept d names) (fun {n net net' o attr v r} ih hnet hrun => ?_) n
  have hlater : Later (d.Spared names) net net' :=
    (carried_later spared_of_observe (n + 1)).assign hnet hrun
  refine ⟨hlater, fun hfit hlive => ?_⟩
  cases assign_cases hrun with
  | refused | unchanged => exact .refl _
  | changed hput hannounce =>
  have hcarried : ∀ m < n + 1, Carried (d.Spared names) (d.Kept names) m :=
    fun m hm => ih m (Nat.le_of_lt_succ hm)
  rcases Decidable.em (o.id = d.target.id ∧ attr = d.attr) with ⟨ho, rfl⟩ | htarget
  · exact .inl (inSync_of_assign hcarried .outward ho hnet hfit hlive hrun)
  rcases Decidable.em (o.id = d.source.id ∧ attr = d.name) with ⟨ho, rfl⟩ | hsource
  · exact .inl (inSync_of_assign hcarried .inward ho hnet hfit hlive hrun)
  obtain ⟨rfl, -⟩ := Store.assign_changed hput
  have hstart : Later (d.Spared names) net { net with store := net.store.put o attr v } :=
    later_put o attr v
  have ⟨hlater', hkept⟩ := (ih n (Nat.le_refl n)).announce (hstart.hosts hnet) hannounce
  have hlive₀ := hlive.earlier (hfit.known.later hstart) hlater'
  exact (settled_put htarget hsource).trans (hkept (hfit.later hlive₀ hstart) hlive)

end Joint

/-- An attribute was assigned, or a change was announced that did not take place, and everything
that followed has finished. -/
def Network.Changes (net net' : Network) : Prop :=
  (∃ o attr v r, net.set? o attr v = some (r, net')) ∨ ∃ o attr v, net.emit? o attr v = some net'

/-- A delegate that stays live is in sync whenever the system is at rest, whatever else observes its
ends and whatever that assigns. Observers of the host must not put values into an end behind the
back of the observers. -/
theorem Joint.inSync_of_changes (d : Joint) {net net' : Network} (hnumbered : net.Numbered)
    (hlive : d.Live net) (hlive' : d.Live net')
    (htarget : net.store.shape? d.target.id ≠ some .frozen)
    (hsource : net.store.shape? d.source.id ≠ some .frozen)
    (hspared : net.Hosts (d.Spared net.desk.objects)) (hsync : d.InSync net)
    (hchanges : net.Changes net') : d.InSync net' := by
  have hfit : d.Fit net.desk.objects net := by
    obtain ⟨v, w, hv, hw, -⟩ := hsync
    refine ⟨⟨hnumbered _ hlive.outward, hnumbered _ hlive.inward⟩, ⟨htarget, ?_⟩, ⟨hsource, ?_⟩,
      fun _ _ h => h⟩
    · exact Option.isSome_iff_exists.2 ⟨v, hv⟩
    · exact Option.isSome_iff_exists.2 ⟨w, hw⟩
  have hcarried := d.carried_kept net.desk.objects nestingLimit
  rcases hchanges with ⟨o, attr, v, r, hset⟩ | ⟨o, attr, v, hemit⟩
  · exact hsync.settled ((hcarried.assign hspared hset).2 hfit hlive')
  · obtain ⟨p, hannounce, rfl⟩ := Option.map_eq_some_iff.1 hemit
    exact hsync.settled ((hcarried.announce hspared hannounce).2 hfit hlive')

/-- A text of a model that a field shows, with an observer of the host on another attribute. -/
def shownText (actions : List Command) : Network where
  store := { objects := #[
    ⟨"Model", .open, Table.ofList [("saved", .bool true), ("text", .str "a")], true⟩,
    ⟨"Field", .declared, Table.ofList [("text", .str "a")], true⟩] }
  observers := [⟨0, 1, "text", .writeThrough ⟨0, "Model"⟩ "text"⟩,
    ⟨1, 0, "text", .writeBack ⟨1, "Field"⟩ "text"⟩, ⟨2, 0, "saved", .host "onSaved" actions⟩]
  nextObserver := 3
  links := #[some { body := .delegate, subscriptions := [0, 1], owned := true }]
  desk := { objects := Table.ofList [("field", ⟨1, "Field"⟩), ("model", ⟨0, "Model"⟩)] }

/-- The delegate between the field and the model. -/
def shownTextJoint : Joint := ⟨⟨1, "Field"⟩, "text", ⟨0, "Model"⟩, "text", 0, 1⟩

theorem shownText_numbered (actions : List Command) : (shownText actions).Numbered := by
  simp [Network.Numbered, shownText]

theorem shownTextJoint_live {actions : List Command} {net : Network}
    (hobservers : net.observers = (shownText actions).observers)
    (halive : net.store.isAlive 1 = true ∧ net.store.isAlive 0 = true) : shownTextJoint.Live net := by
  refine ⟨?_, ?_, halive.1, halive.2⟩ <;> rw [hobservers] <;> simp [shownText, shownTextJoint]

theorem shownTextJoint_inSync (actions : List Command) :
    shownTextJoint.InSync (shownText actions) :=
  ⟨.str "a", .str "a", rfl, rfl, rfl⟩

theorem Joint.inSync_of_changes_shownText :
    ∃ net', (shownText [.set "field" "text" (.value (.str "b"))]).set? ⟨0, "Model"⟩ "saved"
        (.bool false) = some (.ok true, net')
      ∧ net'.store.get? ⟨0, "Model"⟩ "text" = some (.str "b") ∧ shownTextJoint.InSync net' := by
  have hrun : ((shownText [.set "field" "text" (.value (.str "b"))]).set? ⟨0, "Model"⟩ "saved"
      (.bool false)).map (fun p => (p.1, p.2.observers, p.2.store.isAlive 1, p.2.store.isAlive 0,
        p.2.store.get? ⟨0, "Model"⟩ "text"))
      = some (.ok true, (shownText [.set "field" "text" (.value (.str "b"))]).observers, true, true,
        some (.str "b")) := by rfl
  obtain ⟨⟨r, net'⟩, hset, hp⟩ := Option.map_eq_some_iff.1 hrun
  simp only [Prod.mk.injEq] at hp
  obtain ⟨rfl, hobservers, hfield, hmodel, htext⟩ := hp
  refine ⟨net', hset, htext, shownTextJoint.inSync_of_changes (shownText_numbered _)
    (shownTextJoint_live rfl ⟨rfl, rfl⟩) (shownTextJoint_live hobservers ⟨hfield, hmodel⟩)
    (by decide) (by decide) ?_ (shownTextJoint_inSync _) (.inl ⟨_, _, _, _, hset⟩)⟩
  simp [Network.Hosts, shownText, Handler.Within, Joint.Spared, Command.puts]

/-- An observer of the host that puts a value into the model without telling observers leaves the
field behind. -/
theorem Joint.not_inSync_of_changes :
    ¬ ∀ (d : Joint) (net net' : Network), net.Numbered → d.Live net → d.Live net' →
      net.store.shape? d.target.id ≠ some .frozen → net.store.shape? d.source.id ≠ some .frozen →
      d.InSync net → net.Changes net' → d.InSync net' := by
  intro h
  have hrun : ((shownText [.put "model" "text" (.value (.str "b"))]).set? ⟨0, "Model"⟩ "saved"
      (.bool false)).map (fun p => (p.2.observers, p.2.store.isAlive 1, p.2.store.isAlive 0,
        p.2.store.get? ⟨1, "Field"⟩ "text", p.2.store.get? ⟨0, "Model"⟩ "text"))
      = some ((shownText [.put "model" "text" (.value (.str "b"))]).observers, true, true,
        some (.str "a"), some (.str "b")) := by rfl
  obtain ⟨⟨r, net'⟩, hset, hp⟩ := Option.map_eq_some_iff.1 hrun
  simp only [Prod.mk.injEq] at hp
  obtain ⟨hobservers, hfield, hmodel, hshown, htext⟩ := hp
  obtain ⟨v, w, hv, hw, he⟩ := h shownTextJoint _ net' (shownText_numbered _)
    (shownTextJoint_live rfl ⟨rfl, rfl⟩) (shownTextJoint_live hobservers ⟨hfield, hmodel⟩)
    (by decide) (by decide) (shownTextJoint_inSync _) (.inl ⟨_, _, _, _, hset⟩)
  cases hshown.symm.trans hv
  cases htext.symm.trans hw
  simp [Value.equal] at he

end ReactiveView
