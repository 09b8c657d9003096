import ReactiveView.Proofs.Network.Delegate
import ReactiveView.Proofs.Network.Keepers

/-!
This module contains that widgets hear of the changes that they follow. However an attribute comes to
another value, by an assignment or by what that sets off, its observers were told, and what a widget
is told is a signal. Only what the host puts into an object that it has a name for goes unnoticed.
-/

namespace ReactiveView

open Network

namespace Network

variable {net net' net'' : Network} {K W : Keeping} {id i widget : Nat} {o : ObjectRef}
  {attr : String}

/-- The host has no name for an object. -/
def Unnamed (net : Network) (id : Nat) : Prop :=
  ∀ name o, net.desk.objects.get? name = some o → o.id ≠ id

/-- What the network looks like later. Where an object that the host has no name for has changed, the
widgets that follow the attribute have been signalled, and it has got no attribute that was not
declared. -/
structure Signals (net net' : Network) : Prop extends Later Command.Modest net net' where
  told : ∀ i (o : ObjectRef) attr widget, ⟨i, o.id, attr, .hint widget⟩ ∈ net'.observers →
    i < net.nextObserver → net.Unnamed o.id → net'.store.isAlive o.id = true →
    net'.store.get? o attr ≠ net.store.get? o attr → widget ∈ net'.signals
  lacks : ∀ (o : ObjectRef) attr, net.Unnamed o.id → net'.store.isAlive o.id = true →
    net.store.shape? o.id = some .declared → net.store.get? o attr = none →
    net'.store.get? o attr = none

theorem Unnamed.later {P : Command → Prop} (h : net.Unnamed id) (hlater : Later P net net') :
    net'.Unnamed id :=
  fun name o hname => h name o (hlater.names name o hname)

theorem Signals.trans (h : net.Signals net') (h' : net'.Signals net'') : net.Signals net'' where
  toLater := h.toLater.trans h'.toLater
  told i o attr widget ho hi hunnamed halive hne := by
    have hold : ⟨i, o.id, attr, .hint widget⟩ ∈ net'.observers := by
      refine (h'.observers _ ho).resolve_right fun hnew => ?_
      exact Nat.not_lt.2 (Nat.le_trans h.next hnew.1) hi
    by_cases hsame : net''.store.get? o attr = net'.store.get? o attr
    · refine h'.signals (h.told i o attr widget hold hi hunnamed (h'.alive _ halive) ?_)
      rwa [← hsame]
    · exact h'.told i o attr widget ho (Nat.lt_of_lt_of_le hi h.next) (hunnamed.later h.toLater)
        halive hsame
  lacks o attr hunnamed halive hdeclared hnone :=
    h'.lacks o attr (hunnamed.later h.toLater) halive ((h.shape o.id).trans hdeclared)
      (h.lacks o attr hunnamed (h'.alive _ halive) hdeclared hnone)

/-- Where the attributes of objects without a name are the same, there is nothing to signal. -/
theorem Signals.of_same (hlater : Later Command.Modest net net')
    (h : ∀ (o : ObjectRef) attr, net.Unnamed o.id → net'.store.isAlive o.id = true →
      net'.store.get? o attr = net.store.get? o attr) : net.Signals net' where
  toLater := hlater
  told _ o attr _ _ _ hunnamed halive hne := absurd (h o attr hunnamed halive) hne
  lacks o attr hunnamed halive _ hnone := (h o attr hunnamed halive).trans hnone

theorem carrier_signals : Carrier Command.Modest Signals where
  trans := .trans
  later := Signals.toLater
  quiet h := .of_same h.toLater fun _ attr _ halive => h.get? halive attr
  put _ _ hobject := .of_same (later_put ..) fun _ _ hunnamed _ =>
    Store.get?_put_ne fun he => hunnamed _ _ hobject he.1.symm
  observed h := h.elim

/-- Of the observers of a change that is announced, a widget leaves a signal. -/
theorem mem_signals_of_announce {n : Nat} {change : Change}
    (hcarried : ∀ m ≤ n, Carried Command.Modest Signals m) (hnet : net.Hosts Command.Modest)
    (hwidget : ⟨i, change.object.id, change.attr, .hint widget⟩ ∈ net.observers)
    (h : announce n change net = some ((), net')) : widget ∈ net'.signals := by
  cases n with
  | zero => cases h
  | succ n =>
  obtain ⟨net₃, hall, rfl⟩ := announce_cases h
  have hholds : (net.hold change.references).Hosts Command.Modest := hnet
  obtain ⟨before, behind, net₁, net₂, hbefore, hbehind, hrunb, hreact, hrunr⟩ :=
    hall.split (List.mem_filter.2 ⟨hwidget, by simp⟩)
  have hwithin : ∀ o ∈ net.observersOf change.object.id change.attr,
      o.handler.Within Command.Modest := fun o ho => hnet o (List.mem_filter.1 ho).1
  have hR := carrier_signals
  have hlater₁ := (hcarried n (by omega)).reactAll hR hholds (fun o ho => hwithin o (hbefore o ho))
    hrunb
  have hlater₂ := (hcarried n (by omega)).react (hlater₁.hosts hholds)
    (hwithin _ (List.mem_filter.2 ⟨hwidget, by simp⟩)) hreact
  have hlater₃ := (hcarried n (by omega)).reactAll hR (hlater₂.hosts (hlater₁.hosts hholds))
    (fun o ho => hwithin o (hbehind o ho)) hrunr
  cases n with
  | zero => cases hreact
  | succ n =>
  have hsignal : widget ∈ net₂.signals := by
    cases react_cases hreact with
    | hinted => exact List.mem_append_right _ (List.mem_singleton_self _)
    | passed hpass | dead hpass => cases hpass
  exact (quiet_letGo (P := Command.Modest) _).signals (hlater₃.signals hsignal)

/-- Every computation signals what it changes. -/
theorem carried_signals (n : Nat) : Carried Command.Modest Signals n := by
  refine .of_assigns carrier_signals (fun {n net net' o attr v r} ih hnet hrun => ?_) n
  cases assign_cases hrun with
  | refused | unchanged => exact carrier_signals.quiet (.refl _)
  | changed hput hannounce =>
  have hpresent := Store.exists_of_assign_changed hput
  obtain ⟨rfl, -⟩ := Store.assign_changed hput
  have hstart : Later Command.Modest net { net with store := net.store.put o attr v } :=
    later_put o attr v
  have hrest := (ih n (Nat.le_refl n)).announce (hstart.hosts hnet) hannounce
  refine ⟨hstart.trans hrest.toLater, fun i o' attr' widget ho hi hunnamed halive hne => ?_,
    fun o' attr' hunnamed halive hdeclared hnone => ?_⟩
  · by_cases hsame : o'.id = o.id ∧ attr' = attr
    · obtain ⟨hid, rfl⟩ := hsame
      rw [hid] at ho
      refine mem_signals_of_announce ih (hstart.hosts hnet) (i := i) ?_ hannounce
      exact (hrest.observers _ ho).resolve_right fun hnew => Nat.not_lt.2 hnew.1 hi
    · refine hrest.told i o' attr' widget ho hi hunnamed halive ?_
      rwa [Store.get?_put_ne hsame]
  · refine hrest.lacks o' attr' hunnamed halive (Store.shape?_put.trans hdeclared) ?_
    rw [Store.get?_put_ne, hnone]
    rintro ⟨hid, rfl⟩
    obtain ⟨present, hpresent⟩ := hpresent (hid ▸ hdeclared)
    cases hnone.symm.trans ((Store.get?_congr hid attr').trans hpresent)

/-! ### Moves -/

/-- An attribute of any object changes, code is tied to one, the host observes one, or it does
something else that neither makes nor ends subscriptions and bindings; with everything that follows,
and what observers of the host do is modest. -/
inductive Moves (net : Network) : Network → Prop
  | changed {net' : Network} (h : net.Changes net') : Moves net net'
  | tied {binding : Binding} {o : ObjectRef} {attr : String} {scope : Scope}
      {r : Except EvalError (Option Nat)} {net' : Network}
      (h : net.connect? binding o attr scope = some (r, net')) : Moves net net'
  | watched (o : ObjectRef) (attr id : String) {actions : List Command}
      (hmodest : ∀ c ∈ actions, c.Modest) : Moves net (net.watched o attr id actions)
  | performed {command : Command} {outcome : Outcome} {net' : Network} (hmodest : command.Modest)
      (h : (net.run fun n => perform n none command) = some (outcome, net')) : Moves net net'

theorem Moves.signals (h : net.Moves net') (hnet : net.Hosts Command.Modest) :
    net.Signals net' := by
  have hcarried := carried_signals nestingLimit
  cases h with
  | changed h =>
    rcases h with ⟨o, attr, v, r, hset⟩ | ⟨o, attr, v, hemit⟩
    · exact hcarried.assign hnet hset
    · obtain ⟨p, hannounce, rfl⟩ := Option.map_eq_some_iff.1 hemit
      exact hcarried.announce hnet hannounce
  | tied h => exact hcarried.connect hnet h
  | watched o attr id hmodest => exact carrier_signals.quiet (quiet_watched o attr id hmodest)
  | performed hmodest h => exact hcarried.perform hnet hmodest h

/-- What was kept is kept, by the same keepers, and what is made is the host's. -/
theorem Moves.tidy (h : net.Moves net') (hnet : net.Tidy K W []) :
    ∃ K' W', (∀ a i, W a i → W' a i) ∧ net'.Tidy K' W' [] ∧ net.Lasts W net' := by
  have hretains := retains nestingLimit
  have hkept {K' : Keeping} (h : Tidied W net K' [] net') :
      ∃ K' W', (∀ a i, W a i → W' a i) ∧ net'.Tidy K' W' [] ∧ net.Lasts W net' :=
    ⟨K', W, fun _ _ h => h, h.tidy, h.lasts⟩
  cases h with
  | changed h =>
    rcases h with ⟨o, attr, v, r, hset⟩ | ⟨o, attr, v, hemit⟩
    · exact hkept (hretains.assign hnet hset)
    · obtain ⟨p, hannounce, rfl⟩ := Option.map_eq_some_iff.1 hemit
      exact hkept (hretains.announce hnet hannounce)
  | tied h => exact hkept (hretains.connect .host hnet h)
  | watched o attr id hmodest =>
    obtain ⟨htidy, hlasts⟩ := hnet.watched o attr id hmodest
    exact ⟨K, _, fun _ _ => .inl, htidy, hlasts⟩
  | performed hmodest h => exact hkept (hretains.perform hnet hmodest h)

end Network

end ReactiveView
