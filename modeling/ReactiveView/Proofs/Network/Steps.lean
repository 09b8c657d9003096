import ReactiveView.Network.Cascade

/-!
This module contains what the computations on a network can do when they come to an end: one
relation for each of them, whose cases are its ways to end. All that is known about a change and
what it sets off is derived from these cases.
-/

namespace ReactiveView

namespace Network

/-- The other network differs at most in what was logged, noted and signalled. -/
structure Echoes (net net' : Network) : Prop where
  store : net'.store = net.store
  observers : net'.observers = net.observers
  links : net'.links = net.links
  nextObserver : net'.nextObserver = net.nextObserver
  nextFunction : net'.nextFunction = net.nextFunction
  desk : net'.desk = net.desk
  busy : net'.busy = net.busy
  owners : net'.owners = net.owners

theorem Echoes.refl (net : Network) : net.Echoes net := ⟨rfl, rfl, rfl, rfl, rfl, rfl, rfl, rfl⟩

/-- The other network differs at most in what was logged and noted, and in signals that were added. -/
structure Adds (net net' : Network) : Prop extends Echoes net net' where
  signals : net.signals ⊆ net'.signals

theorem Adds.refl (net : Network) : net.Adds net := ⟨.refl net, fun _ h => h⟩

theorem adds_note (net : Network) (level : Level) (message : String)
    (fields : List (String × String)) : net.Adds (net.note level message fields) :=
  ⟨⟨rfl, rfl, rfl, rfl, rfl, rfl, rfl, rfl⟩, fun _ h => h⟩

theorem adds_happened (net : Network) (e : Event) : net.Adds (net.happened e) :=
  ⟨⟨rfl, rfl, rfl, rfl, rfl, rfl, rfl, rfl⟩, fun _ h => h⟩

theorem adds_signal (net : Network) (widget : Nat) :
    net.Adds { net with signals := net.signals ++ [widget] } :=
  ⟨⟨rfl, rfl, rfl, rfl, rfl, rfl, rfl, rfl⟩, List.subset_append_left _ _⟩

/-- What an expression comes to in a scope. -/
def outcome (net : Network) (scope : Scope) (e : Expr) : Except EvalError Value × Trail :=
  e.run net.store scope net.nextFunction

/-- The network when an expression has been evaluated. -/
def evaluated (net : Network) (scope : Scope) (e : Expr) : Network :=
  net.absorb (net.outcome scope e).2

/-- The network when a bind has been evaluated again and subscribed to what it read. -/
def resubscribed (net : Network) (link : Nat) (scope : Scope) (e : Expr) : Network :=
  let (result, trail) := (net.disconnect link).outcome scope e
  let (ids, net) :=
    ((net.disconnect link).evaluated scope e).subscribeAll (.refresh link) trail.reads
  net.modifyLink link fun l =>
    { l with subscriptions := ids, succeeded := result.isOk, reads := trail.reads }

/-- The network while work in progress holds objects. -/
def hold (net : Network) (ids : List Nat) : Network := { net with busy := ids ++ net.busy }

/-- The network when work in progress holds what it held before, and what nothing holds is gone. -/
def letGo (net : Network) (busy : List Nat) : Network := { net with busy }.sweep

end Network

namespace Cascade

variable {α β : Type} {net net' : Network}

@[simp]
theorem pure_eq_some {a b : α} :
    (pure a : Cascade α) net = some (b, net') ↔ a = b ∧ net = net' := by
  change some (a, net) = some (b, net') ↔ _
  simp

@[simp]
theorem bind_eq_some {x : Cascade α} {f : α → Cascade β} {b : β} :
    (x >>= f) net = some (b, net') ↔
      ∃ a net₁, x net = some (a, net₁) ∧ f a net₁ = some (b, net') := by
  change (x net).bind (fun p => f p.1 p.2) = some (b, net') ↔ _
  simp [Option.bind_eq_some_iff]

@[simp]
theorem get_eq_some {m : Network} :
    (get : Cascade Network) net = some (m, net') ↔ net = m ∧ net = net' := by
  change some (net, net) = some (m, net') ↔ _
  simp

@[simp]
theorem set_eq_some {m : Network} {u : PUnit} :
    (set m : Cascade PUnit) net = some (u, net') ↔ m = net' := by
  change some (PUnit.unit, m) = some (u, net') ↔ _
  simp

@[simp]
theorem modify_eq_some {f : Network → Network} {u : PUnit} :
    (modify f : Cascade PUnit) net = some (u, net') ↔ f net = net' := by
  change some (PUnit.unit, f net) = some (u, net') ↔ _
  simp

@[simp]
theorem exhausted_eq_some {a : α} : (exhausted : Cascade α) net = some (a, net') ↔ False := by
  change none = some (a, net') ↔ _
  simp

theorem evaluate_eq_some {scope : Scope} {e : Expr} {r : Except EvalError Value × List Dependency} :
    evaluate scope e net = some (r, net') ↔
      r = ((net.outcome scope e).1, (net.outcome scope e).2.reads)
        ∧ net' = net.evaluated scope e := by
  unfold evaluate
  simp only [bind_eq_some, get_eq_some, set_eq_some, pure_eq_some, Network.evaluated,
    Network.outcome]
  constructor
  · rintro ⟨_, _, ⟨rfl, rfl⟩, _, _, rfl, rfl, rfl⟩
    exact ⟨rfl, rfl⟩
  · rintro ⟨rfl, rfl⟩
    exact ⟨_, _, ⟨rfl, rfl⟩, ⟨⟩, _, rfl, rfl, rfl⟩

theorem holding_eq_some {ids : List Nat} {x : Cascade α} {a : α} :
    holding ids x net = some (a, net') ↔
      ∃ net₁, x (net.hold ids) = some (a, net₁) ∧ net' = net₁.letGo net.busy := by
  unfold holding
  simp only [bind_eq_some, get_eq_some, modify_eq_some, pure_eq_some]
  constructor
  · rintro ⟨_, _, ⟨rfl, rfl⟩, _, _, rfl, _, net₁, hx, _, _, rfl, rfl, rfl⟩
    exact ⟨net₁, hx, rfl⟩
  · rintro ⟨net₁, hx, rfl⟩
    exact ⟨_, _, ⟨rfl, rfl⟩, ⟨⟩, _, rfl, _, net₁, hx, ⟨⟩, _, rfl, rfl, rfl⟩

theorem warn_eq_some {message widget attr : String} {e : EvalError} {u : PUnit} :
    warn message widget attr e net = some (u, net') → net.Adds net' := by
  unfold warn
  rw [modify_eq_some]
  rintro rfl
  exact Network.adds_note _ _ _ _

end Cascade

open Cascade

section

variable {n : Nat} {net net' : Network}

/-! ### Changes -/

/-- The ways in which an assignment ends. -/
inductive Assigns (n : Nat) (o : ObjectRef) (attr : String) (v : Value) (net : Network) :
    Except EvalError Bool → Network → Prop
  | refused {e : EvalError} (h : net.store.assign o attr v = .error e) :
      Assigns n o attr v net (.error e) net
  | unchanged (h : net.store.assign o attr v = .ok .unchanged) :
      Assigns n o attr v net (.ok false) net
  | changed {store : Store} {old : Value} {net' : Network}
      (h : net.store.assign o attr v = .ok (.changed store old))
      (hann : announce n ⟨o, attr, old, v⟩ { net with store } = some ((), net')) :
      Assigns n o attr v net (.ok true) net'

theorem assign_cases {o : ObjectRef} {attr : String} {v : Value} {r : Except EvalError Bool}
    (h : assign (n + 1) o attr v net = some (r, net')) : Assigns n o attr v net r net' := by
  simp only [assign, bind_eq_some, get_eq_some] at h
  obtain ⟨_, _, ⟨rfl, rfl⟩, h⟩ := h
  rcases he : net.store.assign o attr v with e | _ | ⟨store, old⟩
  · rw [he] at h
    obtain ⟨rfl, rfl⟩ := pure_eq_some.1 h
    exact .refused he
  · rw [he] at h
    obtain ⟨rfl, rfl⟩ := pure_eq_some.1 h
    exact .unchanged he
  · rw [he] at h
    simp only [bind_eq_some, set_eq_some, pure_eq_some] at h
    obtain ⟨_, _, rfl, _, _, hann, rfl, rfl⟩ := h
    exact .changed he hann

/-- What one observer after the other does about a change. -/
inductive ReactAll (n : Nat) (change : Change) : List Observer → Network → Network → Prop
  | nil {net : Network} : ReactAll n change [] net net
  | cons {o : Observer} {rest : List Observer} {net net₁ net' : Network}
      (h : react n change o.handler net = some ((), net₁)) (hrest : ReactAll n change rest net₁ net') :
      ReactAll n change (o :: rest) net net'

theorem reactAll_of_forM {change : Change} {observers : List Observer} {u : PUnit}
    (h : (observers.forM fun o => react n change o.handler) net = some (u, net')) :
    ReactAll n change observers net net' := by
  induction observers generalizing net with
  | nil =>
    obtain ⟨-, rfl⟩ := pure_eq_some.1 h
    exact .nil
  | cons o rest ih =>
    obtain ⟨_, net₁, hhead, hrest⟩ := bind_eq_some.1 h
    exact .cons hhead (ih hrest)

/-- What one of several observers does, between what those before it and those behind it do. -/
theorem ReactAll.split {change : Change} {observers : List Observer} {o : Observer}
    (ho : o ∈ observers) (h : ReactAll n change observers net net') :
    ∃ before behind net₁ net₂, (∀ o ∈ before, o ∈ observers) ∧ (∀ o ∈ behind, o ∈ observers)
      ∧ ReactAll n change before net net₁ ∧ react n change o.handler net₁ = some ((), net₂)
      ∧ ReactAll n change behind net₂ net' := by
  induction h with
  | nil => cases ho
  | @cons first rest net net₁ net' hfirst hrest ih =>
    rcases List.mem_cons.1 ho with rfl | hmem
    · exact ⟨[], rest, net, net₁, by simp, by simp +contextual, .nil, hfirst, hrest⟩
    · obtain ⟨before, behind, net₂, net₃, hbefore, hbehind, hb, hreact, ha⟩ := ih hmem
      refine ⟨first :: before, behind, net₂, net₃, ?_, ?_, .cons hfirst hb, hreact, ha⟩
      · exact fun o h => (List.mem_cons.1 h).elim (fun h => h ▸ List.mem_cons_self ..)
          fun h => List.mem_cons_of_mem _ (hbefore o h)
      · exact fun o h => List.mem_cons_of_mem _ (hbehind o h)

theorem announce_cases {change : Change} {u : Unit}
    (h : announce (n + 1) change net = some (u, net')) :
    ∃ net₁, ReactAll n change (net.observersOf change.object.id change.attr)
      (net.hold change.references) net₁ ∧ net' = net₁.letGo net.busy := by
  simp only [announce, bind_eq_some, get_eq_some] at h
  obtain ⟨_, _, ⟨rfl, rfl⟩, h⟩ := h
  obtain ⟨net₁, hall, rfl⟩ := holding_eq_some.1 h
  exact ⟨net₁, reactAll_of_forM hall, rfl⟩

/-! ### Reactions -/

/-- The attribute that a handler of a delegate passes a new value on to. -/
def Handler.passesTo? : Handler → Option (ObjectRef × String)
  | writeThrough source attr => some (source, attr)
  | writeBack target attr => some (target, attr)
  | _ => none

/-- The names that the statements of a notify see of a change. -/
def Change.names (change : Change) : Namespace :=
  Table.ofList [("self", .object change.object), ("old", change.old), ("new", change.new)]

/-- A binding that keeps an attribute equal to an expression. -/
def Network.HasBind (net : Network) (link : Nat) (expr : Expr) (target : ObjectRef) (attr : String)
    (scope : Scope) : Prop :=
  ∃ lk, net.link? link = some lk ∧ lk.body = .bind expr target attr scope

/-- A binding that runs statements. -/
def Network.HasNotify (net : Network) (link : Nat) (statements : List Statement) (scope : Scope) :
    Prop :=
  ∃ lk, net.link? link = some lk ∧ lk.body = .notify statements scope

/-- What an observer of the host does, one command after the other. -/
inductive PerformAll (n : Nat) (id : String) (change : Change) :
    List Command → Network → Network → Prop
  | nil {net : Network} : PerformAll n id change [] net net
  | cons {command : Command} {rest : List Command} {outcome : Outcome} {net net₁ net' : Network}
      (h : perform n (some change) command net = some (outcome, net₁))
      (hrest : PerformAll n id change rest (net₁.happened (.action id outcome)) net') :
      PerformAll n id change (command :: rest) net net'

/-- The ways in which a reaction to a change ends. -/
inductive Reacts (n : Nat) (change : Change) (net : Network) : Handler → Network → Prop
  | refreshed {link : Nat} {expr : Expr} {target : ObjectRef} {attr : String} {scope : Scope}
      {r : Except EvalError Unit} {net₁ net₂ : Network}
      (hbind : net.HasBind link expr target attr scope)
      (h : refresh n link (net.enterLink link) = some (r, net₁)) (hecho : net₁.Adds net₂) :
      Reacts n change net (.refresh link) (net₂.leaveLink link)
  | unbound {link : Nat} (h : ∀ expr target attr scope, ¬net.HasBind link expr target attr scope) :
      Reacts n change net (.refresh link) net
  | ran {link : Nat} {statements : List Statement} {scope : Scope} {r : Except EvalError Unit}
      {net₁ net₂ : Network} (hnotify : net.HasNotify link statements scope)
      (h : execute n (scope.push change.names) statements (net.enterLink link) = some (r, net₁))
      (hecho : net₁.Adds net₂) : Reacts n change net (.run link) (net₂.leaveLink link)
  | cut {link : Nat} (h : ∀ statements scope, ¬net.HasNotify link statements scope) :
      Reacts n change net (.run link) net
  | passed {handler : Handler} {o : ObjectRef} {attr : String} {r : Except EvalError Bool}
      {net₁ net₂ : Network} (hpass : handler.passesTo? = some (o, attr))
      (halive : net.store.isAlive o.id = true)
      (h : assign n o attr change.new net = some (r, net₁)) (hecho : net₁.Adds net₂) :
      Reacts n change net handler net₂
  | dead {handler : Handler} {o : ObjectRef} {attr : String}
      (hpass : handler.passesTo? = some (o, attr)) (hdead : net.store.isAlive o.id = false) :
      Reacts n change net handler net
  | hinted {widget : Nat} :
      Reacts n change net (.hint widget) { net with signals := net.signals ++ [widget] }
  | hosted {id : String} {actions : List Command} {net₁ net' : Network} (hecho : net.Adds net₁)
      (h : PerformAll n id change actions net₁ net') : Reacts n change net (.host id actions) net'

theorem performAll_of_forM {id : String} {change : Change} {actions : List Command} {u : PUnit}
    (h : (actions.forM fun action => do
        let outcome ← perform n (some change) action
        modify fun (net : Network) => net.happened (.action id outcome)) net = some (u, net')) :
    PerformAll n id change actions net net' := by
  induction actions generalizing net with
  | nil =>
    obtain ⟨-, rfl⟩ := pure_eq_some.1 h
    exact .nil
  | cons action rest ih =>
    obtain ⟨_, net₂, hhead, hrest⟩ := bind_eq_some.1 h
    simp only [bind_eq_some, modify_eq_some] at hhead
    obtain ⟨outcome, net₁, hperform, rfl⟩ := hhead
    exact .cons hperform (ih hrest)

/-- A handler of a delegate passes the new value on as long as there is an object to take it. -/
theorem reacts_of_passing {change : Change} {handler : Handler} {o : ObjectRef} {attr : String}
    {message noted : String} {widget : Network → String} {u : Unit}
    (hpass : handler.passesTo? = some (o, attr))
    (h : (do
      if (← get).store.isAlive o.id then
        match ← assign n o attr change.new with
        | .ok _ => pure ()
        | .error e => warn message (widget (← get)) noted e : Cascade Unit) net = some (u, net')) :
    Reacts n change net handler net' := by
  simp only [bind_eq_some, get_eq_some] at h
  obtain ⟨_, _, ⟨rfl, rfl⟩, h⟩ := h
  split at h
  · next halive =>
    obtain ⟨r, net₁, hassign, hwarn⟩ := bind_eq_some.1 h
    refine .passed hpass halive hassign ?_
    cases r with
    | ok _ =>
      obtain ⟨-, rfl⟩ := pure_eq_some.1 hwarn
      exact .refl _
    | error e =>
      simp only [bind_eq_some, get_eq_some] at hwarn
      obtain ⟨_, _, ⟨rfl, rfl⟩, hwarn⟩ := hwarn
      exact warn_eq_some hwarn
  · next hdead =>
    obtain ⟨-, rfl⟩ := pure_eq_some.1 h
    exact .dead hpass (Bool.eq_false_iff.2 hdead)

theorem react_cases {change : Change} {handler : Handler} {u : Unit}
    (h : react (n + 1) change handler net = some (u, net')) : Reacts n change net handler net' := by
  cases handler with
  | refresh link =>
    simp only [react, bind_eq_some, get_eq_some] at h
    obtain ⟨_, _, ⟨rfl, rfl⟩, h⟩ := h
    have hunbound (hnone : ∀ expr target attr scope, ¬net.HasBind link expr target attr scope)
        (h : (pure () : Cascade Unit) net = some (u, net')) :
        Reacts n change net (.refresh link) net' := by
      obtain ⟨-, rfl⟩ := pure_eq_some.1 h
      exact .unbound hnone
    rcases hlink : net.link? link with _ | ⟨body, subscriptions, owned, running, succeeded, reads⟩
    · rw [hlink] at h
      refine hunbound ?_ h
      rintro expr target attr scope ⟨lk, hlk, -⟩
      cases hlink.symm.trans hlk
    · rw [hlink] at h
      cases body with
      | bind expr target attr scope =>
        simp only [bind_eq_some, modify_eq_some] at h
        obtain ⟨_, _, rfl, r, net₁, href, h⟩ := h
        cases r with
        | ok _ =>
          simp only [modify_eq_some] at h
          subst h
          exact .refreshed ⟨_, hlink, rfl⟩ href (.refl _)
        | error e =>
          simp only [bind_eq_some, get_eq_some, modify_eq_some] at h
          obtain ⟨_, _, ⟨rfl, rfl⟩, _, net₂, hwarn, rfl⟩ := h
          exact .refreshed ⟨_, hlink, rfl⟩ href (warn_eq_some hwarn)
      | delegate =>
        refine hunbound ?_ h
        rintro expr target attr scope ⟨lk, hlk, hbody⟩
        cases hlink.symm.trans hlk
        cases hbody
      | notify statements scope =>
        refine hunbound ?_ h
        rintro expr target attr scope ⟨lk, hlk, hbody⟩
        cases hlink.symm.trans hlk
        cases hbody
  | run link =>
    simp only [react, bind_eq_some, get_eq_some] at h
    obtain ⟨_, _, ⟨rfl, rfl⟩, h⟩ := h
    have hcut (hnone : ∀ statements scope, ¬net.HasNotify link statements scope)
        (h : (pure () : Cascade Unit) net = some (u, net')) :
        Reacts n change net (.run link) net' := by
      obtain ⟨-, rfl⟩ := pure_eq_some.1 h
      exact .cut hnone
    rcases hlink : net.link? link with _ | ⟨body, subscriptions, owned, running, succeeded, reads⟩
    · rw [hlink] at h
      refine hcut ?_ h
      rintro statements scope ⟨lk, hlk, -⟩
      cases hlink.symm.trans hlk
    · rw [hlink] at h
      cases body with
      | bind expr target attr scope =>
        refine hcut ?_ h
        rintro statements scope ⟨lk, hlk, hbody⟩
        cases hlink.symm.trans hlk
        cases hbody
      | delegate =>
        refine hcut ?_ h
        rintro statements scope ⟨lk, hlk, hbody⟩
        cases hlink.symm.trans hlk
        cases hbody
      | notify statements scope =>
        simp only [bind_eq_some, modify_eq_some] at h
        obtain ⟨_, _, rfl, r, net₁, hexec, h⟩ := h
        cases r with
        | ok _ =>
          simp only [modify_eq_some] at h
          subst h
          exact .ran ⟨_, hlink, rfl⟩ hexec (.refl _)
        | error e =>
          simp only [bind_eq_some, get_eq_some, modify_eq_some] at h
          obtain ⟨_, _, ⟨rfl, rfl⟩, _, net₂, hwarn, rfl⟩ := h
          exact .ran ⟨_, hlink, rfl⟩ hexec (warn_eq_some hwarn)
  | writeThrough source attr =>
    rw [react] at h
    exact reacts_of_passing rfl h
  | writeBack target attr =>
    rw [react] at h
    exact reacts_of_passing rfl h
  | hint widget =>
    simp only [react, modify_eq_some] at h
    subst h
    exact .hinted
  | host id actions =>
    simp only [react, bind_eq_some, modify_eq_some] at h
    obtain ⟨_, _, rfl, h⟩ := h
    exact .hosted (Network.adds_happened _ _) (performAll_of_forM (by simpa using h))

end

end ReactiveView
