import ReactiveView.Proofs.Network.Steps

/-!
This module contains the ways in which a bind is brought up to date, statements are run and code is
tied to an attribute.
-/

namespace ReactiveView

open Cascade

variable {n : Nat} {net net' : Network}

/-- The ways in which bringing a bind up to date ends. -/
inductive Refreshes (n link : Nat) (net : Network) : Except EvalError Unit → Network → Prop
  | unbound (h : ∀ expr target attr scope, ¬net.HasBind link expr target attr scope) :
      Refreshes n link net (.ok ()) net
  | failed {expr : Expr} {target : ObjectRef} {attr : String} {scope : Scope} {e : EvalError}
      (hbind : net.HasBind link expr target attr scope)
      (h : ((net.disconnect link).outcome scope expr).1 = .error e) :
      Refreshes n link net (.error e) (net.resubscribed link scope expr)
  | dead {expr : Expr} {target : ObjectRef} {attr : String} {scope : Scope} {v : Value}
      (hbind : net.HasBind link expr target attr scope)
      (h : ((net.disconnect link).outcome scope expr).1 = .ok v)
      (hdead : (net.resubscribed link scope expr).store.isAlive target.id = false) :
      Refreshes n link net (.ok ()) (net.resubscribed link scope expr)
  | assigned {expr : Expr} {target : ObjectRef} {attr : String} {scope : Scope} {v : Value}
      {r : Except EvalError Bool} {net₁ : Network}
      (hbind : net.HasBind link expr target attr scope)
      (h : ((net.disconnect link).outcome scope expr).1 = .ok v)
      (halive : (net.resubscribed link scope expr).store.isAlive target.id = true)
      (hassign : assign n target attr v ((net.resubscribed link scope expr).hold
        (((net.disconnect link).outcome scope expr).2.reads.map (·.object.id))) = some (r, net₁)) :
      Refreshes n link net (r.map fun _ => ())
        (net₁.letGo (net.resubscribed link scope expr).busy)

theorem refresh_cases {link : Nat} {r : Except EvalError Unit}
    (h : refresh (n + 1) link net = some (r, net')) : Refreshes n link net r net' := by
  simp only [refresh, bind_eq_some, get_eq_some] at h
  obtain ⟨_, _, ⟨rfl, rfl⟩, h⟩ := h
  have hunbound (hnone : ∀ expr target attr scope, ¬net.HasBind link expr target attr scope)
      (h : (pure (.ok ()) : Cascade (Except EvalError Unit)) net = some (r, net')) :
      Refreshes n link net r net' := by
    obtain ⟨rfl, rfl⟩ := pure_eq_some.1 h
    exact .unbound hnone
  rcases hlink : net.link? link with _ | ⟨body, subscriptions, owned, running, succeeded, reads⟩
  · rw [hlink] at h
    refine hunbound ?_ h
    rintro expr target attr scope ⟨lk, hlk, -⟩
    cases hlink.symm.trans hlk
  · rw [hlink] at h
    cases body with
    | bind expr target attr scope =>
      have hbind : net.HasBind link expr target attr scope := ⟨_, hlink, rfl⟩
      simp only [bind_eq_some, modify_eq_some, evaluate_eq_some] at h
      obtain ⟨_, _, rfl, _, _, ⟨rfl, rfl⟩, _, net₂, hnet₂, h⟩ := h
      replace hnet₂ : net.resubscribed link scope expr = net₂ := hnet₂
      rcases hv : ((net.disconnect link).outcome scope expr).1 with e | v
      · simp only [hv] at h
        obtain ⟨rfl, rfl⟩ := pure_eq_some.1 h
        exact hnet₂ ▸ .failed hbind hv
      · simp only [hv, bind_eq_some, get_eq_some] at h
        obtain ⟨_, _, ⟨rfl, rfl⟩, h⟩ := h
        subst hnet₂
        split at h
        · next halive =>
          obtain ⟨a, _, hhold, h⟩ := bind_eq_some.1 h
          obtain ⟨net₁, hassign, rfl⟩ := holding_eq_some.1 hhold
          have hr : r = a.map (fun _ => ()) ∧ net₁.letGo (net.resubscribed link scope expr).busy
              = net' := by
            cases a <;> exact (pure_eq_some.1 h).imp_left Eq.symm
          obtain ⟨rfl, rfl⟩ := hr
          exact .assigned hbind hv halive hassign
        · next hdead =>
          obtain ⟨rfl, rfl⟩ := pure_eq_some.1 h
          exact .dead hbind hv (Bool.eq_false_iff.2 hdead)
    | delegate =>
      refine hunbound ?_ h
      rintro expr target attr scope ⟨lk, hlk, hbody⟩
      cases hlink.symm.trans hlk
      cases hbody
    | notify statements scope =>
      refine hunbound ?_ h
      rintro expr target attr scope ⟨lk, hlk, hbody⟩
      cases hlink.symm.trans hlk
      cases hbody

/-- What one statement after the other does, up to the first that fails. -/
inductive ExecuteAll (n : Nat) (scope : Scope) :
    List Statement → Network → Except EvalError Unit → Network → Prop
  | nil {net : Network} : ExecuteAll n scope [] net (.ok ()) net
  | cons {statement : Statement} {rest : List Statement} {r : Except EvalError Unit}
      {net net₁ net' : Network} (h : executeOne n scope statement net = some (.ok (), net₁))
      (hrest : ExecuteAll n scope rest net₁ r net') :
      ExecuteAll n scope (statement :: rest) net r net'
  | stop {statement : Statement} {rest : List Statement} {e : EvalError} {net net' : Network}
      (h : executeOne n scope statement net = some (.error e, net')) :
      ExecuteAll n scope (statement :: rest) net (.error e) net'

theorem execute_cases {scope : Scope} {statements : List Statement} {r : Except EvalError Unit}
    (h : execute (n + 1) scope statements net = some (r, net')) :
    ExecuteAll n scope statements net r net' := by
  rw [execute] at h
  induction statements generalizing net with
  | nil =>
    obtain ⟨rfl, rfl⟩ := pure_eq_some.1 h
    exact .nil
  | cons statement rest ih =>
    obtain ⟨one, net₁, hone, h⟩ := bind_eq_some.1 h
    cases one with
    | ok _ => exact .cons hone (ih h)
    | error e =>
      obtain ⟨rfl, rfl⟩ := pure_eq_some.1 h
      exact .stop hone

/-- The ways in which running one statement ends. -/
inductive ExecutesOne (n : Nat) (scope : Scope) (net : Network) :
    Statement → Except EvalError Unit → Network → Prop
  | evaluated {e : Expr} :
      ExecutesOne n scope net (.expr e) ((net.outcome scope e).1.map fun _ => ())
        (net.evaluated scope e)
  | noObject {object value : Expr} {attr : String} {e : EvalError}
      (h : ∀ o, (net.outcome scope object).1 ≠ .ok (.object o)) :
      ExecutesOne n scope net (.assign object attr value) (.error e) (net.evaluated scope object)
  | noValue {object value : Expr} {attr : String} {o : ObjectRef} {e : EvalError}
      (hobject : (net.outcome scope object).1 = .ok (.object o))
      (h : ((net.evaluated scope object).outcome scope value).1 = .error e) :
      ExecutesOne n scope net (.assign object attr value) (.error e)
        ((net.evaluated scope object).evaluated scope value)
  | assigned {object value : Expr} {attr : String} {o : ObjectRef} {v : Value}
      {r : Except EvalError Bool} {net' : Network}
      (hobject : (net.outcome scope object).1 = .ok (.object o))
      (hvalue : ((net.evaluated scope object).outcome scope value).1 = .ok v)
      (h : assign n o attr v ((net.evaluated scope object).evaluated scope value)
        = some (r, net')) :
      ExecutesOne n scope net (.assign object attr value) (r.map fun _ => ()) net'

theorem executeOne_cases {scope : Scope} {statement : Statement} {r : Except EvalError Unit}
    (h : executeOne (n + 1) scope statement net = some (r, net')) :
    ExecutesOne n scope net statement r net' := by
  cases statement with
  | expr e =>
    simp only [executeOne, bind_eq_some, evaluate_eq_some] at h
    obtain ⟨_, _, ⟨rfl, rfl⟩, h⟩ := h
    have hr : (net.outcome scope e).1.map (fun _ => ()) = r ∧ net.evaluated scope e = net' := by
      cases hv : (net.outcome scope e).1 <;> simp only [hv] at h <;> exact pure_eq_some.1 h
    obtain ⟨rfl, rfl⟩ := hr
    exact .evaluated
  | assign object attr value =>
    simp only [executeOne, bind_eq_some, evaluate_eq_some] at h
    obtain ⟨_, _, ⟨rfl, rfl⟩, h⟩ := h
    rcases hobject : (net.outcome scope object).1 with e | v
    · simp only [hobject] at h
      obtain ⟨rfl, rfl⟩ := pure_eq_some.1 h
      refine .noObject fun o ho => ?_
      cases hobject.symm.trans ho
    · simp only [hobject] at h
      cases v
      case object o =>
        simp only [bind_eq_some, evaluate_eq_some] at h
        obtain ⟨_, _, ⟨rfl, rfl⟩, h⟩ := h
        rcases hvalue : ((net.evaluated scope object).outcome scope value).1 with e | v
        · simp only [hvalue] at h
          obtain ⟨rfl, rfl⟩ := pure_eq_some.1 h
          exact .noValue hobject hvalue
        · simp only [hvalue, bind_eq_some] at h
          obtain ⟨a, net₁, hassign, h⟩ := h
          have hr : a.map (fun _ => ()) = r ∧ net₁ = net' := by
            cases a <;> exact pure_eq_some.1 h
          obtain ⟨rfl, rfl⟩ := hr
          exact .assigned hobject hvalue hassign
      all_goals
        obtain ⟨rfl, rfl⟩ := pure_eq_some.1 h
        refine .noObject fun o ho => ?_
        cases hobject.symm.trans ho

/-- The network when a delegate has been tied to both of its attributes. -/
def Network.delegated (net : Network) (target : ObjectRef) (attr : String) (source : ObjectRef)
    (name : String) : Network :=
  let (outward, net) := net.subscribe target.id attr (.writeThrough source name)
  let (inward, net) := net.subscribe source.id name (.writeBack target attr)
  (net.addLink { body := .delegate, subscriptions := [outward, inward], owned := true }).2

/-- The network when a notify has been tied to its attribute. -/
def Network.notified (net : Network) (statements : List Statement) (scope : Scope)
    (target : ObjectRef) (attr : String) : Network :=
  let (link, net) := net.addLink { body := .notify statements scope, owned := true }
  let (id, net) := net.subscribe target.id attr (.run link)
  net.modifyLink link fun l => { l with subscriptions := [id] }

/-- The network with a bind that is being evaluated for the first time. -/
def Network.bound (net : Network) (expr : Expr) (target : ObjectRef) (attr : String)
    (scope : Scope) : Network :=
  (net.addLink { body := .bind expr target attr scope, running := 1 }).2

/-- The ways in which tying code to an attribute ends. -/
inductive Connects (n : Nat) (target : ObjectRef) (attr : String) (scope : Scope) (net : Network) :
    Binding → Except EvalError (Option Nat) → Network → Prop
  | noDefault {code : String} {expr : Expr} {e : EvalError}
      (h : (net.outcome scope expr).1 = .error e) :
      Connects n target attr scope net (.default code expr) (.error e) (net.evaluated scope expr)
  | default {code : String} {expr : Expr} {v : Value} {r : Except EvalError Bool} {net' : Network}
      (hvalue : (net.outcome scope expr).1 = .ok v)
      (h : assign n target attr v (net.evaluated scope expr) = some (r, net')) :
      Connects n target attr scope net (.default code expr) (r.map fun _ => none) net'
  | noBind {code : String} {expr : Expr} {e : EvalError} {net₁ : Network}
      (h : refresh n net.links.size (net.bound expr target attr scope) = some (.error e, net₁)) :
      Connects n target attr scope net (.bind code expr) (.error e)
        (net₁.leaveLink net.links.size)
  | bind {code : String} {expr : Expr} {net₁ : Network}
      (h : refresh n net.links.size (net.bound expr target attr scope) = some (.ok (), net₁)) :
      Connects n target attr scope net (.bind code expr) (.ok (some net.links.size))
        ((net₁.ownLink net.links.size).leaveLink net.links.size)
  | noSource {code name : String} {object : Expr} {e : EvalError} :
      Connects n target attr scope net (.delegate code object name) (.error e)
        (net.evaluated scope object)
  | refused {code name : String} {object : Expr} {source : ObjectRef} {initial : Value}
      {e : EvalError} {net₁ : Network} (hobject : (net.outcome scope object).1 = .ok (.object source))
      (hinitial : (net.evaluated scope object).store.get? source name = some initial)
      (h : assign n target attr initial ((net.evaluated scope object).hold [source.id])
        = some (.error e, net₁)) :
      Connects n target attr scope net (.delegate code object name) (.error e)
        (net₁.letGo (net.evaluated scope object).busy)
  | delegate {code name : String} {object : Expr} {source : ObjectRef} {initial : Value}
      {changed : Bool} {net₁ : Network}
      (hobject : (net.outcome scope object).1 = .ok (.object source))
      (hinitial : (net.evaluated scope object).store.get? source name = some initial)
      (h : assign n target attr initial ((net.evaluated scope object).hold [source.id])
        = some (.ok changed, net₁)) :
      Connects n target attr scope net (.delegate code object name) (.ok (some net₁.links.size))
        ((net₁.delegated target attr source name).letGo (net.evaluated scope object).busy)
  | notify {code : String} {statements : List Statement} :
      Connects n target attr scope net (.notify code statements) (.ok (some net.links.size))
        (net.notified statements scope target attr)

theorem connect_cases {binding : Binding} {target : ObjectRef} {attr : String} {scope : Scope}
    {r : Except EvalError (Option Nat)}
    (h : connect (n + 1) binding target attr scope net = some (r, net')) :
    Connects n target attr scope net binding r net' := by
  cases binding with
  | default code expr =>
    simp only [connect, bind_eq_some, evaluate_eq_some] at h
    obtain ⟨_, _, ⟨rfl, rfl⟩, h⟩ := h
    rcases hvalue : (net.outcome scope expr).1 with e | v
    · simp only [hvalue] at h
      obtain ⟨rfl, rfl⟩ := pure_eq_some.1 h
      exact .noDefault hvalue
    · simp only [hvalue, bind_eq_some] at h
      obtain ⟨a, net₁, hassign, h⟩ := h
      have hr : a.map (fun _ => none) = r ∧ net₁ = net' := by
        cases a <;> exact pure_eq_some.1 h
      obtain ⟨rfl, rfl⟩ := hr
      exact .default hvalue hassign
  | bind code expr =>
    simp only [connect, bind_eq_some, get_eq_some, set_eq_some] at h
    obtain ⟨_, _, ⟨rfl, rfl⟩, _, _, rfl, a, net₁, hrefresh, h⟩ := h
    cases a with
    | ok _ =>
      simp only [bind_eq_some, modify_eq_some] at h
      obtain ⟨_, _, rfl, h⟩ := h
      obtain ⟨rfl, rfl⟩ := pure_eq_some.1 h
      exact .bind hrefresh
    | error e =>
      simp only [bind_eq_some, modify_eq_some] at h
      obtain ⟨_, _, rfl, h⟩ := h
      obtain ⟨rfl, rfl⟩ := pure_eq_some.1 h
      exact .noBind hrefresh
  | delegate code object name =>
    simp only [connect, bind_eq_some, evaluate_eq_some] at h
    obtain ⟨_, _, ⟨rfl, rfl⟩, h⟩ := h
    rcases hobject : (net.outcome scope object).1 with e | v
    · simp only [hobject] at h
      obtain ⟨rfl, rfl⟩ := pure_eq_some.1 h
      exact .noSource
    · simp only [hobject] at h
      cases v
      case object source =>
        simp only [bind_eq_some, get_eq_some] at h
        obtain ⟨_, _, ⟨rfl, rfl⟩, h⟩ := h
        rcases hinitial : (net.evaluated scope object).store.get? source name with _ | initial
        · simp only [hinitial] at h
          obtain ⟨rfl, rfl⟩ := pure_eq_some.1 h
          exact .noSource
        · simp only [hinitial] at h
          obtain ⟨net₂, hbody, rfl⟩ := holding_eq_some.1 h
          obtain ⟨a, net₁, hassign, hbody⟩ := bind_eq_some.1 hbody
          cases a with
          | ok changed =>
            simp only [bind_eq_some, get_eq_some, set_eq_some] at hbody
            obtain ⟨_, _, ⟨rfl, rfl⟩, _, _, rfl, hbody⟩ := hbody
            obtain ⟨rfl, rfl⟩ := pure_eq_some.1 hbody
            exact .delegate hobject hinitial hassign
          | error e =>
            obtain ⟨rfl, rfl⟩ := pure_eq_some.1 hbody
            exact .refused hobject hinitial hassign
      all_goals
        obtain ⟨rfl, rfl⟩ := pure_eq_some.1 h
        exact .noSource
  | notify code statements =>
    simp only [connect, bind_eq_some, get_eq_some, set_eq_some] at h
    obtain ⟨_, _, ⟨rfl, rfl⟩, _, _, rfl, h⟩ := h
    obtain ⟨rfl, rfl⟩ := pure_eq_some.1 h
    exact .notify

end ReactiveView
