import ReactiveView.Proofs.Network.Bindings

/-!
This module contains the ways in which a host is served.
-/

namespace ReactiveView

open Cascade

variable {n : Nat} {net net' : Network}

/-- The network when a binding has been tied under the name of a handle. -/
def Network.handled (net : Network) (handle : String) (link : Option Nat) : Network :=
  let previous := (net.desk.handles.get? handle).join
  let net := { net with desk :=
    { net.desk with handles := net.desk.handles.insert handle link } }
  match previous with
  | some old => net.dropLink old
  | none => net

/-- The network when the binding of a handle has been cut. -/
def Network.released (net : Network) (handle : String) (link : Option Nat) : Network :=
  let net := { net with desk := { net.desk with handles := net.desk.handles.erase handle } }
  match link with
  | some id => net.dropLink id
  | none => net

/-- The network with one more observer of the host. -/
def Network.watched (net : Network) (o : ObjectRef) (attr id : String) (actions : List Command) :
    Network :=
  let (observer, net) := net.subscribe o.id attr (.host id actions)
  let watches := net.desk.watches.insert id { object := o, attr, observer }
  { net with desk := { net.desk with watches } }.sweep

/-- The ways in which serving a host ends, as far as they leave something behind. -/
inductive Performs (n : Nat) (change : Option Change) (net : Network) : Command → Network → Prop
  | answered {command : Command} : Performs n change net command net
  | evaluated {command : Command} (e : Expr) :
      Performs n change net command (net.evaluated net.desk.scope e)
  | assigned {object attr : String} {value : Term} {o : ObjectRef} {v : Value}
      {r : Except EvalError Bool} {net' : Network}
      (hobject : net.desk.objects.get? object = some o)
      (hvalue : value.resolve net.desk change = some v)
      (h : assign n o attr v net = some (r, net')) :
      Performs n change net (.set object attr value) net'
  | put {object attr : String} {value : Term} {o : ObjectRef} {v : Value}
      (hobject : net.desk.objects.get? object = some o)
      (hvalue : value.resolve net.desk change = some v) :
      Performs n change net (.put object attr value)
        { net with store := net.store.put o attr v }.sweep
  | emitted {object attr : String} {value : Term} {o : ObjectRef} {v : Value} {net' : Network}
      (hobject : net.desk.objects.get? object = some o)
      (hvalue : value.resolve net.desk change = some v)
      (h : announce n ⟨o, attr, (net.store.get? o attr).getD .none, v⟩ net = some ((), net')) :
      Performs n change net (.emit object attr value) net'
  | observed {object attr id : String} {actions : List Command} {o : ObjectRef}
      (hobject : net.desk.objects.get? object = some o) :
      Performs n change net (.observe object attr id actions) (net.watched o attr id actions)
  | unobserved {id : String} {attr : Option String} {watch : Watch}
      (hwatch : net.desk.watches.get? id = some watch)
      (hfound : ∃ o ∈ net.observersOf watch.object.id (attr.getD watch.attr),
        o.id = watch.observer) :
      Performs n change net (.unobserve id attr) (net.unsubscribe watch.observer)
  | forgot {object : String} :
      Performs n change net (.forget object)
        { net with desk := { net.desk with objects := net.desk.objects.erase object } }.sweep
  | layered {command : Command} (names : Namespace) :
      Performs n change net command
        { net with desk := { net.desk with scope := net.desk.scope.push names } }
  | executed {source : String} {statements : List Statement} {r : Except EvalError Unit}
      {net' : Network} (hparse : Statement.parseAll source = .ok statements)
      (h : execute n net.desk.scope statements net = some (r, net')) :
      Performs n change net (.exec source) net'
  | unconnected {kind : BindingKind} {code object attr handle : String} {o : ObjectRef}
      {binding : Binding} {e : EvalError} {net₁ : Network}
      (hobject : net.desk.objects.get? object = some o)
      (hcompile : Binding.compile kind code = .ok binding)
      (h : connect n binding o attr net.desk.scope (net.hold [o.id]) = some (.error e, net₁)) :
      Performs n change net (.connect kind code object attr handle) (net₁.letGo net.busy)
  | connected {kind : BindingKind} {code object attr handle : String} {o : ObjectRef}
      {binding : Binding} {link : Option Nat} {net₁ : Network}
      (hobject : net.desk.objects.get? object = some o)
      (hcompile : Binding.compile kind code = .ok binding)
      (h : connect n binding o attr net.desk.scope (net.hold [o.id]) = some (.ok link, net₁)) :
      Performs n change net (.connect kind code object attr handle)
        ((net₁.letGo net.busy).handled handle link)
  | dropped {handle : String} {link : Option Nat}
      (hhandle : net.desk.handles.get? handle = some link) :
      Performs n change net (.drop handle) (net.released handle link)

theorem perform_cases {change : Option Change} {command : Command} {outcome : Outcome}
    (h : perform (n + 1) change command net = some (outcome, net')) :
    Performs n change net command net' := by
  simp only [perform, bind_eq_some, get_eq_some] at h
  obtain ⟨_, _, ⟨rfl, rfl⟩, h⟩ := h
  have hanswered {c : Command} {result : Outcome}
      (h : (pure result : Cascade Outcome) net = some (outcome, net')) :
      Performs n change net c net' := by
    obtain ⟨-, rfl⟩ := pure_eq_some.1 h
    exact .answered
  cases command with
  | get object attr =>
    rcases hobject : net.desk.objects.get? object with _ | o
    · simp only [hobject] at h
      exact hanswered h
    · simp only [hobject] at h
      rcases hget : net.store.get? o attr with _ | v <;> simp only [hget] at h <;>
        exact hanswered h
  | has object attr =>
    rcases hobject : net.desk.objects.get? object with _ | o <;> simp only [hobject] at h <;>
      exact hanswered h
  | observers object attr =>
    rcases hobject : net.desk.objects.get? object with _ | o <;> simp only [hobject] at h <;>
      exact hanswered h
  | names object =>
    rcases hobject : net.desk.objects.get? object with _ | o <;> simp only [hobject] at h <;>
      exact hanswered h
  | set object attr value =>
    rcases hobject : net.desk.objects.get? object with _ | o
    · simp only [hobject] at h
      exact hanswered h
    · rcases hvalue : value.resolve net.desk change with _ | v
      · simp only [hobject, hvalue] at h
        exact hanswered h
      · simp only [hobject, hvalue, bind_eq_some] at h
        obtain ⟨r, net₁, hassign, h⟩ := h
        have hnet : net₁ = net' := by
          cases r <;> exact (pure_eq_some.1 h).2
        exact .assigned hobject hvalue (hnet ▸ hassign)
  | put object attr value =>
    rcases hobject : net.desk.objects.get? object with _ | o
    · simp only [hobject] at h
      exact hanswered h
    · rcases hvalue : value.resolve net.desk change with _ | v
      · simp only [hobject, hvalue] at h
        exact hanswered h
      · simp only [hobject, hvalue, bind_eq_some, set_eq_some, pure_eq_some] at h
        obtain ⟨_, _, rfl, -, rfl⟩ := h
        exact .put hobject hvalue
  | emit object attr value =>
    rcases hobject : net.desk.objects.get? object with _ | o
    · simp only [hobject] at h
      exact hanswered h
    · rcases hvalue : value.resolve net.desk change with _ | v
      · simp only [hobject, hvalue] at h
        exact hanswered h
      · simp only [hobject, hvalue, bind_eq_some, pure_eq_some] at h
        obtain ⟨_, _, hannounce, -, rfl⟩ := h
        exact .emitted hobject hvalue hannounce
  | observe object attr id actions =>
    rcases hobject : net.desk.objects.get? object with _ | o
    · simp only [hobject] at h
      exact hanswered h
    · simp only [hobject, bind_eq_some, set_eq_some, pure_eq_some] at h
      obtain ⟨_, _, rfl, -, rfl⟩ := h
      exact .observed hobject
  | unobserve id attr =>
    rcases hwatch : net.desk.watches.get? id with _ | watch
    · simp only [hwatch] at h
      exact hanswered h
    · simp only [hwatch, bind_eq_some, set_eq_some, pure_eq_some] at h
      obtain ⟨_, _, hnet, -, rfl⟩ := h
      split at hnet
      · next hfound =>
        subst hnet
        exact .unobserved hwatch (by simpa using hfound)
      · subst hnet
        exact .answered
  | forget object =>
    simp only [bind_eq_some, set_eq_some, pure_eq_some] at h
    obtain ⟨_, _, rfl, -, rfl⟩ := h
    exact .forgot
  | layer names =>
    rcases hnames : Term.resolveNames net.desk names with _ | resolved
    · simp only [hnames] at h
      exact hanswered h
    · simp only [hnames, bind_eq_some, set_eq_some, pure_eq_some] at h
      obtain ⟨_, _, rfl, -, rfl⟩ := h
      exact .layered resolved
  | builtins =>
    simp only [bind_eq_some, set_eq_some, pure_eq_some] at h
    obtain ⟨_, _, rfl, -, rfl⟩ := h
    exact .layered builtinNames
  | eval source =>
    rcases hparse : Expr.parse source with e | expr
    · simp only [hparse] at h
      exact hanswered h
    · simp only [hparse, bind_eq_some, evaluate_eq_some] at h
      obtain ⟨_, _, ⟨rfl, rfl⟩, h⟩ := h
      have hnet : net.evaluated net.desk.scope expr = net' := by
        cases hv : (net.outcome net.desk.scope expr).1 <;> simp only [hv] at h <;>
          exact (pure_eq_some.1 h).2
      exact hnet ▸ .evaluated expr
  | track source =>
    rcases hparse : Expr.parse source with e | expr
    · simp only [hparse] at h
      exact hanswered h
    · simp only [hparse, bind_eq_some, evaluate_eq_some, pure_eq_some] at h
      obtain ⟨_, _, ⟨rfl, rfl⟩, -, rfl⟩ := h
      exact .evaluated expr
  | exec source =>
    rcases hparse : Statement.parseAll source with e | statements
    · simp only [hparse] at h
      exact hanswered h
    · simp only [hparse, bind_eq_some] at h
      obtain ⟨r, net₁, hexecute, h⟩ := h
      have hnet : net₁ = net' := by
        cases r <;> exact (pure_eq_some.1 h).2
      exact .executed hparse (hnet ▸ hexecute)
  | connect kind code object attr handle =>
    rcases hobject : net.desk.objects.get? object with _ | o
    · simp only [hobject] at h
      exact hanswered h
    · rcases hcompile : Binding.compile kind code with e | binding
      · simp only [hobject, hcompile] at h
        exact hanswered h
      · simp only [hobject, hcompile] at h
        obtain ⟨r, _, hhold, h⟩ := bind_eq_some.1 h
        obtain ⟨net₁, hconnect, rfl⟩ := holding_eq_some.1 hhold
        cases r with
        | error e =>
          obtain ⟨-, rfl⟩ := pure_eq_some.1 h
          exact .unconnected hobject hcompile hconnect
        | ok link =>
          simp only [bind_eq_some, modify_eq_some, pure_eq_some] at h
          obtain ⟨_, _, rfl, -, rfl⟩ := h
          exact .connected hobject hcompile hconnect
  | drop handle =>
    rcases hhandle : net.desk.handles.get? handle with _ | link
    · simp only [hhandle] at h
      exact hanswered h
    · simp only [hhandle, bind_eq_some, set_eq_some, pure_eq_some] at h
      obtain ⟨_, _, rfl, -, rfl⟩ := h
      exact .dropped hhandle

end ReactiveView
