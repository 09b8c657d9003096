import ReactiveView.Network.State

/-!
This module contains what a change sets off. Observers of an attribute run one after the other, in
the order of their subscription, as they were when the change happened; what they assign is
announced before the next one runs.

Every function takes a budget of nested calls. Nothing comes back when it runs out, which is told
apart from every result.
-/

namespace ReactiveView

/--
A computation on the network; nothing comes back when its budget runs out.
-/
abbrev Cascade (α : Type) := StateT Network Option α

namespace Cascade

/-- The budget ran out. -/
def exhausted {α : Type} : Cascade α := fun _ => none

/-- Run actions in order up to the first that fails. -/
def untilError {β : Type} (action : β → Cascade (Except EvalError Unit)) :
    List β → Cascade (Except EvalError Unit)
  | [] => pure (.ok ())
  | b :: rest => do
    match ← action b with
    | .ok () => untilError action rest
    | .error e => pure (.error e)

/-- Evaluate an expression; what it recorded becomes events. -/
def evaluate (scope : Scope) (e : Expr) : Cascade (Except EvalError Value × List Dependency) := do
  let net ← get
  let (result, trail) := e.run net.store scope net.nextFunction
  set (net.absorb trail)
  pure (result, trail.reads)

/-- Run with objects held by work in progress. Those that nothing else holds by the end go with
it. -/
def holding {α : Type} (ids : List Nat) (action : Cascade α) : Cascade α := do
  let busy := (← get).busy
  modify fun net => { net with busy := ids ++ busy }
  let result ← action
  modify fun net => { net with busy }.sweep
  pure result

/-- Log a warning about an attribute of an object. -/
def warn (message widget attr : String) (e : EvalError) : Cascade Unit :=
  modify fun net =>
    net.note .warn message [("widget", widget), ("attribute", attr), ("error", e.message)]

end Cascade

namespace Term

mutual

/-- The value that a host means, if it knows all the names. -/
def resolve (desk : Desk) (change : Option Change) : Term → Option Value
  | value v => some v
  | object name => (desk.objects.get? name).map .object
  | old => change.map Change.old
  | new => change.map Change.new
  | list items => (resolveAll desk change items).map .list

/-- The values that a host means. -/
def resolveAll (desk : Desk) (change : Option Change) : List Term → Option (List Value)
  | [] => some []
  | t :: rest => do
    let v ← resolve desk change t
    let vs ← resolveAll desk change rest
    pure (v :: vs)

end

/-- The table of names that a host means. -/
def resolveNames (desk : Desk) (names : List (String × Term)) : Option Namespace :=
  (resolveAll desk none (names.map Prod.snd)).map fun vs =>
    Table.ofList ((names.map Prod.fst).zip vs)

end Term

open Cascade in
mutual

/-- Assign an attribute and announce the change. Answers whether there was one. -/
def assign : Nat → ObjectRef → String → Value → Cascade (Except EvalError Bool)
  | 0, _, _, _ => exhausted
  | n + 1, o, attr, v => do
    let net ← get
    match net.store.assign o attr v with
    | .error e => pure (.error e)
    | .ok .unchanged => pure (.ok false)
    | .ok (.changed store old) =>
      set { net with store }
      announce n ⟨o, attr, old, v⟩
      pure (.ok true)

/-- Tell the observers of an attribute of a change. -/
def announce : Nat → Change → Cascade Unit
  | 0, _ => exhausted
  | n + 1, change => do
    let observers := (← get).observersOf change.object.id change.attr
    holding change.references (observers.forM fun o => react n change o.handler)

/-- What one observer does about a change. -/
def react : Nat → Change → Handler → Cascade Unit
  | 0, _, _ => exhausted
  | n + 1, _, .refresh link => do
    match (← get).link? link with
    | some { body := .bind _ target attr _, .. } =>
      modify (·.enterLink link)
      match ← refresh n link with
      | .ok () => pure ()
      | .error e =>
        let net ← get
        let widget := if net.store.isAlive target.id then net.store.describe target else ""
        warn "bind re-evaluation failed, keeping previous value" widget attr e
      modify (·.leaveLink link)
    | _ => pure ()
  | n + 1, change, .run link => do
    match (← get).link? link with
    | some { body := .notify statements scope, .. } =>
      modify (·.enterLink link)
      let names : Namespace := Table.ofList
        [("self", .object change.object), ("old", change.old), ("new", change.new)]
      match ← execute n (scope.push names) statements with
      | .ok () => pure ()
      | .error e =>
        warn "notify handler failed" ((← get).store.describe change.object) change.attr e
      modify (·.leaveLink link)
    | _ => pure ()
  | n + 1, change, .writeThrough source attr => do
    if (← get).store.isAlive source.id then
      match ← assign n source attr change.new with
      | .ok _ => pure ()
      | .error e =>
        warn "delegate write-through failed" ((← get).store.describe change.object) change.attr e
  | n + 1, change, .writeBack target attr => do
    if (← get).store.isAlive target.id then
      match ← assign n target attr change.new with
      | .ok _ => pure ()
      | .error e => warn "delegate write-back failed" ((← get).store.describe target) attr e
  | _ + 1, _, .hint widget => modify fun net => { net with signals := net.signals ++ [widget] }
  | n + 1, change, .host id actions => do
    modify (·.happened (.changed id change))
    actions.forM fun action => do
      let outcome ← perform n (some change) action
      modify (·.happened (.action id outcome))

/-- Evaluate a bind again, subscribe it to what it read now, and assign the value. It is subscribed
also when evaluation fails, so that a later change of something it read can mend it. -/
def refresh : Nat → Nat → Cascade (Except EvalError Unit)
  | 0, _ => exhausted
  | n + 1, link => do
    match (← get).link? link with
    | some { body := .bind expr target attr scope, .. } =>
      modify (·.disconnect link)
      let (result, reads) ← evaluate scope expr
      modify fun net =>
        let (ids, net) := net.subscribeAll (.refresh link) reads
        net.modifyLink link fun l =>
          { l with subscriptions := ids, succeeded := result.isOk, reads }
      match result with
      | .error e => pure (.error e)
      | .ok v =>
        if (← get).store.isAlive target.id then
          match ← holding (reads.map (·.object.id)) (assign n target attr v) with
          | .ok _ => pure (.ok ())
          | .error e => pure (.error e)
        else pure (.ok ())
    | _ => pure (.ok ())

/-- Run statements up to the first that fails. -/
def execute : Nat → Scope → List Statement → Cascade (Except EvalError Unit)
  | 0, _, _ => exhausted
  | n + 1, scope, statements => untilError (executeOne n scope) statements

/-- Run one statement. -/
def executeOne : Nat → Scope → Statement → Cascade (Except EvalError Unit)
  | 0, _, _ => exhausted
  | _ + 1, scope, .expr e => do
    match (← evaluate scope e).1 with
    | .ok _ => pure (.ok ())
    | .error e => pure (.error e)
  | n + 1, scope, .assign object attr value => do
    match (← evaluate scope object).1 with
    | .error e => pure (.error e)
    | .ok (.object o) =>
      match (← evaluate scope value).1 with
      | .error e => pure (.error e)
      | .ok v =>
        match ← assign n o attr v with
        | .ok _ => pure (.ok ())
        | .error e => pure (.error e)
    | .ok v => pure (.error (.type (.cannotAssign attr v.typeName)))

/-- Tie compiled code to an attribute. Answers the binding that has to be kept, if any. -/
def connect : Nat → Binding → ObjectRef → String → Scope → Cascade (Except EvalError (Option Nat))
  | 0, _, _, _, _ => exhausted
  | n + 1, .default _ expr, target, attr, scope => do
    match (← evaluate scope expr).1 with
    | .error e => pure (.error e)
    | .ok v =>
      match ← assign n target attr v with
      | .ok _ => pure (.ok none)
      | .error e => pure (.error e)
  | n + 1, .bind _ expr, target, attr, scope => do
    let (link, net) := (← get).addLink { body := .bind expr target attr scope, running := 1 }
    set net
    match ← refresh n link with
    | .error e =>
      modify (·.leaveLink link)
      pure (.error e)
    | .ok () =>
      modify fun net => (net.ownLink link).leaveLink link
      pure (.ok (some link))
  | n + 1, .delegate _ object name, target, attr, scope => do
    match (← evaluate scope object).1 with
    | .error e => pure (.error e)
    | .ok (.object source) =>
      match (← get).store.get? source name with
      | none => pure (.error (.noAttribute source.className name))
      | some initial =>
        holding [source.id] do
          match ← assign n target attr initial with
          | .error e => pure (.error e)
          | .ok _ =>
            let net ← get
            let (outward, net) := net.subscribe target.id attr (.writeThrough source name)
            let (inward, net) := net.subscribe source.id name (.writeBack target attr)
            let (link, net) := net.addLink
              { body := .delegate, subscriptions := [outward, inward], owned := true }
            set net
            pure (.ok (some link))
    | .ok v => pure (.error (.type (.cannotDelegate name v.typeName)))
  | _ + 1, .notify _ statements, target, attr, scope => do
    let net ← get
    let (link, net) := net.addLink { body := .notify statements scope, owned := true }
    let (id, net) := net.subscribe target.id attr (.run link)
    set (net.modifyLink link fun l => { l with subscriptions := [id] })
    pure (.ok (some link))

/-- Do what a host asks for. -/
def perform : Nat → Option Change → Command → Cascade Outcome
  | 0, _, _ => exhausted
  | n + 1, change, command => do
    let net ← get
    match command with
    | .get object attr =>
      match net.desk.objects.get? object with
      | none => pure (.failed .unknownName)
      | some o =>
        match net.store.get? o attr with
        | some v => pure (.value v)
        | none => pure .missing
    | .has object attr =>
      match net.desk.objects.get? object with
      | none => pure (.failed .unknownName)
      | some o => pure (.flag (net.store.has o attr))
    | .observers object attr =>
      match net.desk.objects.get? object with
      | none => pure (.failed .unknownName)
      | some o => pure (.count (net.observersOf o.id attr).length)
    | .names object =>
      match net.desk.objects.get? object with
      | none => pure (.failed .unknownName)
      | some o => pure (.names (net.store.attrs o).keys)
    | .set object attr value =>
      match net.desk.objects.get? object, value.resolve net.desk change with
      | some o, some v =>
        match ← assign n o attr v with
        | .ok b => pure (.flag b)
        | .error e => pure (.failed (.eval e))
      | _, _ => pure (.failed .unknownName)
    | .put object attr value =>
      match net.desk.objects.get? object, value.resolve net.desk change with
      | some o, some v =>
        set ({ net with store := net.store.put o attr v }.sweep)
        pure .done
      | _, _ => pure (.failed .unknownName)
    | .emit object attr value =>
      match net.desk.objects.get? object, value.resolve net.desk change with
      | some o, some v =>
        announce n ⟨o, attr, (net.store.get? o attr).getD .none, v⟩
        pure .done
      | _, _ => pure (.failed .unknownName)
    | .observe object attr id actions =>
      match net.desk.objects.get? object with
      | none => pure (.failed .unknownName)
      | some o =>
        let (observer, net) := net.subscribe o.id attr (.host id actions)
        let watches := net.desk.watches.insert id { object := o, attr, observer }
        set ({ net with desk := { net.desk with watches } }.sweep)
        pure .done
    | .unobserve id attr =>
      match net.desk.watches.get? id with
      | none => pure (.failed .unknownName)
      | some watch =>
        let found := (net.observersOf watch.object.id (attr.getD watch.attr)).any
          fun o => o.id == watch.observer
        set (if found then net.unsubscribe watch.observer else net)
        pure (.flag found)
    | .forget object =>
      let known := net.desk.objects.contains object
      let objects := net.desk.objects.erase object
      set ({ net with desk := { net.desk with objects } }.sweep)
      pure (.flag known)
    | .layer names =>
      match Term.resolveNames net.desk names with
      | none => pure (.failed .unknownName)
      | some names =>
        set { net with desk := { net.desk with scope := net.desk.scope.push names } }
        pure .done
    | .builtins =>
      set { net with desk := { net.desk with scope := net.desk.scope.push builtinNames } }
      pure .done
    | .eval source =>
      match Expr.parse source with
      | .error e => pure (.failed (.code e))
      | .ok expr =>
        match (← evaluate net.desk.scope expr).1 with
        | .ok v => pure (.described v)
        | .error e => pure (.failed (.eval e))
    | .track source =>
      match Expr.parse source with
      | .error e => pure (.failed (.code e))
      | .ok expr =>
        let (result, reads) ← evaluate net.desk.scope expr
        pure (.tracked result reads)
    | .exec source =>
      match Statement.parseAll source with
      | .error e => pure (.failed (.code e))
      | .ok statements =>
        match ← execute n net.desk.scope statements with
        | .ok () => pure .done
        | .error e => pure (.failed (.eval e))
    | .connect kind code object attr handle =>
      match net.desk.objects.get? object with
      | none => pure (.failed .unknownName)
      | some o =>
        match Binding.compile kind code with
        | .error e => pure (.failed (.code e))
        | .ok binding =>
          match ← holding [o.id] (connect n binding o attr net.desk.scope) with
          | .error e => pure (.failed (.eval e))
          | .ok link =>
            modify fun net =>
              let previous := (net.desk.handles.get? handle).join
              let net := { net with desk :=
                { net.desk with handles := net.desk.handles.insert handle link } }
              match previous with
              | some old => net.dropLink old
              | none => net
            pure (.connected binding.kind binding.code link.isSome)
    | .drop handle =>
      match net.desk.handles.get? handle with
      | none => pure (.flag false)
      | some link =>
        let net := { net with desk := { net.desk with handles := net.desk.handles.erase handle } }
        set (match link with
          | some id => net.dropLink id
          | none => net)
        pure (.flag true)

end

/-- How deeply changes may set each other off. -/
def nestingLimit : Nat := 1000000

namespace Network

/-- Run a computation with the full budget. -/
def run {α : Type} (net : Network) (action : Nat → Cascade α) : Option (α × Network) :=
  action nestingLimit net

/-- Assign an attribute, with all that follows. Answers whether there was a change. -/
def set? (net : Network) (o : ObjectRef) (attr : String) (v : Value) :
    Option (Except EvalError Bool × Network) :=
  net.run fun n => assign n o attr v

/-- Tell the observers of an attribute of a change that does not take place. -/
def emit? (net : Network) (o : ObjectRef) (attr : String) (v : Value) : Option Network :=
  (net.run fun n => announce n ⟨o, attr, (net.store.get? o attr).getD .none, v⟩).map Prod.snd

/-- Tie compiled code to an attribute. Answers the binding that has to be kept, if any. -/
def connect? (net : Network) (binding : Binding) (target : ObjectRef) (attr : String)
    (scope : Scope) : Option (Except EvalError (Option Nat) × Network) :=
  net.run fun n => connect n binding target attr scope

/-- Do what a host asks for. -/
def command (net : Network) (c : Command) : Outcome × Network :=
  match net.run fun n => perform n none c with
  | some (outcome, net) => (outcome, net)
  | none => (.failed .unsettled, net)

end Network

end ReactiveView
