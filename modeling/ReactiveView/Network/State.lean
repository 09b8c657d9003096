import ReactiveView.Log
import ReactiveView.Network.Command

/-!
This module contains the network of observable objects: the store, the observers in the order in
which they subscribed, the live bindings, and what the host keeps by name.

An object lives as long as something refers to it: a name or an observer of the host, a widget, a
scope of a live binding, an attribute of a living object, or work in progress. A binding lives as
long as it is owned or is just being run.
-/

namespace ReactiveView

/--
What is done when an observed attribute changes.
-/
inductive Handler where
  /-- Bring a bind up to date. -/
  | refresh (link : Nat)
  /-- Run the statements of a notify. -/
  | run (link : Nat)
  /-- Pass the new value on to the source of a delegate. -/
  | writeThrough (source : ObjectRef) (attr : String)
  /-- Pass the new value back to the target of a delegate. -/
  | writeBack (target : ObjectRef) (attr : String)
  /-- Signal that the size hint of a widget may have changed. -/
  | hint (widget : Nat)
  /-- Run commands of the host. -/
  | host (id : String) (actions : List Command)

/--
A subscription to the changes of one attribute.
-/
structure Observer where
  /-- The identity of the subscription. -/
  id : Nat
  /-- The observed object. -/
  object : Nat
  /-- The observed attribute. -/
  attr : String
  /-- What is done on a change. -/
  handler : Handler

/--
What a live binding does.
-/
inductive LinkBody where
  /-- Keep `target.attr` equal to an expression. -/
  | bind (expr : Expr) (target : ObjectRef) (attr : String) (scope : Scope)
  /-- Keep two attributes equal; the observers know which. -/
  | delegate
  /-- Run statements. -/
  | notify (statements : List Statement) (scope : Scope)

/--
A live binding.
-/
structure Link where
  /-- What it does. -/
  body : LinkBody
  /-- Its subscriptions, by identity. -/
  subscriptions : List Nat := []
  /-- Whether a handle or a widget owns it. -/
  owned : Bool := false
  /-- How many runs of it are in progress. -/
  running : Nat := 0
  /-- Whether its latest evaluation came to a value; nothing reads it. -/
  succeeded : Bool := false
  /-- What its latest evaluation read; nothing reads it. -/
  reads : List Dependency := []

/-- The objects that a live binding refers to. -/
def Link.references (link : Link) : List ObjectRef :=
  match link.body with
  | .bind _ _ _ scope => scope.references
  | .delegate => []
  | .notify _ scope => scope.references

/--
A change of an attribute, handed to observers after it took effect.
-/
structure Change where
  /-- The object. -/
  object : ObjectRef
  /-- The attribute. -/
  attr : String
  /-- The value before. -/
  old : Value
  /-- The value after. -/
  new : Value

/-- The objects that a change refers to. -/
def Change.references (c : Change) : List Nat :=
  c.object.id :: (c.old.references ++ c.new.references).map ObjectRef.id

/--
Something that happened while a request was served.
-/
inductive Event where
  /-- The host function `record` was called. -/
  | recorded (arguments : List Value)
  /-- An observer of the host saw a change. -/
  | changed (id : String) (change : Change)
  /-- An observer of the host ran a command. -/
  | action (id : String) (outcome : Outcome)

/--
An observer of the host.
-/
structure Watch where
  /-- The observed object. -/
  object : ObjectRef
  /-- The observed attribute. -/
  attr : String
  /-- The subscription. -/
  observer : Nat

/--
What the host keeps by name.
-/
structure Desk where
  /-- Objects. -/
  objects : Table String ObjectRef := Table.empty
  /-- The scope of commands. -/
  scope : Scope := {}
  /-- Handles of bindings, `none` for those with nothing to keep alive. -/
  handles : Table String (Option Nat) := Table.empty
  /-- Observers. -/
  watches : Table String Watch := Table.empty

/--
Observable objects, who observes them, and the bindings between them.
-/
structure Network where
  /-- Objects and their attributes. -/
  store : Store := {}
  /-- Subscriptions, oldest first. -/
  observers : List Observer := []
  /-- Bindings by identity; `none` once they are cut. -/
  links : Array (Option Link) := #[]
  /-- The identity of the next subscription. -/
  nextObserver : Nat := 0
  /-- The identity of the next function. -/
  nextFunction : Nat := 0
  /-- What the host keeps. -/
  desk : Desk := {}
  /-- Objects that work in progress refers to. -/
  busy : List Nat := []
  /-- Objects that widgets and compiled views refer to. -/
  owners : List Nat := []
  /-- Widgets whose size hint may have changed, in the order of the signals. -/
  signals : List Nat := []
  /-- What happened, oldest first. -/
  events : Array Event := #[]
  /-- Log records, oldest first. -/
  log : Array LogRecord := #[]

namespace Network

/-- Append a log record. -/
def note (net : Network) (level : Level) (message : String) (fields : List (String × String)) :
    Network :=
  { net with log := net.log.push { level, message, fields } }

/-- Append an event. -/
def happened (net : Network) (e : Event) : Network := { net with events := net.events.push e }

/-- Take over the trail of an evaluation. -/
def absorb (net : Network) (trail : Trail) : Network :=
  { net with
    nextFunction := trail.fresh
    events := trail.recorded.foldl (fun events vs => events.push (.recorded vs)) net.events }

/-! ### Subscriptions -/

/-- Subscribe to an attribute. -/
def subscribe (net : Network) (object : Nat) (attr : String) (handler : Handler) : Nat × Network :=
  (net.nextObserver,
    { net with
      nextObserver := net.nextObserver + 1
      observers := net.observers ++ [{ id := net.nextObserver, object, attr, handler }] })

/-- Subscribe to several attributes with one handler. -/
def subscribeAll (net : Network) (handler : Handler) :
    List Dependency → List Nat × Network
  | [] => ([], net)
  | d :: rest =>
    let (id, net) := net.subscribe d.object.id d.attr handler
    let (ids, net) := net.subscribeAll handler rest
    (id :: ids, net)

/-- End a subscription. -/
def unsubscribe (net : Network) (id : Nat) : Network :=
  { net with observers := net.observers.filter fun o => o.id != id }

/-- The observers of an attribute, oldest first. -/
def observersOf (net : Network) (object : Nat) (attr : String) : List Observer :=
  net.observers.filter fun o => o.object == object && o.attr == attr

/-! ### Objects -/

/-- Make an object and give it a name of the host. -/
def introduce (net : Network) (name className : String) (shape : Shape) : Network :=
  let (o, store) := net.store.create className shape Table.empty
  { net with store, desk := { net.desk with objects := net.desk.objects.insert name o } }

/-- The name that the host gave to an object. -/
def nameOf? (net : Network) (o : ObjectRef) : Option String :=
  (net.desk.objects.findEntry? fun _ p => p.id == o.id).map Prod.fst

/-- The attributes of an object that are observed, each with the count of its observers. -/
def observedAttrs (net : Network) (o : ObjectRef) : List (String × Nat) :=
  ((net.store.attrs o).keys.map fun attr => (attr, (net.observersOf o.id attr).length)).filter
    fun entry => entry.2 != 0

/-- Whether something alive refers to an object. -/
def holds (net : Network) (id : Nat) : Bool :=
  net.owners.contains id
    || net.desk.objects.values.any (·.id == id)
    || net.desk.watches.values.any (·.object.id == id)
    || net.busy.contains id
    || net.store.objects.any (fun obj => obj.attrs.values.any fun v => v.references.any (·.id == id))
    || net.desk.scope.references.any (·.id == id)
    || net.links.any (fun slot => slot.any fun link => link.references.any (·.id == id))

/-- Free an object: nobody can observe it any more. -/
def free (net : Network) (id : Nat) : Network :=
  { net with
    store := net.store.free id
    observers := net.observers.filter fun o => o.object != id }

/-- The living objects that nothing refers to. -/
def unheld (net : Network) : List Nat :=
  (List.range net.store.objects.size).filter fun id => net.store.isAlive id && !net.holds id

/-- Free what nothing refers to, and then what only that referred to. -/
def sweepFor : Nat → Network → Network
  | 0, net => net
  | n + 1, net =>
    match net.unheld with
    | [] => net
    | ids => sweepFor n (ids.foldl free net)

/-- Free every object that nothing refers to. -/
def sweep (net : Network) : Network := sweepFor net.store.objects.size net

/-! ### Life of bindings -/

/-- The binding of an identity, unless it was cut. -/
def link? (net : Network) (id : Nat) : Option Link := (net.links[id]?).join

/-- Change a binding. -/
def modifyLink (net : Network) (id : Nat) (f : Link → Link) : Network :=
  { net with links := net.links.modify id (Option.map f) }

/-- Add a binding. -/
def addLink (net : Network) (link : Link) : Nat × Network :=
  (net.links.size, { net with links := net.links.push (some link) })

/-- End the subscriptions of a binding. -/
def disconnect (net : Network) (id : Nat) : Network :=
  match net.link? id with
  | none => net
  | some link =>
    (link.subscriptions.foldl unsubscribe net).modifyLink id fun l => { l with subscriptions := [] }

/-- Cut a binding that is neither owned nor running. -/
def settleLink (net : Network) (id : Nat) : Network :=
  match net.link? id with
  | none => net
  | some link =>
    if link.owned || link.running != 0 then net
    else
      let net := net.disconnect id
      { net with links := net.links.modify id fun _ => none }.sweep

/-- A run of a binding begins. -/
def enterLink (net : Network) (id : Nat) : Network :=
  net.modifyLink id fun l => { l with running := l.running + 1 }

/-- A run of a binding ends. -/
def leaveLink (net : Network) (id : Nat) : Network :=
  (net.modifyLink id fun l => { l with running := l.running - 1 }).settleLink id

/-- A binding gets an owner. -/
def ownLink (net : Network) (id : Nat) : Network :=
  net.modifyLink id fun l => { l with owned := true }

/-- The owner of a binding gives it up. -/
def dropLink (net : Network) (id : Nat) : Network :=
  (net.modifyLink id fun l => { l with owned := false }).settleLink id

end Network

end ReactiveView
