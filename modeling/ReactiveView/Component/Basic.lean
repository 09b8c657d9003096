import ReactiveView.Layout.Config
import ReactiveView.Layout.Container
import ReactiveView.Layout.SizeHint
import ReactiveView.Network.Cascade
import ReactiveView.Schedule.Queue
import ReactiveView.Widget.Class

/-!
This module contains the scene: live components, what they observe, and the tasks that wait.

A component is one widget: its object, its box and, once it has children, a layout that places them.
It refers to its children; the way back to the parent does not keep the parent alive. Changes set
flags and queue tasks, and a task looks at its flag again before it does anything.
-/

namespace ReactiveView

/--
What a native widget has been told.
-/
structure NativeWidget (α : Type) where
  /-- The place and size. -/
  geometry : Option (Geometry α) := none
  /-- The least size. -/
  minSize : Option (Size α) := none
  /-- The greatest size. -/
  maxSize : Option (Size α) := none
  /-- How often it was placed. -/
  updates : Nat := 0

/--
A live widget.
-/
structure Component (α : Type) where
  /-- The class. -/
  widgetClass : WidgetClass
  /-- The identifier, if it has one. -/
  identifier : Option String
  /-- The attributes. -/
  object : ObjectRef
  /-- The variables of its place and size. -/
  box : Box
  /-- The layout of its children. -/
  layout : Layout α := {}
  /-- The widget that it drives. -/
  native : NativeWidget α := {}
  /-- Whether its constraints have to be handed to the solver. -/
  needsConstraints : Bool := false
  /-- Whether its children have to be placed. -/
  needsLayout : Bool := false
  /-- Whether its layout has been set up. -/
  live : Bool := false
  /-- The size that its layout solves for. -/
  size : Size α
  /-- The place and size within the parent, once known. -/
  geometry : Option (Geometry α) := none
  /-- The parent. -/
  parent : Option Nat := none
  /-- The children, in order. -/
  children : List Nat := []
  /-- The notes on it. -/
  notes : List ObjectRef := []
  /-- The constraints that were given last. -/
  userConstraints : List (Constraint α) := []
  /-- Those of them that are in the solver. -/
  appliedConstraints : List (Constraint α) := []
  /-- Its containment in the parent's solver. -/
  containment : List (Constraint α) := []
  /-- Its size hint in the parent's solver. -/
  hints : List (Constraint α) := []
  /-- The bindings that it keeps alive. -/
  links : List Nat := []
  /-- The subscriptions that follow its size hint. -/
  watchers : List Nat := []
  /-- How often its constraints were handed to the solver. -/
  constraintPasses : Nat := 0
  /-- How often its children were placed. -/
  layoutPasses : Nat := 0
  /-- Whether its solver refused the constraints that it was handed last. -/
  refused : Bool := false
  /-- How often its solver broke down. -/
  breakdowns : Nat := 0

/-- The identifier, or the name of the class. -/
def Component.label {α : Type} (c : Component α) : String :=
  c.identifier.getD c.widgetClass.name

/-- Whether there are children. -/
def Component.hasChildren {α : Type} (c : Component α) : Bool := !c.children.isEmpty

/-- The layout has been asked for something; if the solver broke down, that is counted. -/
def Component.answered {α β : Type} (c : Component α) (outcome : Except LayoutError β)
    (layout : Layout α) : Component α :=
  { c with
    layout
    breakdowns := if LayoutError.isBreakdown outcome then c.breakdowns + 1 else c.breakdowns }

/--
A task that waits.
-/
inductive Task where
  /-- Hand the constraints of a component to its solver, if that is still due. -/
  | constraints (component : Nat)
  /-- Place the children of a component, if that is still due. -/
  | layout (component : Nat)
  /-- Bring the size hint of a child in its parent's solver up to date. -/
  | sizeHint (parent child : Nat)
  deriving Repr, DecidableEq

/--
All components and what they run on.
-/
structure Scene (α : Type) where
  /-- Objects, observers and bindings. -/
  network : Network := {}
  /-- How firmly sizes are suggested. -/
  config : LayoutConfig := {}
  /-- The components by identity; `none` once they are gone. -/
  components : Array (Option (Component α)) := #[]
  /-- The tasks that wait. -/
  queue : Queue Task := {}
  /-- The identity of the next variable. -/
  nextVariable : Nat := 0
  /-- The identity of the next constraint. -/
  nextConstraint : Nat := 0

/--
An operation on a scene.
-/
abbrev Staging (α : Type) := StateM (Scene α)

/--
An operation on a scene that a layout can refuse; changes made before an error stay.
-/
abbrev Laying (α : Type) := ExceptT LayoutError (StateM (Scene α))

/-- An operation that no layout refuses. -/
def Laying.sure {α β : Type} (x : Staging α β) : Laying α β := ExceptT.lift x

namespace Scene

variable {α : Type} [Scalar α]

/-- The component of an identity, unless it is gone. -/
def component? (s : Scene α) (c : Nat) : Option (Component α) := (s.components[c]?).join

/-- Change a component. -/
def update (s : Scene α) (c : Nat) (f : Component α → Component α) : Scene α :=
  { s with components := s.components.modify c (Option.map f) }

/-- The label of a component. -/
def label (s : Scene α) (c : Nat) : String :=
  match s.component? c with
  | some comp => comp.label
  | none => ""

/-- The parent of a component, unless it is gone. -/
def parent? (s : Scene α) (c : Nat) : Option Nat := do
  let p ← (← s.component? c).parent
  let _ ← s.component? p
  pure p

/-- The children of a component. -/
def children (s : Scene α) (c : Nat) : List Nat :=
  match s.component? c with
  | some comp => comp.children
  | none => []

/-- The attributes of a component. -/
def attrs (s : Scene α) (c : Nat) : Table String Value :=
  match s.component? c with
  | some comp => s.network.store.attrs comp.object
  | none => Table.empty

/-- Append log records. -/
def logAll (s : Scene α) (log : List LogRecord) : Scene α :=
  { s with network := { s.network with log := log.foldl Array.push s.network.log } }

/-- Append a log record. -/
def note (s : Scene α) (level : Level) (message : String) (fields : List (String × String)) :
    Scene α :=
  s.logAll [⟨level, message, fields⟩]

/-- A component and all below it, parents first, down to a given depth. -/
def descendants (s : Scene α) : Nat → Nat → List Nat
  | 0, _ => []
  | n + 1, c => c :: (s.children c).flatMap (s.descendants n)

/-- A component and all below it, parents first. -/
def subtree (s : Scene α) (c : Nat) : List Nat := s.descendants s.components.size c

/-- Let a layout do something that it can refuse. -/
def tryLayout {β : Type} (c : Nat) (f : Layout α → Except LayoutError β × Layout α) :
    Laying α β :=
  ExceptT.mk fun s =>
    match s.component? c with
    | none => (.error (.notInitialized "layout"), s)
    | some comp =>
      let (outcome, layout) := f comp.layout
      (outcome, s.update c fun comp => comp.answered outcome layout)

/-- Let a layout do something that it can refuse and that is logged. -/
def tryLogged (c : Nat) (f : Layout α → Except LayoutError Unit × List LogRecord × Layout α) :
    Laying α Unit :=
  ExceptT.mk fun s =>
    match s.component? c with
    | none => (.ok (), s)
    | some comp =>
      let (outcome, log, layout) := f comp.layout
      (outcome, (s.update c fun comp => comp.answered outcome layout).logAll log)

/-! ### Invalidation -/

/-- Queue a task for a live component with children. All others only keep their flags. -/
def schedule (s : Scene α) (c : Nat) (task : Task) : Scene α :=
  match s.component? c with
  | some comp =>
    if comp.live && comp.hasChildren then { s with queue := s.queue.push task } else s
  | none => s

/-- The constraints of a component are due. -/
def invalidateConstraints (s : Scene α) (c : Nat) : Scene α :=
  (s.update c fun comp => { comp with needsConstraints := true }).schedule c (.constraints c)

/-- The layout of a component is due. -/
def invalidateLayout (s : Scene α) (c : Nat) : Scene α :=
  (s.update c fun comp => { comp with needsLayout := true }).schedule c (.layout c)

/-- The size hint of a component may have changed: have it looked at in the parent's solver, if the
parent is live. -/
def announceHint (s : Scene α) (c : Nat) : Scene α :=
  match s.parent? c with
  | none => s
  | some p =>
    match s.component? p with
    | some parent =>
      if parent.live then { s with queue := s.queue.push (.sizeHint p c) } else s
    | none => s

/-- Turn the signals of the network into tasks. -/
def heedSignals (s : Scene α) : Scene α :=
  s.network.signals.foldl announceHint { s with network := { s.network with signals := [] } }

/-- Give a component other constraints. A live one hands them to its solver later, and then places
its children again. -/
def constrain (s : Scene α) (c : Nat) (constraints : List (Constraint α)) : Scene α :=
  let s := s.update c fun comp => { comp with userConstraints := constraints }
  match s.component? c with
  | some comp => if comp.live then (s.invalidateConstraints c).invalidateLayout c else s
  | none => s

/-- Give a component at the top a size, and have its children placed. -/
def resize (s : Scene α) (c : Nat) (size : Size α) : Scene α :=
  let geometry : Geometry α := ⟨Scalar.zero, Scalar.zero, size.width, size.height⟩
  (s.update c fun comp =>
    { comp with
      geometry := some geometry
      size
      native :=
        { comp.native with geometry := some geometry, updates := comp.native.updates + 1 } }
  ).invalidateLayout c

/-! ### Building -/

/-- Follow attributes of a component. -/
def watch (net : Network) (o : ObjectRef) (c : Nat) : List String → List Nat × Network
  | [] => ([], net)
  | attr :: rest =>
    let (id, net) := net.subscribe o.id attr (.hint c)
    let (ids, net) := watch net o c rest
    (id :: ids, net)

/-- Make a component of a class. -/
def newComponent (s : Scene α) (widgetClass : WidgetClass) (identifier : Option String) :
    Nat × Scene α :=
  let c := s.components.size
  let (object, store) := widgetClass.newObject s.network.store
  let net := { s.network with store, owners := object.id :: s.network.owners }
  let (watchers, network) := watch net object c widgetClass.watched
  let box := Box.starting s.nextVariable
  let comp : Component α := { widgetClass, identifier, object, box, watchers, size := .zero }
  (c,
    { s with
      network
      components := s.components.push (some comp)
      nextVariable := s.nextVariable + 4 })

/-- Make a note on a component. -/
def newNote (s : Scene α) (c : Nat) (widgetClass : WidgetClass) : ObjectRef × Scene α :=
  let (object, store) := widgetClass.newObject s.network.store
  let network := { s.network with store, owners := object.id :: s.network.owners }
  (object,
    { s with network : Scene α }.update c fun comp => { comp with notes := comp.notes ++ [object] })

/-- Attach a child without any regard to layouts. -/
def attach (s : Scene α) (p c : Nat) : Scene α :=
  (s.update c fun comp => { comp with parent := some p }).update p fun comp =>
    { comp with children := comp.children ++ [c] }

/-! ### Life -/

/-- Let a component go: its bindings are cut, its subscriptions end. -/
def release (s : Scene α) (c : Nat) : Scene α :=
  match s.component? c with
  | none => s
  | some comp =>
    let network := comp.links.foldl Network.dropLink s.network
    let network := comp.watchers.foldl Network.unsubscribe network
    { s with network, components := s.components.modify c fun _ => none }

/-- The objects that components refer to. -/
def ownedObjects (s : Scene α) : List Nat :=
  s.components.toList.flatMap fun slot =>
    match slot with
    | some comp => comp.object.id :: comp.notes.map ObjectRef.id
    | none => []

/-- Let all components go that are not below one of `roots`, and all objects that neither a
component nor `kept` refers to. -/
def sweep (s : Scene α) (roots kept : List Nat) : Scene α :=
  let reached := roots.flatMap s.subtree
  let gone := (List.range s.components.size).filter fun c => !reached.contains c
  let s := gone.foldl release s
  { s with network := { s.network with owners := s.ownedObjects ++ kept }.sweep }

end Scene

end ReactiveView
