import ReactiveView.Component.Tasks
import ReactiveView.View.Build
import ReactiveView.View.Command

/-!
This module contains sessions: what a host does with the views of one document, one command at a
time. The host holds views and single components by name and looks at one tree at a time. Between
two commands everything goes that the host does not hold.
-/

namespace ReactiveView

/--
The tree that a host looks at.
-/
structure Current where
  /-- Its root. -/
  root : Nat
  /-- The view that it belongs to. -/
  view : Option String

/--
A session.
-/
structure Session (α : Type) where
  /-- The components. -/
  scene : Scene α := {}
  /-- The classes of widgets. -/
  toolkit : Toolkit := Table.empty
  /-- The compiled document, if there is one. -/
  compiled : Option CompiledDocument := none
  /-- The objects that stay for the whole session. -/
  permanent : List Nat := []
  /-- Views by name. -/
  views : Table String View := Table.empty
  /-- The tree that the host looks at. -/
  current : Option Current := none
  /-- Components that the host made, by name. -/
  made : Table String Nat := Table.empty
  /-- Constraints by name. -/
  constraints : Table String (Constraint α) := Table.empty

/--
Why a command of a session fails.
-/
inductive SessionFailure where
  /-- An assignment fails. -/
  | eval (e : EvalError)
  /-- A layout refuses. -/
  | layout (e : LayoutError)
  /-- A view cannot be built. -/
  | view (e : ViewError)
  /-- A name stands for nothing. -/
  | unknownName
  /-- Changes or tasks do not come to an end. -/
  | unsettled

/--
What a command of a session comes to.
-/
inductive SessionOutcome (α : Type) where
  /-- Nothing to report. -/
  | done
  /-- A truth value. -/
  | flag (b : Bool)
  /-- A count. -/
  | count (n : Nat)
  /-- A value. -/
  | value (v : Value)
  /-- No value. -/
  | missing
  /-- The objects of a component and of an identifier. -/
  | found (component object : Option ObjectRef)
  /-- A size. -/
  | size (s : Size α)
  /-- How firmly a size hint is held. -/
  | policy (p : SizePolicy α)
  /-- The label of a component, if there is one. -/
  | label (l : Option String)
  /-- Notes and their attributes. -/
  | notes (l : List (ObjectRef × List (String × Value)))

/--
A command of a session at work.
-/
abbrev Serving (α : Type) := ExceptT SessionFailure (StateM (Session α))

namespace Session

variable {α : Type} [Scalar α]

/-- A session on a network. What classes, modules and imports refer to stays throughout. -/
def start (network : Network) (config : LayoutConfig) (toolkit : Toolkit) (modules : Modules)
    (compiled : Option CompiledDocument) : Session α :=
  let values := (toolkit.values.flatMap fun cls => cls.attributes.map Prod.snd)
    ++ modules.values.flatMap Table.values
    ++ (compiled.map fun view => view.imports.values).getD []
  let permanent := (values.flatMap Value.references).map ObjectRef.id
  { scene := { network := { network with owners := permanent }, config }
    toolkit, compiled, permanent }

/-- Let everything go that the host does not hold. -/
def sweep (s : Session α) : Session α :=
  let views := s.views.values
  let roots := views.map View.root ++ (s.current.map Current.root).toList ++ s.made.values
  { s with scene := s.scene.sweep roots (s.permanent ++ views.flatMap View.references) }

/-! ### Names -/

/-- The current view. -/
def view? (s : Session α) : Option View := do s.views.get? (← (← s.current).view)

/-- The component of the current tree with an identifier, the first one in document order. -/
def find? (s : Session α) (id : String) : Option Nat := do
  let root := (← s.current).root
  (s.scene.subtree root).find? fun c =>
    match s.scene.component? c with
    | some comp => comp.identifier == some id
    | none => false

/-- The component that a host names. -/
def widget? (s : Session α) : WidgetRef → Option Nat
  | .identifier id => s.find? id
  | .path indices => do
    let root := (← s.current).root
    indices.foldlM (fun c i => (s.scene.children c)[i]?) root
  | .made name => s.made.get? name

/-- The object of an identifier of the current view, notes included. -/
def identified? (s : Session α) (id : String) : Option ObjectRef := do
  (← (← s.view?).identifiers.get? id).asObject?

/-- The object of a component. -/
def objectOf? (s : Session α) (c : Nat) : Option ObjectRef :=
  (s.scene.component? c).map Component.object

/-- The object that a host names. -/
def target? (s : Session α) : TargetRef → Option ObjectRef
  | .host name => s.scene.network.desk.objects.get? name
  | .note w index => do (← s.scene.component? (← s.widget? w)).notes[index]?
  | .named id => s.identified? id <|> (s.find? id).bind s.objectOf?
  | .widget w => (s.widget? w).bind s.objectOf?

/-- The part of a component's box that is named by the component, a colon and the part. -/
def part? (s : Session α) (text : String) : Option (LinearExpr α) := do
  match text.splitOn ":" with
  | [w, part] => (← s.scene.box? (← s.widget? (.ofText w))).part? part
  | _ => none

/-! ### Steps of commands -/

/-- What a name stands for. -/
def known {β : Type} (f : Session α → Option β) : Serving α β := do
  match f (← get) with
  | some b => pure b
  | none => throw .unknownName

/-- The value that a host means. -/
def resolve (t : Term) : Serving α Value := known fun s => t.resolve s.scene.network.desk none

/-- Run something on the network and turn its signals into tasks. -/
def onNetwork {β : Type} (f : Network → Option (β × Network)) : Serving α β := do
  let s ← get
  match f s.scene.network with
  | none => throw .unsettled
  | some (b, network) =>
    set { s with scene := { s.scene with network }.heedSignals }
    pure b

/-- Assign an attribute. Answers whether there was a change. -/
def assign (o : ObjectRef) (attr : String) (v : Value) : Serving α Bool := do
  match ← onNetwork fun net => net.set? o attr v with
  | .ok b => pure b
  | .error e => throw (.eval e)

/-- Change the scene. -/
def onScene (f : Scene α → Scene α) : Serving α Unit :=
  modify fun s => { s with scene := f s.scene }

/-- Run something on the scene. -/
def stage {β : Type} (f : Staging α β) : Serving α β :=
  modifyGet fun s =>
    let (b, scene) := f.run s.scene
    (b, { s with scene })

/-- Run a pass. -/
def lay {β : Type} (pass : Laying α β) : Serving α β := do
  match ← stage pass.run with
  | .ok b => pure b
  | .error e => throw (.layout e)

/-- Make constraints as they are written. -/
def write (specs : List ConstraintSpec) : Serving α (List (Constraint α)) := do
  let (cs, nextConstraint) ← known fun s =>
    ConstraintSpec.makeAll? s.part? s.constraints.get? s.scene.nextConstraint specs
  onScene fun scene => { scene with nextConstraint }
  pure cs

/-- Build a view under a name and look at it. If that fails the views stay as they were. -/
def instantiate (name : String) (context : Namespace) : Serving α Unit := do
  let compiled ← known Session.compiled
  match ← stage (Scene.instantiate compiled context).run with
  | .error e => throw (.view e)
  | .ok view =>
    modify fun s =>
      { s with
        views := s.views.insert name view
        current := some { root := view.root, view := some name } }

/-- Look at a view. If there is none of the name the host looks at nothing. -/
def use (name : String) : Serving α Bool :=
  modifyGet fun s =>
    match s.views.get? name with
    | some view => (true, { s with current := some { root := view.root, view := some name } })
    | none => (false, { s with current := none })

/-- Give a view up. -/
def drop (name : String) : Serving α Bool :=
  modifyGet fun s =>
    match s.views.get? name with
    | none => (false, s)
    | some view =>
      let current := s.current.filter fun c => c.root != view.root
      (true, { s with views := s.views.erase name, current })

mutual

/-- Make the components of a sketch. -/
def draw : Sketch → Serving α Nat
  | { className, identifier, attrs, children } => do
    let cls ← known fun s => s.toolkit.get? className
    let c ← stage fun scene => scene.newComponent cls identifier
    let o ← known fun s => s.objectOf? c
    attrs.forM fun entry => do
      let _ ← assign o entry.1 (← resolve entry.2)
    drawChildren c children
    pure c

/-- Make the children of a component. -/
def drawChildren (p : Nat) : List Sketch → Serving α Unit
  | [] => pure ()
  | sketch :: rest => do
    let c ← draw sketch
    onScene fun scene => scene.attach p c
    drawChildren p rest

end

/-- Make components and look at them. -/
def present (sketch : Sketch) : Serving α Unit := do
  let root ← draw sketch
  modify fun s => { s with current := some { root, view := none } }

/-- Serve a command to a component. -/
def ask (c : Nat) : WidgetCommand → Serving α (SessionOutcome α)
  | .resize width height => do
    onScene fun scene => scene.resize c ⟨Scalar.ofFloat width, Scalar.ofFloat height⟩
    pure .done
  | .constraints specs => do
    let cs ← write specs
    onScene fun scene => scene.constrain c cs
    pure (.count cs.length)
  | .contains spec => do
    let cs ← write [spec]
    let comp ← known fun s => s.scene.component? c
    pure (.flag (cs.all comp.layout.contains))
  | .adopt child => do
    let k ← known fun s => s.widget? child
    lay (Scene.adopt c k)
    pure .done
  | .attach child => do
    let k ← known fun s => s.widget? child
    onScene fun scene => scene.attach c k
    pure .done
  | .activate => do
    lay (Scene.activate c)
    pure .done
  | .needsLayout => do
    onScene fun scene => scene.invalidateLayout c
    pure .done
  | .needsConstraints => do
    onScene fun scene => scene.invalidateConstraints c
    pure .done
  | .hintUpdated => do
    onScene fun scene => scene.announceHint c
    pure .done
  | .handConstraints => do
    lay (Scene.handConstraints c)
    pure .done
  | .placeChildren => do
    lay (Scene.placeChildren c)
    pure .done
  | .updateSize child => do
    let k ← known fun s => s.widget? child
    lay (Scene.renewHint c k)
    pure .done
  | .minSize => do pure (.size (← lay (Scene.minSize c)))
  | .maxSize => do pure (.size (← lay (Scene.maxSize c)))
  | .sizeHint => do pure (.size (← stage (Scene.sizeHint c)))
  | .nativeHint => do pure (.size ((← get).scene.nativeHint c))
  | .policy => do pure (.policy (← stage (Scene.policyOf c)))
  | .parent => do
    let scene := (← get).scene
    pure (.label ((scene.parent? c).map scene.label))
  | .notes => do
    let comp ← known fun s => s.scene.component? c
    let store := (← get).scene.network.store
    pure (.notes (comp.notes.map fun o => (o, (store.attrs o).entries)))

/-- Serve a command. -/
def serve : SessionCommand → Serving α (SessionOutcome α)
  | .instantiate name context => do
    let context ← known fun s => Term.resolveNames s.scene.network.desk context
    instantiate name context
    pure .done
  | .use name => do pure (.flag (← use name))
  | .drop name => do pure (.flag (← drop name))
  | .run => do
    match (← get).scene.runPending with
    | none => throw .unsettled
    | some (ran, scene) =>
      modify fun s => { s with scene }
      pure (.count ran)
  | .set target attr value => do
    let o ← known fun s => s.target? target
    pure (.flag (← assign o attr (← resolve value)))
  | .emit target attr value => do
    let o ← known fun s => s.target? target
    let v ← resolve value
    onNetwork fun net => (net.emit? o attr v).map fun net => ((), net)
    pure .done
  | .get target attr => do
    let o ← known fun s => s.target? target
    match (← get).scene.network.store.get? o attr with
    | some v => pure (.value v)
    | none => pure .missing
  | .find id => do
    let s ← get
    pure (.found ((s.find? id).bind s.objectOf?) (s.identified? id))
  | .define name spec => do
    (← write [spec]).forM fun c =>
      modify fun s => { s with constraints := s.constraints.insert name c }
    pure .done
  | .create name sketch => do
    let c ← draw sketch
    modify fun s => { s with made := s.made.insert name c }
    pure .done
  | .release name => do
    let held := (← get).made.contains name
    modify fun s => { s with made := s.made.erase name }
    pure (.flag held)
  | .widget w command => do
    let c ← known fun s => s.widget? w
    ask c command

/-- Serve a command, and let everything go that the host holds no longer. -/
def step (s : Session α) (command : SessionCommand) :
    Except SessionFailure (SessionOutcome α) × Session α :=
  let (outcome, s) := (serve command).run.run s
  (outcome, s.sweep)

/-- Begin with a tree that the host makes. -/
def startWith (s : Session α) (sketch : Sketch) : Except SessionFailure Unit × Session α :=
  (present sketch).run.run s

/-- The components of the current tree with their depths, parents first. -/
def tree (s : Session α) : List (Nat × Component α) :=
  match s.current with
  | none => []
  | some current => below s.scene.components.size 0 current.root
where
  /-- A component and all below it, down to a given depth. -/
  below : Nat → Nat → Nat → List (Nat × Component α)
    | 0, _, _ => []
    | n + 1, depth, c =>
      match s.scene.component? c with
      | none => []
      | some comp => (depth, comp) :: comp.children.flatMap (below n (depth + 1))

/-- The attributes of a component that differ from the defaults of its class. -/
def changedAttrs (s : Session α) (comp : Component α) : List (String × Value) :=
  (s.scene.network.store.attrs comp.object).entries.filter fun (attr, v) =>
    match comp.widgetClass.default? attr with
    | some d => !v.equal d
    | none => true

end Session

end ReactiveView
