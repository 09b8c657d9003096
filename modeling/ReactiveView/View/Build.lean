import ReactiveView.Component.Passes
import ReactiveView.Document.Compile

/-!
This module contains the building of views from blueprints. All widgets and notes are made first,
then their code is tied to them, so that code can refer to any widget of the document.

Names resolve, from the bottom up, through the imports, the context, the builtins, the identifiers
of the document, and `self`.
-/

namespace ReactiveView

/--
Why a view cannot be built.
-/
inductive ViewError where
  /-- A binding cannot be tied to its attribute. -/
  | binding (kind : BindingKind) (widget attr : String) (cause : EvalError)
  /-- A layout cannot be set up. -/
  | layout (e : LayoutError)
  /-- Observers set each other off more deeply than the network follows. -/
  | unsettled

/-- The message of a view error. -/
def ViewError.message : ViewError → String
  | binding kind widget attr cause =>
    s!"{kind.name} binding '{widget}.{attr}' failed: {cause.message}"
  | layout e => e.message
  | unsettled => "changes do not settle"

/--
A view.
-/
structure View where
  /-- The root. -/
  root : Nat
  /-- The objects by identifier. -/
  identifiers : Namespace

/-- The objects that the identifiers of a view keep alive. -/
def View.references (v : View) : List Nat :=
  (v.identifiers.values.flatMap Value.references).map ObjectRef.id

namespace Scene

variable {α : Type} [Scalar α]

/-- Add an object under its identifier, if it has one. -/
def identify (identifiers : Namespace) (identifier : Option String) (o : ObjectRef) : Namespace :=
  match identifier with
  | some id => identifiers.insert id (.object o)
  | none => identifiers

/-- Make the notes on a component. -/
def buildNotes (c : Nat) : List Blueprint → Namespace → Scene α → Namespace × Scene α
  | [], identifiers, s => (identifiers, s)
  | note :: rest, identifiers, s =>
    let (o, s) := s.newNote c note.widgetClass
    buildNotes c rest (identify identifiers note.identifier o) s

mutual

/-- Make a component with everything in it. -/
def build : Blueprint → Namespace → Scene α → Nat × Namespace × Scene α
  | { widgetClass, identifier, children, notes, .. }, identifiers, s =>
    let (c, s) := s.newComponent widgetClass identifier
    let identifiers := match s.component? c with
      | some comp => identify identifiers identifier comp.object
      | none => identifiers
    let (identifiers, s) := buildNotes c notes identifiers s
    let (identifiers, s) := buildChildren c children identifiers s
    (c, identifiers, s)

/-- Make the children of a component. -/
def buildChildren (p : Nat) : List Blueprint → Namespace → Scene α → Namespace × Scene α
  | [], identifiers, s => (identifiers, s)
  | b :: rest, identifiers, s =>
    let (c, identifiers, s) := build b identifiers s
    buildChildren p rest identifiers (s.attach p c)

end

/--
An operation on a scene that the code of a view can make fail.
-/
abbrev Tying (α : Type) := ExceptT ViewError (StateM (Scene α))

/-- Tie code to an attribute. The component keeps what stays connected. -/
def tie (owner : Nat) (label : String) (target : ObjectRef) (scope : Scope) (attr : String)
    (binding : Binding) : Tying α Unit := do
  let s ← get
  match s.network.connect? binding target attr scope with
  | none => throw .unsettled
  | some (result, network) =>
    set { s with network }.heedSignals
    match result with
    | .error cause => throw (.binding binding.kind label attr cause)
    | .ok none => pure ()
    | .ok (some link) =>
      modify fun s => s.update owner fun comp => { comp with links := comp.links ++ [link] }

/-- Tie the code of a blueprint to an object: first what assigns, then what is notified, so that
first assignments notify nobody. -/
def tieTo (owner : Nat) (b : Blueprint) (target : ObjectRef) (scope : Scope) : Tying α Unit :=
  let scope := scope.push (Table.ofList [("self", .object target)])
  b.bindings.forM fun entry => tie owner b.label target scope entry.1 entry.2

/-- Tie the code of the notes on a component. -/
def tieNotes (owner : Nat) (scope : Scope) : List (Blueprint × ObjectRef) → Tying α Unit
  | [] => pure ()
  | (note, o) :: rest => do
    tieTo owner note o scope
    tieNotes owner scope rest

mutual

/-- Tie the code of a blueprint to the component that was made of it. -/
def tieAll (scope : Scope) : Blueprint → Nat → Tying α Unit
  | { widgetClass, identifier, children, notes, assignments, notifiers }, c => do
    match (← get).component? c with
    | none => pure ()
    | some comp =>
      let b := { widgetClass, identifier, children, notes, assignments, notifiers : Blueprint }
      tieTo c b comp.object scope
      tieNotes c scope (notes.zip comp.notes)
      tieChildren scope children comp.children

/-- Tie the code of blueprints to the components that were made of them. -/
def tieChildren (scope : Scope) : List Blueprint → List Nat → Tying α Unit
  | b :: rest, c :: more => do
    tieAll scope b c
    tieChildren scope rest more
  | _, _ => pure ()

end

/-- Build a view. What is left of a view that fails is for the next sweep. -/
def instantiate (compiled : CompiledDocument) (context : Namespace) : Tying α View := do
  let (root, identifiers) ← modifyGet fun (s : Scene α) =>
    let (root, identifiers, s) := build compiled.root Table.empty s
    ((root, identifiers), s)
  let scope := ((({} : Scope).push compiled.imports).push context).push builtinNames
  tieAll (scope.push identifiers) compiled.root root
  (activate root).adapt fun e => .layout e
  modify fun (s : Scene α) => s.note .debug "view instantiated"
    [("root", s.label root), ("identifiers", toString identifiers.size)]
  pure { root, identifiers }

end Scene

end ReactiveView
