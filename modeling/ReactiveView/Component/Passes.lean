import ReactiveView.Component.Sizing

/-!
This module contains the passes over components: setting layouts up, handing constraints to solvers,
placing children, and keeping size hints in the parents' solvers. A pass stops at the first error.
-/

namespace ReactiveView

namespace Scene

variable {α : Type} [Scalar α]

/-- What all given components contribute to the solver of a parent. -/
def contributedAll (parent : Box) : List Nat → Staging α (List (Constraint α))
  | [] => pure []
  | c :: rest => do
    let first ← contributed c parent
    let more ← contributedAll parent rest
    pure (first ++ more)

/-- Build the solver of a component from its own constraints, what its children contribute, and the
constraints that were given to it. -/
def setUpLayout (c : Nat) : Laying α Unit := do
  match (← get).component? c with
  | none => pure ()
  | some comp =>
    let own ← .sure (StateT.modifyGet fun s => s.fresh comp.box.ownConstraints)
    let children ← .sure (contributedAll comp.box comp.children)
    let constraints := own ++ children ++ comp.userConstraints
    tryLogged c fun l => l.setUp constraints
    modify fun s =>
      (s.update c fun comp' => { comp' with appliedConstraints := comp.userConstraints }).note
        .debug "layout initialized"
        [("component", comp.label), ("constraints", toString constraints.length)]
    .sure (tellBounds c)

/-- A component and all below it that are not live yet, children first. Below a live component
nothing is looked at. -/
def dormant (s : Scene α) : Nat → Nat → List Nat
  | 0, _ => []
  | n + 1, c =>
    match s.component? c with
    | none => []
    | some comp => if comp.live then [] else comp.children.flatMap (s.dormant n) ++ [c]

/-- Make one component live. -/
def activateOne (c : Nat) : Laying α Unit := do
  match (← get).component? c with
  | none => pure ()
  | some comp =>
    if comp.live then pure ()
    else
      if comp.hasChildren then setUpLayout c
      modify fun s => s.update c fun comp =>
        { comp with needsConstraints := false, needsLayout := false, live := true }

/-- Make a component and all below it live, children first, so that a container's least size is
known when its parent needs it. -/
def activate (c : Nat) : Laying α Unit := do
  let s ← get
  (s.dormant s.components.size c).forM activateOne

/-- Detach a child. -/
def detach (s : Scene α) (p c : Nat) : Scene α :=
  (s.update p fun comp => { comp with children := comp.children.filter fun k => k != c }).update c
    fun comp => { comp with parent := none }

/-- Bring a new child of a live parent into the parent's solver. -/
def takeIn (p c : Nat) : Laying α Unit := do
  activate c
  match (← get).component? p with
  | none => pure ()
  | some parent =>
    if parent.layout.isInitialized then
      let added ← .sure (contributed c parent.box)
      tryLogged p fun l => l.replace [] added
    else setUpLayout p

/-- Attach a child. A live parent takes it into its solver at once; if that fails the child is
detached again. -/
def adopt (p c : Nat) : Laying α Unit := do
  let live := match (← get).component? p with
    | some parent => parent.live
    | none => false
  modify fun s => s.attach p c
  if live then
    match ← Laying.sure (takeIn p c).run with
    | .error e =>
      modify fun s => s.detach p c
      throw e
    | .ok () =>
      .sure (tellBounds p)
      modify fun s => (s.invalidateLayout p).announceHint p

/-- Hand the constraints of one component to its solver. They count as refused until it has them. -/
def handConstraintsOne (c : Nat) : Laying α Unit := do
  modify fun s => s.update c fun comp =>
    { comp with
      needsConstraints := false
      constraintPasses := comp.constraintPasses + 1
      refused := comp.layout.isInitialized }
  match (← get).component? c with
  | none => pure ()
  | some comp =>
    if comp.layout.isInitialized then
      tryLogged c fun l => l.replace comp.appliedConstraints comp.userConstraints
      modify fun s => s.update c fun comp' =>
        { comp' with appliedConstraints := comp.userConstraints, refused := false }
      .sure (tellBounds c)
      modify fun s => s.announceHint c

/-- Hand the constraints of a component and of all below it to the solvers, parents first. -/
def handConstraints (c : Nat) : Laying α Unit := do
  ((← get).subtree c).forM handConstraintsOne

/-- Give a component its place within the parent. A container of another size than before has its
own children placed later. -/
def place (s : Scene α) (c : Nat) (geometry : Geometry α) : Scene α :=
  match s.component? c with
  | none => s
  | some comp =>
    let resized := match comp.geometry with
      | none => true
      | some previous => !previous.size.same geometry.size
    let s := s.update c fun comp =>
      { comp with
        geometry := some geometry
        size := if resized then geometry.size else comp.size
        native :=
          { comp.native with geometry := some geometry, updates := comp.native.updates + 1 } }
    if resized && comp.hasChildren then s.invalidateLayout c else s

/-- The children of a component with their boxes. -/
def childBoxes (s : Scene α) (c : Nat) : List (Nat × Box) :=
  (s.children c).filterMap fun k => (s.box? k).map fun box => (k, box)

/-- The text of a number in log records. -/
def numberText (a : α) : String := NumberStyle.value.text (Scalar.toFloat a)

/-- Solve for the size of a component and give every child its place. -/
def placeChildren (c : Nat) : Laying α Unit := do
  modify fun s => s.update c fun comp => { comp with needsLayout := false }
  let s ← get
  match s.component? c with
  | none => pure ()
  | some comp =>
    if comp.layout.isInitialized then
      let boxes := s.childBoxes c
      let resolved ← tryLayout c fun l =>
        l.resize comp.box.width comp.box.height comp.size s.resizeStrength fun sol l =>
          (boxes.map fun (k, box) => (k, box.resolve sol), l)
      match resolved with
      | none => pure ()
      | some placed =>
        modify fun s =>
          let s := (s.update c fun comp => { comp with layoutPasses := comp.layoutPasses + 1 }).note
            .debug "layout pass"
            [("component", comp.label), ("width", numberText comp.size.width),
              ("height", numberText comp.size.height),
              ("children", toString comp.children.length)]
          placed.foldl (fun s (k, geometry) => s.place k geometry) s

/-- Replace the constraints of a child's size hint in its parent's solver. -/
def renewHint (p c : Nat) : Laying α Unit := do
  let s ← get
  match s.component? c with
  | none => pure ()
  | some child =>
    if s.hasLayout p then
      modify fun s => s.update c fun comp => { comp with hints := [] }
      let hints ← .sure (hintConstraints c)
      match ← Laying.sure (tryLogged p fun l => l.replace child.hints hints).run with
      | .error e =>
        modify fun s => s.update c fun comp => { comp with hints := child.hints }
        throw e
      | .ok () =>
        modify fun s => s.update c fun comp => { comp with hints }
        .sure (tellBounds p)
        modify fun s => (s.invalidateLayout p).announceHint p

end Scene

end ReactiveView
