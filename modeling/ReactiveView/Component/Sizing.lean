import ReactiveView.Component.Basic

/-!
This module contains the sizes of components: the least and greatest size that a layout allows, the
size hint that a component has for its parent, and how firmly it holds it.
-/

namespace ReactiveView

namespace Scene

variable {α : Type} [Scalar α]

/-- The strength of probes. -/
def probeStrength (s : Scene α) : Strength α := .ofFloat s.config.probe.effective

/-- The strength of resizes. -/
def resizeStrength (s : Scene α) : Strength α := .ofFloat s.config.resize.effective

/-- The box of a component. -/
def box? (s : Scene α) (c : Nat) : Option Box := (s.component? c).map Component.box

/-- The least size that a component's layout allows. -/
def minSize (c : Nat) : Laying α (Size α) := do
  let s ← get
  match s.box? c with
  | none => throw (.notInitialized "get min size")
  | some box => tryLayout c fun l => l.minSize box.width box.height s.probeStrength

/-- The greatest size that a component's layout allows. -/
def maxSize (c : Nat) : Laying α (Size α) := do
  let s ← get
  match s.box? c with
  | none => throw (.notInitialized "get max size")
  | some box => tryLayout c fun l => l.maxSize box.width box.height s.probeStrength

/-- Tell the native widget its least and greatest size. -/
def tellBounds (c : Nat) : Staging α Unit := do
  let probes : Laying α (Size α × Size α) := do
    let least ← minSize c
    let greatest ← maxSize c
    pure (least, greatest)
  match ← probes.run with
  | .ok (least, greatest) =>
    modify fun s => s.update c fun comp =>
      { comp with native := { comp.native with minSize := some least, maxSize := some greatest } }
  | .error e =>
    modify fun s => s.note .warn "size probe failed"
      [("component", s.label c), ("error", e.message)]

/-- Whether the layout of a component is initialized. -/
def hasLayout (s : Scene α) (c : Nat) : Bool :=
  match s.component? c with
  | some comp => comp.layout.isInitialized
  | none => false

/-- The size hint that a component's class finds in its attributes. -/
def nativeHint (s : Scene α) (c : Nat) : Size α :=
  match s.component? c with
  | some comp =>
    let hint := comp.widgetClass.hint (s.attrs c)
    ⟨Scalar.ofFloat hint.width, Scalar.ofFloat hint.height⟩
  | none => ⟨Scalar.ofInt (-1), Scalar.ofInt (-1)⟩

/-- The size hint of a component: the least size of its layout, else what its class says. -/
def sizeHint (c : Nat) : Staging α (Size α) := do
  let s ← get
  if s.hasLayout c then
    match ← (minSize c).run with
    | .ok size => pure size
    | .error _ => pure ((← get).nativeHint c)
  else pure (s.nativeHint c)

/-- The strength that an attribute names; a name of no strength is logged and counts as strong. -/
def namedStrength (c : Nat) (attr : String) : Staging α (Option (Strength α)) := do
  let s ← get
  match (s.attrs c).get? attr with
  | some (.str name) =>
    match (Strength.ofName name : Strength.Named α) with
    | .strength v => pure (some v)
    | .ignore => pure none
    | .unknown =>
      set (s.note .warn "unknown strength name"
        [("component", s.label c), ("attribute", attr), ("value", name)])
      pure (some .strong)
  | _ => pure (some .strong)

/-- How firmly a component holds its size hint. -/
def policyOf (c : Nat) : Staging α (SizePolicy α) := do
  let hugWidth ← namedStrength c "hug_width"
  let hugHeight ← namedStrength c "hug_height"
  let compressWidth ← namedStrength c "compress_width"
  let compressHeight ← namedStrength c "compress_height"
  pure { hugWidth, hugHeight, compressWidth, compressHeight }

/-- Make constraints, giving them new identities. -/
def fresh (s : Scene α) (make : Nat → List (Constraint α)) : List (Constraint α) × Scene α :=
  let constraints := make s.nextConstraint
  (constraints, { s with nextConstraint := s.nextConstraint + constraints.length })

/-- The constraints of a component's present size hint. -/
def hintConstraints (c : Nat) : Staging α (List (Constraint α)) := do
  let hint ← sizeHint c
  let policy ← policyOf c
  let s ← get
  match s.box? c with
  | none => pure []
  | some box => StateT.modifyGet fun s => s.fresh (box.hintConstraints hint policy)

/-- What a component contributes to the solver of a parent of the given box. It is remembered, so
that it can be replaced later. -/
def contributed (c : Nat) (parent : Box) : Staging α (List (Constraint α)) := do
  match (← get).box? c with
  | none => pure []
  | some box =>
    let containment ← StateT.modifyGet fun s => s.fresh (parent.insideConstraints box)
    let hints ← hintConstraints c
    modify fun s => s.update c fun comp => { comp with containment, hints }
    pure (containment ++ hints)

end Scene

end ReactiveView
