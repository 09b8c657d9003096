import ReactiveView.Linear.Constraint
import ReactiveView.Simplex.Tableau

/-!
This module contains sizes, geometries and boxes. A box has four variables; its other edges and its
centres are expressions over them.
-/

namespace ReactiveView

/--
A width and a height.
-/
structure Size (α : Type) where
  /-- The width. -/
  width : α
  /-- The height. -/
  height : α
  deriving DecidableEq

/-- Whether two sizes agree in both dimensions. -/
def Size.same {α : Type} [Scalar α] (a b : Size α) : Bool :=
  Scalar.same a.width b.width && Scalar.same a.height b.height

/-- Nothing in either dimension. -/
def Size.zero {α : Type} [Scalar α] : Size α := ⟨Scalar.zero, Scalar.zero⟩

/--
A place and a size, relative to the parent's origin.
-/
structure Geometry (α : Type) where
  /-- The left edge. -/
  x : α
  /-- The top edge. -/
  y : α
  /-- The width. -/
  width : α
  /-- The height. -/
  height : α
  deriving DecidableEq

namespace Geometry

variable {α : Type}

/-- The size. -/
def size (g : Geometry α) : Size α := ⟨g.width, g.height⟩

/-- The right edge. -/
def right [Scalar α] (g : Geometry α) : α := g.x + g.width

/-- The bottom edge. -/
def bottom [Scalar α] (g : Geometry α) : α := g.y + g.height

end Geometry

/--
The variables of a widget's place and size.
-/
structure Box where
  /-- The left edge. -/
  left : Variable
  /-- The top edge. -/
  top : Variable
  /-- The width. -/
  width : Variable
  /-- The height. -/
  height : Variable
  deriving DecidableEq

namespace Box

/-- The box of four consecutive variables. -/
def starting (first : Nat) : Box := ⟨⟨first⟩, ⟨first + 1⟩, ⟨first + 2⟩, ⟨first + 3⟩⟩

variable {α : Type} [Scalar α]

/-- The right edge. -/
def right (b : Box) : LinearExpr α := (LinearExpr.ofVariable b.left).plus (.ofVariable b.width)

/-- The bottom edge. -/
def bottom (b : Box) : LinearExpr α := (LinearExpr.ofVariable b.top).plus (.ofVariable b.height)

/-- The vertical centre. -/
def vCenter (b : Box) : LinearExpr α :=
  (LinearExpr.ofVariable b.top).plus ((LinearExpr.ofVariable b.height).dividedBy (Scalar.ofInt 2))

/-- The horizontal centre. -/
def hCenter (b : Box) : LinearExpr α :=
  (LinearExpr.ofVariable b.left).plus ((LinearExpr.ofVariable b.width).dividedBy (Scalar.ofInt 2))

/-- The part of a box with a given name. -/
def part? (b : Box) (name : String) : Option (LinearExpr α) :=
  if name = "left" then some (.ofVariable b.left)
  else if name = "top" then some (.ofVariable b.top)
  else if name = "width" then some (.ofVariable b.width)
  else if name = "height" then some (.ofVariable b.height)
  else if name = "right" then some b.right
  else if name = "bottom" then some b.bottom
  else if name = "v_center" then some b.vCenter
  else if name = "h_center" then some b.hCenter
  else none

/-- Read the place and size of a box out of a solution. -/
def resolve (b : Box) (sol : Solution α) : Geometry α :=
  ⟨sol.value b.left, sol.value b.top, sol.value b.width, sol.value b.height⟩

end Box

end ReactiveView
