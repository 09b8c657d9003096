import ReactiveView.Layout.Box

/-!
This module contains the constraints that a container makes for itself and for its children.
-/

namespace ReactiveView

/--
How firmly a widget holds its size hint. Hugging keeps it from growing beyond the hint, compression
resistance from shrinking below it; `none` ignores the hint in that direction.
-/
structure SizePolicy (α : Type) where
  /-- Against a greater width. -/
  hugWidth : Option (Strength α)
  /-- Against a greater height. -/
  hugHeight : Option (Strength α)
  /-- Against a lesser width. -/
  compressWidth : Option (Strength α)
  /-- Against a lesser height. -/
  compressHeight : Option (Strength α)

namespace Box

variable {α : Type} [Scalar α]

/-- Give identities to constraints, counting from `first`. -/
def number (first : Nat) (makers : List (Nat → Constraint α)) : List (Constraint α) :=
  (makers.zip (List.range makers.length)).map fun (make, i) => make (first + i)

/-- A container's own size is not negative. -/
def ownConstraints (b : Box) (first : Nat) : List (Constraint α) :=
  number first
    [fun id => .between id (.ofVariable b.width) .atLeast (.ofConstant Scalar.zero),
      fun id => .between id (.ofVariable b.height) .atLeast (.ofConstant Scalar.zero)]

/-- A child lies within its parent, in the parent's coordinates. -/
def insideConstraints (parent child : Box) (first : Nat) : List (Constraint α) :=
  number first
    [fun id => .between id (.ofVariable child.left) .atLeast (.ofConstant Scalar.zero),
      fun id => .between id (.ofVariable child.top) .atLeast (.ofConstant Scalar.zero),
      fun id => .between id child.right .atMost (.ofVariable parent.width),
      fun id => .between id child.bottom .atMost (.ofVariable parent.height),
      fun id => .between id (.ofVariable child.width) .atLeast (.ofConstant Scalar.zero),
      fun id => .between id (.ofVariable child.height) .atLeast (.ofConstant Scalar.zero)]

/-- The makers of the constraints of one dimension; a negative hint is none. -/
def hintMakers (x : Variable) (hint : α) (hug compress : Option (Strength α)) :
    List (Nat → Constraint α) :=
  if Scalar.isNegative hint then []
  else
    let make (relation : Relation) (strength : Strength α) (id : Nat) : Constraint α :=
      .make id ((LinearExpr.ofVariable x).minus (.ofConstant hint)) relation strength
    (hug.map (make .equal)).toList ++ (compress.map (make .atLeast)).toList

/-- A child has the size of its hint, as firmly as its policy says. -/
def hintConstraints (b : Box) (hint : Size α) (policy : SizePolicy α) (first : Nat) :
    List (Constraint α) :=
  number first
    (hintMakers b.width hint.width policy.hugWidth policy.compressWidth
      ++ hintMakers b.height hint.height policy.hugHeight policy.compressHeight)

end Box

end ReactiveView
