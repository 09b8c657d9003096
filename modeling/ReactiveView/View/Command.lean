import ReactiveView.Linear.Formula
import ReactiveView.Network.Command

/-!
This module contains what a host can ask of a session, and how it names components and objects.
-/

namespace ReactiveView

/--
How a host names a component.
-/
inductive WidgetRef where
  /-- By its identifier, in the current tree. -/
  | identifier (id : String)
  /-- By the way down from the root of the current tree. -/
  | path (indices : List Nat)
  /-- By the name under which the host made it. -/
  | made (name : String)

/--
How a host names an object.
-/
inductive TargetRef where
  /-- An object of the host. -/
  | host (name : String)
  /-- A note on a component. -/
  | note (widget : WidgetRef) (index : Nat)
  /-- The object of an identifier of the current view, else of a component. -/
  | named (id : String)
  /-- The object of a component. -/
  | widget (w : WidgetRef)

namespace WidgetRef

/-- Read the way down to a component: indices of children, with points between them. -/
def pathOfText? (s : String) : Option (List Nat) :=
  if s.isEmpty then some [] else (s.splitOn ".").mapM String.toNat?

/-- Read the name of a component: an `@` and the way down from the root, a plus sign and the name of
one that the host made, or an identifier. -/
def ofText (s : String) : WidgetRef :=
  match s.toList with
  | '@' :: rest =>
    match pathOfText? (String.ofList rest) with
    | some indices => path indices
    | none => identifier s
  | '+' :: rest => made (String.ofList rest)
  | _ => identifier s

end WidgetRef

/-- Read the name of an object: a dollar sign and the name of an object of the host, a component
with a hash sign and the index of a note on it, or the name of a component. -/
def TargetRef.ofText (s : String) : TargetRef :=
  match s.toList with
  | '$' :: rest => host (String.ofList rest)
  | _ =>
    match s.splitOn "#" with
    | [w, i] =>
      match i.toNat? with
      | some i => note (.ofText w) i
      | none => named s
    | _ =>
      match WidgetRef.ofText s with
      | .identifier id => named id
      | w => widget w

/--
A tree of components that a host makes by hand.
-/
structure Sketch where
  /-- The name of the class. -/
  className : String
  /-- The identifier. -/
  identifier : Option String
  /-- What is assigned to the attributes. -/
  attrs : List (String × Term)
  /-- The children. -/
  children : List Sketch

/--
What a host can ask of one component.
-/
inductive WidgetCommand where
  /-- Give it a size. -/
  | resize (width height : Float)
  /-- Give it other constraints. -/
  | constraints (specs : List ConstraintSpec)
  /-- Whether a constraint is in its solver. -/
  | contains (spec : ConstraintSpec)
  /-- Attach a child. -/
  | adopt (child : WidgetRef)
  /-- Attach a child without any regard to layouts. -/
  | attach (child : WidgetRef)
  /-- Make it live. -/
  | activate
  /-- Its layout is due. -/
  | needsLayout
  /-- Its constraints are due. -/
  | needsConstraints
  /-- Its size hint may have changed. -/
  | hintUpdated
  /-- Hand constraints to solvers at once. -/
  | handConstraints
  /-- Place the children at once. -/
  | placeChildren
  /-- Bring the size hint of a child up to date at once. -/
  | updateSize (child : WidgetRef)
  /-- The least size that its layout allows. -/
  | minSize
  /-- The greatest size that its layout allows. -/
  | maxSize
  /-- Its size hint. -/
  | sizeHint
  /-- The size hint that its class finds. -/
  | nativeHint
  /-- How firmly it holds its size hint. -/
  | policy
  /-- Its parent. -/
  | parent
  /-- The notes on it. -/
  | notes

/--
What a host can ask of a session.
-/
inductive SessionCommand where
  /-- Build a view under a name and look at it. -/
  | instantiate (name : String) (context : List (String × Term))
  /-- Look at a view. -/
  | use (name : String)
  /-- Give a view up. -/
  | drop (name : String)
  /-- Run all tasks. -/
  | run
  /-- Assign an attribute. -/
  | set (target : TargetRef) (attr : String) (value : Term)
  /-- Tell the observers of an attribute of a change that does not take place. -/
  | emit (target : TargetRef) (attr : String) (value : Term)
  /-- The value of an attribute. -/
  | get (target : TargetRef) (attr : String)
  /-- What an identifier stands for. -/
  | find (id : String)
  /-- Give a constraint a name. -/
  | define (name : String) (spec : ConstraintSpec)
  /-- Make components and hold them under a name. -/
  | create (name : String) (sketch : Sketch)
  /-- Give up components that the host made. -/
  | release (name : String)
  /-- Ask something of a component. -/
  | widget (w : WidgetRef) (command : WidgetCommand)

end ReactiveView
