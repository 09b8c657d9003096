import ReactiveView.Network.Format
import ReactiveView.View.Command

/-!
This module contains the JSON form of the commands of a session: arrays of a name and operands.
-/

namespace ReactiveView

namespace Sketch

mutual

/-- Read a tree of components. -/
def ofJson? : Json → Option Sketch
  | .object members => do
    let j := Json.object members
    let identifier ← match j.given? "id" with
      | some id => do pure (some (← id.toText?))
      | none => pure none
    let attrs ← (← j.entriesAt? "attrs").mapM fun (attr, v) => do pure (attr, ← Term.ofJson? v)
    pure {
      className := ← j.textAt? "class"
      identifier
      attrs
      children := ← childrenOf? members }
  | _ => none

/-- Read the children among the members. -/
def childrenOf? : List (Option String × Json) → Option (List Sketch)
  | [] => some []
  | (some name, .array items) :: rest =>
    if name = "children" then listOfJson? items else childrenOf? rest
  | (_, _) :: rest => childrenOf? rest

/-- Read trees of components. -/
def listOfJson? : List Json → Option (List Sketch)
  | [] => some []
  | j :: rest => do
    let first ← ofJson? j
    let more ← listOfJson? rest
    pure (first :: more)

end

end Sketch

namespace WidgetCommand

/-- Read a command to a component without operands. -/
def ofName? (op : String) : Option WidgetCommand :=
  [("initialize", activate), ("needs_layout", needsLayout), ("needs_constraints", needsConstraints),
    ("hint_updated", hintUpdated), ("update_constraints", handConstraints),
    ("do_layout", placeChildren), ("min_size", minSize), ("max_size", maxSize),
    ("size_hint", sizeHint), ("adapter_hint", nativeHint), ("policy", policy), ("parent", parent),
    ("metas", notes)].lookup op

/-- Read a command to a component with one operand. -/
def ofOperand? (op : String) (j : Json) : Option WidgetCommand :=
  if op = "resize" then do
    match ← (← j.toList?).mapM Json.toDecimal? with
    | [width, height] => pure (resize width height)
    | _ => none
  else if op = "constraints" then do
    pure (constraints (← (← j.toList?).mapM ConstraintSpec.ofJson?))
  else if op = "contains" then do pure (contains (← ConstraintSpec.ofJson? j))
  else do
    let child := WidgetRef.ofText (← j.toText?)
    if op = "add_child" then pure (adopt child)
    else if op = "link_child" then pure (attach child)
    else if op = "update_size" then pure (updateSize child)
    else none

end WidgetCommand

namespace SessionCommand

/-- Read a command. -/
def ofJson? : Json → Option SessionCommand
  | .array [.text op] => if op = "run" then some run else none
  | .array [.text op, .text a] =>
    if op = "use" then some (use a)
    else if op = "drop" then some (drop a)
    else if op = "find" then some (find a)
    else if op = "release" then some (release a)
    else (WidgetCommand.ofName? op).map (widget (.ofText a))
  | .array [.text op, .text a, j] =>
    if op = "instantiate" then (Term.namesOfJson? j).map (instantiate a)
    else if op = "define" then (ConstraintSpec.ofJson? j).map (define a)
    else if op = "create" then (Sketch.ofJson? j).map (create a)
    else if op = "get" then j.toText?.map (get (.ofText a))
    else (WidgetCommand.ofOperand? op j).map (widget (.ofText a))
  | .array [.text op, .text a, .text attr, j] =>
    if op = "set" then (Term.ofJson? j).map (set (.ofText a) attr)
    else if op = "emit" then (Term.ofJson? j).map (emit (.ofText a) attr)
    else none
  | _ => none

end SessionCommand

end ReactiveView
