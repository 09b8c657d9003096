import ReactiveView.Network.Format
import ReactiveView.Widget.Class

/-!
This module contains the JSON form of classes of widgets.
-/

namespace ReactiveView

namespace Role

/-- The role of a name. -/
def ofName? (s : String) : Option Role :=
  if s = "component" then some component else if s = "meta" then some metadata else none

end Role

namespace Extent

/-- Read an extent: a number, or an attribute and its factor. -/
def ofJson? (j : Json) : Option Extent :=
  match j.member? "attr" with
  | some attr => do pure (scaled (← attr.toText?) (← (← j.member? "scale").toDecimal?))
  | none => j.toDecimal?.map constant

end Extent

namespace WidgetClass

/-- Read an attribute and its default. -/
def attributeOfJson? (net : Network) (j : Json) : Option (String × Value) := do
  match ← j.toList? with
  | [attr, v] => pure (← attr.toText?, ← net.readValue? v)
  | _ => none

/-- Read a class. -/
def ofJson? (net : Network) (j : Json) : Option WidgetClass := do
  let name ← j.textAt? "name"
  let role ← Role.ofName? (← j.textAt? "role")
  let cls := if role = .component then component name else metadata name
  let cls := cls.declare (← (← j.listAt? "attributes").mapM (attributeOfJson? net))
  match j.given? "measure" with
  | none => pure cls
  | some m =>
    pure (cls.measured (← (← m.listAt? "depends").mapM Json.toText?)
      (← Extent.ofJson? (← m.member? "width")) (← Extent.ofJson? (← m.member? "height")))

end WidgetClass

namespace Toolkit

/-- The common classes, unless they are to be left out, and further ones. -/
def ofJson? (net : Network) (j : Json) : Option Toolkit := do
  let base := if j.flagAt "bare_toolkit" then Table.empty else common
  (← j.listAt? "classes").foldlM (fun toolkit c => do
    pure (toolkit.register (← WidgetClass.ofJson? net c))) base

end Toolkit

end ReactiveView
