import ReactiveView.Network.Binding
import ReactiveView.Widget.Class

/-!
This module contains blueprints: compiled documents, from which views are built any number of times.
-/

namespace ReactiveView

/--
A widget to be built, with everything in it.
-/
structure Blueprint where
  /-- The class of the widget. -/
  widgetClass : WidgetClass
  /-- The identifier, if the widget has one. -/
  identifier : Option String := none
  /-- The widgets inside. -/
  children : List Blueprint := []
  /-- The notes. -/
  notes : List Blueprint := []
  /-- Defaults, binds and delegates, at most one for an attribute. -/
  assignments : List (String × Binding) := []
  /-- Notify bindings. -/
  notifiers : List (String × Binding) := []

namespace Blueprint

/-- The identifier, or the name of the class. -/
def label (b : Blueprint) : String := b.identifier.getD b.widgetClass.name

/-- Add a binding. A notify binding joins those that are there; any other takes the place of an
earlier one of its attribute and comes last, so that code runs in the order of the document. -/
def addBinding (b : Blueprint) (attr : String) (binding : Binding) : Blueprint :=
  if binding.kind = .notify then { b with notifiers := b.notifiers ++ [(attr, binding)] }
  else
    { b with
      assignments := (b.assignments.filter fun entry => entry.1 != attr) ++ [(attr, binding)] }

/-- All bindings, in the order in which they are tied. -/
def bindings (b : Blueprint) : List (String × Binding) := b.assignments ++ b.notifiers

mutual

/-- How many widgets and notes are built. -/
def count : Blueprint → Nat
  | { children, notes, .. } => 1 + countAll children + countAll notes

/-- How many widgets and notes are built from several blueprints. -/
def countAll : List Blueprint → Nat
  | [] => 0
  | b :: rest => count b + countAll rest

end

end Blueprint

end ReactiveView
