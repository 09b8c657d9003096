import ReactiveView.Table
import ReactiveView.Value.Basic

/-!
This module contains the scopes in which names are looked up: a stack of tables of names.
-/

namespace ReactiveView

/--
A table of names.
-/
abbrev Namespace := Table String Value

/--
A stack of tables of names, the topmost first.
-/
structure Scope where
  /-- The layers, the topmost first. -/
  layers : List Namespace := []
  deriving Inhabited

namespace Scope

/-- A scope with one more layer on top. -/
def push (scope : Scope) (layer : Namespace) : Scope := { layers := layer :: scope.layers }

/-- The value of a name in the topmost layer that has it. -/
def lookup? (scope : Scope) (name : String) : Option Value :=
  scope.layers.findSome? (·.get? name)

/-- The count of layers. -/
def depth (scope : Scope) : Nat := scope.layers.length

/-- The objects that a scope refers to. -/
def references (scope : Scope) : List ObjectRef :=
  scope.layers.flatMap fun layer => layer.values.flatMap Value.references

end Scope

/-- The names that every expression can use. -/
def builtinNames : Namespace :=
  Table.ofList (Builtin.all.map fun b => (b.name, .function (.builtin b)))

end ReactiveView
