import ReactiveView.Proofs.Document.Parts

/-!
This module contains the tree that a document stands for, read off its nesting, and what its imports
bring in.
-/

namespace ReactiveView

/-! ### What bodies bind -/

/-- Of several entries for an attribute only the last, where it stands. -/
def latest : List (String × Binding) → List (String × Binding)
  | [] => []
  | entry :: rest => if rest.any (·.1 == entry.1) then latest rest else entry :: latest rest

/-- A widget or note with what stands in its body. -/
def Blueprint.assemble (widgetClass : WidgetClass) (identifier : Option String)
    (children notes : List Blueprint) (bindings : List (String × Binding)) : Blueprint where
  widgetClass := widgetClass
  identifier := identifier
  children := children
  notes := notes
  assignments := latest (bindings.filter (·.2.kind ≠ .notify))
  notifiers := bindings.filter (·.2.kind = .notify)

namespace Node

mutual

/-- The bindings that a part adds to the body it stands in. -/
def bindings : Node → List (String × Binding)
  | .binding kind attr code =>
    match Binding.compile kind code with
    | .ok compiled => [(attr, compiled)]
    | .error _ => []
  | .block body => bindingsAll body
  | _ => []

/-- The bindings of a body. -/
def bindingsAll : List Node → List (String × Binding)
  | [] => []
  | n :: rest => bindings n ++ bindingsAll rest

end

mutual

/-- The widgets that a part adds to the body it stands in. -/
def widgets (toolkit : Toolkit) : Node → List Blueprint
  | .element name identifier body =>
    match toolkit.get? name with
    | some widgetClass =>
      [.assemble widgetClass identifier (widgetsAll toolkit body) (notesAll toolkit body)
        (bindingsAll body)]
    | none => []
  | .block body => widgetsAll toolkit body
  | _ => []

/-- The widgets of a body. -/
def widgetsAll (toolkit : Toolkit) : List Node → List Blueprint
  | [] => []
  | n :: rest => widgets toolkit n ++ widgetsAll toolkit rest

/-- The notes that a part adds to the body it stands in. -/
def notes (toolkit : Toolkit) : Node → List Blueprint
  | .metadata name identifier body =>
    match toolkit.get? name with
    | some widgetClass =>
      [.assemble widgetClass identifier (widgetsAll toolkit body) (notesAll toolkit body)
        (bindingsAll body)]
    | none => []
  | .block body => notesAll toolkit body
  | _ => []

/-- The notes of a body. -/
def notesAll (toolkit : Toolkit) : List Node → List Blueprint
  | [] => []
  | n :: rest => notes toolkit n ++ notesAll toolkit rest

end

end Node

/-! ### What imports bring in -/

namespace Import

/-- The names that an import brings in, with their values; the object of a module is a new one. -/
def symbols (modules : Modules) (store : Store) (i : Import) : List (String × Value) :=
  match modules.get? i.module with
  | none => []
  | some symbols =>
    if i.names.isEmpty then
      [(i.boundAs.getD i.module, .object (store.create i.module .frozen symbols).1)]
    else i.names.filterMap fun n => (symbols.get? n.name).map fun v => (n.boundName, v)

/-- The objects after an import. -/
def storeAfter (modules : Modules) (store : Store) (i : Import) : Store :=
  match modules.get? i.module with
  | none => store
  | some symbols => if i.names.isEmpty then (store.create i.module .frozen symbols).2 else store

/-- The objects after several imports. -/
def storeAfterAll (modules : Modules) (store : Store) (is : List Import) : Store :=
  is.foldl (storeAfter modules) store

/-- The names that several imports bring in, one import after the other. -/
def symbolsAll (modules : Modules) : Store → List Import → List (String × Value)
  | _, [] => []
  | store, i :: rest => i.symbols modules store ++ symbolsAll modules (i.storeAfter modules store) rest

theorem symbolsAll_append (modules : Modules) (store : Store) (is js : List Import) :
    symbolsAll modules store (is ++ js) = symbolsAll modules store is
      ++ symbolsAll modules (storeAfterAll modules store is) js := by
  induction is generalizing store with
  | nil => rfl
  | cons i is ih => rw [List.cons_append, symbolsAll, symbolsAll, ih, List.append_assoc]; rfl

end Import

end ReactiveView
