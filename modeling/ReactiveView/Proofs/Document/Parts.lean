import ReactiveView.Document.Compile

/-!
This module contains the parts of a document in its order, and when a document is well-formed. Groups
are looked through: what is in a group stands where the group stands.
-/

namespace ReactiveView

/--
A part of a document and what is around it.
-/
structure Part where
  /-- The class name of the innermost widget or note around the part. -/
  around : Option String
  /-- The part. -/
  node : Node

namespace Node

mutual

/-- A part and all parts inside of it. -/
def parts (around : Option String) : Node → List Part
  | .imports i => [⟨around, .imports i⟩]
  | .element name identifier body =>
    ⟨around, .element name identifier body⟩ :: partsAll (some name) body
  | .metadata name identifier body =>
    ⟨around, .metadata name identifier body⟩ :: partsAll (some name) body
  | .binding kind attr code => [⟨around, .binding kind attr code⟩]
  | .block body => partsAll around body
  | .comment _ => []

/-- The parts of several parts. -/
def partsAll (around : Option String) : List Node → List Part
  | [] => []
  | n :: rest => parts around n ++ partsAll around rest

end

/-- The import that a part is. -/
def import? : Node → Option Import
  | .imports i => some i
  | _ => none

/-- The identifier of a widget or note. -/
def identifier? : Node → Option String
  | .element _ identifier _ => identifier
  | .metadata _ identifier _ => identifier
  | _ => none

/-- Whether a part is an element. -/
def isElement : Node → Bool
  | .element .. => true
  | _ => false

/-- Whether a part is an element or a note. -/
def isBuilt : Node → Bool
  | .element .. => true
  | .metadata .. => true
  | _ => false

end Node

/-- All parts of a document. -/
def Document.parts (d : Document) : List Part := Node.partsAll none d.body

/-! ### What is right with a part -/

/-- The import names a module that is there and only symbols that the module has. -/
def Import.Resolves (modules : Modules) (i : Import) : Prop :=
  ∃ symbols, modules.get? i.module = some symbols ∧
    ∀ n ∈ i.names, ∃ v, symbols.get? n.name = some v

/-- The name is that of a class of a role. -/
def Toolkit.Has (toolkit : Toolkit) (role : Role) (name : String) : Prop :=
  ∃ widgetClass, toolkit.get? name = some widgetClass ∧ widgetClass.role = role

/-- The code is an expression, an attribute reference for a delegate, statements for a notify. -/
def BindingKind.Accepts (code : String) : BindingKind → Prop
  | default => ∃ e, Expr.parse code = .ok e
  | bind => ∃ e, Expr.parse code = .ok e
  | delegate => ∃ object attr, Expr.parse code = .ok (.attr object attr)
  | notify => ∃ statements, Statement.parseAll code = .ok statements

namespace Part

/-- What a part has to satisfy by itself. -/
def Sound (toolkit : Toolkit) (modules : Modules) (p : Part) : Prop :=
  match p.node with
  | .imports i => i.Resolves modules
  | .element name _ _ => toolkit.Has .component name
  | .metadata name _ _ => p.around ≠ none ∧ toolkit.Has .metadata name
  | .binding kind attr code =>
    ∃ name widgetClass, p.around = some name ∧ toolkit.get? name = some widgetClass ∧
      widgetClass.declares attr = true ∧ kind.Accepts code
  | .block _ => True
  | .comment _ => True

/-- Whether a part is an element that is in no other. -/
def isTop (p : Part) : Bool := p.around.isNone && p.node.isElement

/-- The imports among parts. -/
def imported (ps : List Part) : List Import := ps.filterMap fun p => p.node.import?

/-- The identifiers of elements and notes among parts. -/
def identifiers (ps : List Part) : List String := ps.filterMap fun p => p.node.identifier?

theorem imported_append (ps qs : List Part) : imported (ps ++ qs) = imported ps ++ imported qs :=
  List.filterMap_append

theorem identifiers_append (ps qs : List Part) :
    identifiers (ps ++ qs) = identifiers ps ++ identifiers qs :=
  List.filterMap_append

end Part

/-- What is right with a document. -/
structure Document.WellFormed (toolkit : Toolkit) (modules : Modules) (d : Document) : Prop where
  /-- Every part is sound. -/
  sound : ∀ p ∈ d.parts, p.Sound toolkit modules
  /-- No identifier is used twice. -/
  distinct : (Part.identifiers d.parts).Nodup
  /-- Just one element is in no other. -/
  root : d.parts.countP Part.isTop = 1

end ReactiveView
