import ReactiveView.Network.Binding

/-!
This module contains documents: what a view is made of, as it is written.
-/

namespace ReactiveView

/--
A symbol that an import brings in.
-/
structure ImportName where
  /-- The name in the module. -/
  name : String
  /-- The name here, if it differs. -/
  boundAs : Option String := none
  deriving Repr, DecidableEq

/-- The name here. -/
def ImportName.boundName (n : ImportName) : String := n.boundAs.getD n.name

/--
An import of a module, or of some of its symbols.
-/
structure Import where
  /-- The module. -/
  module : String
  /-- The name of the module here, if it differs. -/
  boundAs : Option String := none
  /-- The symbols; the module itself if there are none. -/
  names : List ImportName := []
  deriving Repr, DecidableEq

/--
A part of a document.
-/
inductive Node where
  /-- An import. -/
  | imports (i : Import)
  /-- A widget. -/
  | element (name : String) (identifier : Option String) (body : List Node)
  /-- An object that says something about the widget it stands in. -/
  | metadata (name : String) (identifier : Option String) (body : List Node)
  /-- Code that is tied to an attribute. -/
  | binding (kind : BindingKind) (attr code : String)
  /-- A group; its parts count as if they stood in its place. -/
  | block (body : List Node)
  /-- A comment. -/
  | comment (text : String)
  deriving Inhabited

/--
A document.
-/
structure Document where
  /-- The parts at top level. -/
  body : List Node := []

/--
How the parts of a document are nested.
-/
inductive Nesting where
  /-- A part with the nesting of its own parts. -/
  | node (children : List Nesting)

namespace Node

mutual

/-- The nesting of a part. -/
def nesting : Node → Nesting
  | element _ _ body => .node (nestings body)
  | metadata _ _ body => .node (nestings body)
  | block body => .node (nestings body)
  | imports _ => .node []
  | binding .. => .node []
  | comment _ => .node []

/-- The nesting of parts. -/
def nestings : List Node → List Nesting
  | [] => []
  | n :: rest => nesting n :: nestings rest

end

/-- The names that an import of symbols brings in. -/
def boundNames : Node → List String
  | imports i => i.names.map ImportName.boundName
  | _ => []

end Node

/-- The names that the imports at top level bring in. -/
def Document.boundNames (d : Document) : List String := d.body.flatMap Node.boundNames

end ReactiveView
