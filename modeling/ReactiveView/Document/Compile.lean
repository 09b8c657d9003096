import ReactiveView.Document.Basic
import ReactiveView.Document.Blueprint
import ReactiveView.Log
import ReactiveView.Scope

/-!
This module contains the compilation of documents. Everything that is wrong with a document is found
here, in the order of the document; only evaluation is left for later.
-/

namespace ReactiveView

/--
Why a document is refused.
-/
inductive CompileError where
  | unknownWidget (name : String)
  | roleMismatch (name : String) (expected : Role)
  | emptyDocument
  | multipleRoots (name : String)
  | noteWithoutParent (name : String)
  | bindingOutsideElement (attr : String)
  | duplicateIdentifier (id : String)
  | unknownAttribute (widget attr : String)
  | invalidBinding (kind : BindingKind) (widget attr : String) (cause : SyntaxError)
  | unknownModule (module : String)
  | unknownSymbol (module name : String)

/-- The message of a compile error. -/
def CompileError.message : CompileError → String
  | unknownWidget name => s!"unknown widget '{name}'"
  | roleMismatch name expected => s!"'{name}' cannot be used as {expected.describe}"
  | emptyDocument => "document defines no root element"
  | multipleRoots name => s!"document defines more than one root element (second is '{name}')"
  | noteWithoutParent name => s!"meta '{name}' has no parent element"
  | bindingOutsideElement attr => s!"binding for '{attr}' appears outside of any element"
  | duplicateIdentifier id => s!"identifier '{id}' is used more than once"
  | unknownAttribute widget attr => s!"'{widget}' has no attribute '{attr}'"
  | invalidBinding kind widget attr cause =>
    s!"invalid {kind.name} binding for '{widget}.{attr}': {cause.message}"
  | unknownModule module => s!"no module named '{module}'"
  | unknownSymbol module name => s!"cannot import name '{name}' from '{module}'"

/--
The modules that documents can import.
-/
abbrev Modules := Table String Namespace

/--
A compiled document.
-/
structure CompiledDocument where
  /-- The root. -/
  root : Blueprint
  /-- What the imports bind, shared by all views. -/
  imports : Namespace

/--
A compilation in progress.
-/
structure Compilation where
  /-- The objects; a module that is imported as a whole becomes one of them. -/
  store : Store
  /-- What the imports bind. -/
  imports : Namespace := Table.empty
  /-- The identifiers used so far. -/
  identifiers : List String := []
  /-- The root, once it is complete. -/
  root : Option Blueprint := none
  /-- Log records. -/
  log : List LogRecord := []

/--
A step of a compilation.
-/
abbrev Compiling := ExceptT CompileError (StateM Compilation)

namespace Compilation

/-- Append a log record. -/
def note (c : Compilation) (message : String) (fields : List (String × String)) : Compilation :=
  { c with log := c.log ++ [⟨.debug, message, fields⟩] }

/-- Bind the symbols that an import names. -/
def bindNames (module : String) (symbols : Namespace) : List ImportName → Compiling Unit
  | [] => pure ()
  | n :: rest => do
    match symbols.get? n.name with
    | none => throw (.unknownSymbol module n.name)
    | some v =>
      modify fun c => { c with imports := c.imports.insert n.boundName v }
      bindNames module symbols rest

/-- Bind a module as a whole: a read-only object with its symbols. -/
def bindModule (i : Import) (symbols : Namespace) : Compiling Unit :=
  modify fun c =>
    let (o, store) := c.store.create i.module .frozen symbols
    { c with store, imports := c.imports.insert (i.boundAs.getD i.module) (.object o) }

/-- Run an import. -/
def runImport (modules : Modules) (i : Import) : Compiling Unit := do
  match modules.get? i.module with
  | none => throw (.unknownModule i.module)
  | some symbols =>
    if i.names.isEmpty then bindModule i symbols else bindNames i.module symbols i.names
    modify fun c =>
      c.note "import" [("module", i.module), ("symbols", toString i.names.length)]

/-- Begin a widget of a class and role. -/
def begin (toolkit : Toolkit) (role : Role) (name : String) (identifier : Option String) :
    Compiling Blueprint := do
  match toolkit.get? name with
  | none => throw (.unknownWidget name)
  | some widgetClass =>
    if widgetClass.role ≠ role then throw (.roleMismatch name role)
    match identifier with
    | none => pure ()
    | some id =>
      if (← get).identifiers.contains id then throw (.duplicateIdentifier id)
      modify fun c => { c with identifiers := id :: c.identifiers }
    pure { widgetClass, identifier }

/-- Add a binding to the widget around it. -/
def addBinding (b : Blueprint) (kind : BindingKind) (attr code : String) : Compiling Blueprint := do
  if !b.widgetClass.declares attr then
    throw (.unknownAttribute b.widgetClass.name attr)
  match Binding.compile kind code with
  | .error e => throw (.invalidBinding kind b.label attr e)
  | .ok binding => pure (b.addBinding attr binding)

mutual

/-- Compile a node inside of `parent`, if there is one. Answers the parent with what it gains. -/
def visit (toolkit : Toolkit) (modules : Modules) (parent : Option Blueprint) :
    Node → Compiling (Option Blueprint)
  | .imports i => do
    runImport modules i
    pure parent
  | .element name identifier body => do
    let b ← begin toolkit .component name identifier
    let b := (← visitAll toolkit modules (some b) body).getD b
    match parent with
    | some p => pure (some { p with children := p.children ++ [b] })
    | none =>
      if (← get).root.isSome then throw (.multipleRoots name)
      modify fun c => { c with root := some b }
      pure none
  | .metadata name identifier body => do
    match parent with
    | none => throw (.noteWithoutParent name)
    | some p =>
      let b ← begin toolkit .metadata name identifier
      let b := (← visitAll toolkit modules (some b) body).getD b
      pure (some { p with notes := p.notes ++ [b] })
  | .binding kind attr code => do
    match parent with
    | none => throw (.bindingOutsideElement attr)
    | some p => pure (some (← addBinding p kind attr code))
  | .block body => visitAll toolkit modules parent body
  | .comment _ => pure parent

/-- Compile nodes in order. -/
def visitAll (toolkit : Toolkit) (modules : Modules) (parent : Option Blueprint) :
    List Node → Compiling (Option Blueprint)
  | [] => pure parent
  | n :: rest => do
    let parent ← visit toolkit modules parent n
    visitAll toolkit modules parent rest

end

/-- Compile a whole document. -/
def document (toolkit : Toolkit) (modules : Modules) (d : Document) :
    Compiling CompiledDocument := do
  let _ ← visitAll toolkit modules none d.body
  let c ← get
  match c.root with
  | none => throw .emptyDocument
  | some root =>
    set (c.note "compiled view"
      [("root", root.widgetClass.name), ("nodes", toString root.count),
        ("imports", toString c.imports.size)])
    pure { root, imports := c.imports }

end Compilation

/-- Compile a document. Module objects are made in the store. -/
def Document.compile (d : Document) (toolkit : Toolkit) (modules : Modules) (store : Store) :
    Except CompileError CompiledDocument × Compilation :=
  (Compilation.document toolkit modules d).run.run { store }

end ReactiveView
