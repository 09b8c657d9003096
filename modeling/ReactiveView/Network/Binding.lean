import ReactiveView.Expr.Parser

/-!
This module contains the four ways in which an attribute is tied to code, and their compilation.

A default is evaluated once. A bind is evaluated again whenever an attribute that it read changes. A
delegate keeps two attributes equal. A notify runs statements whenever its attribute changes.
-/

namespace ReactiveView

/--
The ways in which an attribute is tied to code.
-/
inductive BindingKind where
  | default | bind | delegate | notify
  deriving Repr, DecidableEq

/-- The name of a kind in messages. -/
def BindingKind.name : BindingKind → String
  | default => "default"
  | bind => "bind"
  | delegate => "delegate"
  | notify => "notify"

/--
Compiled code.
-/
inductive Binding where
  /-- An expression to evaluate once. -/
  | default (code : String) (expr : Expr)
  /-- An expression to keep up to date. -/
  | bind (code : String) (expr : Expr)
  /-- The attribute `attr` of the object that an expression yields. -/
  | delegate (code : String) (object : Expr) (attr : String)
  /-- Statements to run on every change. -/
  | notify (code : String) (statements : List Statement)

namespace Binding

/-- The kind of a binding. -/
def kind : Binding → BindingKind
  | default .. => .default
  | bind .. => .bind
  | delegate .. => .delegate
  | notify .. => .notify

/-- The source a binding was compiled from. -/
def code : Binding → String
  | default c _ => c
  | bind c _ => c
  | delegate c _ _ => c
  | notify c _ => c

/-- Compile code: an expression, an attribute reference for a delegate, statements for a notify. -/
def compile (kind : BindingKind) (code : String) : Except SyntaxError Binding :=
  match kind with
  | .default => (Expr.parse code).map (Binding.default code)
  | .bind => (Expr.parse code).map (Binding.bind code)
  | .delegate =>
    match Expr.parse code with
    | .ok (.attr object attr) => .ok (.delegate code object attr)
    | .ok _ => .error ⟨.notAnAttributeReference, 0⟩
    | .error e => .error e
  | .notify => (Statement.parseAll code).map (Binding.notify code)

end Binding

end ReactiveView
