import ReactiveView.Value.Basic

/-!
This module contains the expressions and statements of the language as trees.
-/

namespace ReactiveView

/--
Values that can be written down in a source.
-/
inductive Literal where
  | none
  | bool (b : Bool)
  | int (i : Int)
  | float (x : Float)
  | str (s : String)
  deriving DecidableEq

/-- The value that a literal stands for. -/
def Literal.value : Literal → Value
  | none => .none
  | bool b => .bool b
  | int i => .int i
  | float x => .float x
  | str s => .str s

/--
Operators with one operand.
-/
inductive UnaryOp where
  | neg | pos | not
  deriving Repr, DecidableEq

/--
Arithmetic operators.
-/
inductive BinaryOp where
  | add | sub | mul | div | floorDiv | mod
  deriving Repr, DecidableEq

/-- How an arithmetic operator is written. -/
def BinaryOp.text : BinaryOp → String
  | add => "+" | sub => "-" | mul => "*" | div => "/" | floorDiv => "//" | mod => "%"

/--
Comparison operators.
-/
inductive CompareOp where
  | eq | ne | lt | le | gt | ge | isIn | notIn
  deriving Repr, DecidableEq

/-- How a comparison operator is written. -/
def CompareOp.text : CompareOp → String
  | eq => "==" | ne => "!=" | lt => "<" | le => "<=" | gt => ">" | ge => ">=" | isIn => "in"
  | notIn => "not in"

/--
An expression. A tuple is a list.
-/
inductive Expr where
  /-- A literal. -/
  | literal (value : Literal)
  /-- A name, looked up in the scope. -/
  | name (name : String)
  /-- An attribute of an object or a method of a string. -/
  | attr (object : Expr) (name : String)
  /-- An item of a list, a character of a string, an attribute of an object by a computed name. -/
  | item (object index : Expr)
  /-- A call. -/
  | call (function : Expr) (arguments : List Expr)
  /-- A list. -/
  | list (items : List Expr)
  /-- A sign or a negation. -/
  | unary (op : UnaryOp) (operand : Expr)
  /-- Arithmetic. -/
  | binary (op : BinaryOp) (left right : Expr)
  /-- A chain of comparisons `a < b <= c`, each operand evaluated once. -/
  | compare (first : Expr) (links : List (CompareOp × Expr))
  /-- The left operand if it is false, else the right one. -/
  | and (left right : Expr)
  /-- The left operand if it is true, else the right one. -/
  | or (left right : Expr)
  /-- `body if test else orelse`. -/
  | ite (test body orelse : Expr)
  deriving Inhabited

/--
A statement.
-/
inductive Statement where
  /-- An expression, evaluated for its effects. -/
  | expr (e : Expr)
  /-- `object.attr = value`. -/
  | assign (object : Expr) (attr : String) (value : Expr)

end ReactiveView
