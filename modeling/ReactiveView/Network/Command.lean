import ReactiveView.Network.Binding
import ReactiveView.Expr.Eval

/-!
This module contains what a host can ask of the network and what the network answers. Commands name
objects, handles and observers by texts of the host's choice. An observer of the host is a list of
commands that run on every change it sees.
-/

namespace ReactiveView

/--
A value as a host gives it: some parts stand for objects by name or for the two values of the change
that is being observed.
-/
inductive Term where
  /-- A value without names. -/
  | value (v : Value)
  /-- The object of a name. -/
  | object (name : String)
  /-- The value before the change. -/
  | old
  /-- The value after the change. -/
  | new
  /-- A list. -/
  | list (items : List Term)
  deriving Inhabited

/--
What a host can ask for.
-/
inductive Command where
  /-- The value of an attribute. -/
  | get (object attr : String)
  /-- Whether an object has an attribute. -/
  | has (object attr : String)
  /-- The count of observers of an attribute. -/
  | observers (object attr : String)
  /-- The names of the attributes. -/
  | names (object : String)
  /-- Assign an attribute. -/
  | set (object attr : String) (value : Term)
  /-- Put a value into an attribute without any check and without telling observers. -/
  | put (object attr : String) (value : Term)
  /-- Tell the observers of a change that does not take place. -/
  | emit (object attr : String) (value : Term)
  /-- Observe an attribute. -/
  | observe (object attr id : String) (actions : List Command)
  /-- Stop observing. -/
  | unobserve (id : String) (attr : Option String)
  /-- Give up the name of an object, and with it what keeps the object alive. -/
  | forget (object : String)
  /-- Push a layer of names for later commands. -/
  | layer (names : List (String × Term))
  /-- Push the layer of the builtin names. -/
  | builtins
  /-- Evaluate an expression. -/
  | eval (source : String)
  /-- Evaluate an expression and list what it read. -/
  | track (source : String)
  /-- Run statements. -/
  | exec (source : String)
  /-- Compile code and tie it to an attribute, under the name of a handle. -/
  | connect (kind : BindingKind) (code object attr handle : String)
  /-- Cut the binding of a handle. -/
  | drop (handle : String)

/--
Why a command fails.
-/
inductive Failure where
  /-- Code does not parse. -/
  | code (e : SyntaxError)
  /-- Evaluation or assignment fails. -/
  | eval (e : EvalError)
  /-- A name that the host never gave. -/
  | unknownName
  /-- Observers set each other off more deeply than the network follows. -/
  | unsettled

/--
What a command comes to.
-/
inductive Outcome where
  /-- Nothing to report. -/
  | done
  /-- A value. -/
  | value (v : Value)
  /-- No value. -/
  | missing
  /-- A truth value. -/
  | flag (b : Bool)
  /-- A count. -/
  | count (n : Nat)
  /-- Names. -/
  | names (l : List String)
  /-- A value to be described in full. -/
  | described (v : Value)
  /-- A value or an error, and the attributes that were read. -/
  | tracked (result : Except EvalError Value) (reads : List Dependency)
  /-- A binding that was tied, and whether it stays connected. -/
  | connected (kind : BindingKind) (code : String) (live : Bool)
  /-- A failure. -/
  | failed (f : Failure)

end ReactiveView
