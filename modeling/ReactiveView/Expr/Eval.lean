import ReactiveView.Expr.Builtins
import ReactiveView.Scope

/-!
This module contains the evaluation of expressions in a store and a scope. Evaluation changes no
object; it leaves a trail of the attributes that it read, in the order of their first reads, and of
the calls that the host wants to know of.
-/

namespace ReactiveView

/--
An attribute that was read.
-/
structure Dependency where
  /-- The object. -/
  object : ObjectRef
  /-- The attribute. -/
  attr : String
  deriving Repr, DecidableEq

/--
What an evaluation leaves behind.
-/
structure Trail where
  /-- The identity of the next function made. -/
  fresh : Nat
  /-- The attributes read, each once, in the order of the first reads. -/
  reads : List Dependency := []
  /-- The arguments of the recorded calls, in order. -/
  recorded : List (List Value) := []

/--
A computation that leaves a trail, also when it fails.
-/
abbrev Eval (α : Type) := ExceptT EvalError (StateM Trail) α

namespace Eval

/-- Note that an attribute was read. -/
def noteRead (o : ObjectRef) (attr : String) : Eval Unit :=
  modify fun trail =>
    if trail.reads.any fun d => d.object.id == o.id && d.attr == attr then trail
    else { trail with reads := trail.reads ++ [⟨o, attr⟩] }

/-- Make a method of a string. -/
def makeMethod (m : Method) (self : String) : Eval Value := do
  let trail ← get
  set { trail with fresh := trail.fresh + 1 }
  pure (.function (.method m self trail.fresh))

/-- The attribute of an object or the method of a string. -/
def attrOf (store : Store) (v : Value) (name : String) : Eval Value :=
  match v with
  | .object o => do
    noteRead o name
    match store.get? o name with
    | some v => pure v
    | none => throw (.noAttribute o.className name)
  | .str s =>
    match Method.ofName? name with
    | some m => makeMethod m s
    | none => throw (.noAttribute "str" name)
  | v => throw (.noAttribute v.typeName name)

/-- An item of a list, a character of a string, an attribute of an object. -/
def item (store : Store) (v index : Value) : Eval Value :=
  match v with
  | .list items => do
    let p ← liftExcept (Operators.position index items.length)
    pure (items[p]?.getD .none)
  | .str s => do
    let p ← liftExcept (Operators.position index s.length)
    pure (.str (String.ofList (s.toList[p]?.toList)))
  | .object o =>
    match index with
    | .str name =>
      match store.get? o name with
      | some v => pure v
      | none => throw (.noAttribute o.className name)
    | _ => throw (.type .keyNotString)
  | v => throw (.type (.notSubscriptable v.typeName))
where
  /-- A result that leaves no trail. -/
  liftExcept {α : Type} (r : Except EvalError α) : Eval α := ExceptT.mk (pure r)

/-- Whether a container has an item: a text, a value, an attribute. -/
def contains (store : Store) (container v : Value) : Except EvalError Bool :=
  match container, v with
  | .str s, .str t => .ok (Search.contains t.toList s.toList)
  | .list items, v => .ok (items.any fun w => w.equal v)
  | .object o, .str name => .ok (store.has o name)
  | c, _ => .error (.type (.notIterable c.typeName))

/-- A comparison. -/
def compare (store : Store) (op : CompareOp) (a b : Value) : Except EvalError Bool :=
  match op with
  | .eq => .ok (a.equal b)
  | .ne => .ok (!a.equal b)
  | .lt => do .ok ((← Operators.order a b) == .lt)
  | .le => do .ok ((← Operators.order a b) != .gt)
  | .gt => do .ok ((← Operators.order a b) == .gt)
  | .ge => do .ok ((← Operators.order a b) != .lt)
  | .isIn => contains store b a
  | .notIn => do .ok (!(← contains store b a))

/-- Call a function. -/
def call (store : Store) (f : Function) (arguments : List Value) : Eval Value :=
  match f with
  | .builtin b => ExceptT.mk (pure (b.apply store arguments))
  | .method m self _ => ExceptT.mk (pure (m.apply self arguments))
  | .host .record => do
    modify fun trail => { trail with recorded := trail.recorded ++ [arguments] }
    pure (arguments.headD .none)
  | .host .fail => throw (.call "fail" (.hostFailure arguments.length))

end Eval

mutual

/-- The value of an expression. Operands are evaluated from the left, those of `and`, `or` and a
conditional only as far as they are needed. -/
def Expr.eval (store : Store) (scope : Scope) : Expr → Eval Value
  | .literal l => pure l.value
  | .name s =>
    match scope.lookup? s with
    | some v => pure v
    | none => throw (.nameNotFound s)
  | .attr object name => do
    let v ← object.eval store scope
    Eval.attrOf store v name
  | .item object index => do
    let v ← object.eval store scope
    let i ← index.eval store scope
    Eval.item store v i
  | .call function arguments => do
    let f ← function.eval store scope
    let vs ← evalAll store scope arguments
    match f with
    | .function f => Eval.call store f vs
    | v => throw (.type (.notCallable v.typeName))
  | .list items => do
    let vs ← evalAll store scope items
    pure (.list vs)
  | .unary op e => do
    let v ← e.eval store scope
    ExceptT.mk (pure (Operators.unary op v))
  | .binary op a b => do
    let v ← a.eval store scope
    let w ← b.eval store scope
    ExceptT.mk (pure (Operators.binary op v w))
  | .compare first links => do
    let v ← first.eval store scope
    let holds ← evalLinks store scope v links
    pure (.bool holds)
  | .and a b => do
    let v ← a.eval store scope
    if v.truthy then b.eval store scope else pure v
  | .or a b => do
    let v ← a.eval store scope
    if v.truthy then pure v else b.eval store scope
  | .ite test body orelse => do
    let v ← test.eval store scope
    if v.truthy then body.eval store scope else orelse.eval store scope

/-- The values of several expressions, from the left. -/
def evalAll (store : Store) (scope : Scope) : List Expr → Eval (List Value)
  | [] => pure []
  | e :: rest => do
    let v ← e.eval store scope
    let vs ← evalAll store scope rest
    pure (v :: vs)

/-- Whether each link of a chain of comparisons holds, up to the first that does not. -/
def evalLinks (store : Store) (scope : Scope) (left : Value) : List (CompareOp × Expr) → Eval Bool
  | [] => pure true
  | (op, e) :: rest => do
    let right ← e.eval store scope
    let holds ← ExceptT.mk (pure (Eval.compare store op left right))
    if holds then evalLinks store scope right rest else pure false

end

/-- Evaluate an expression, functions made on the way being numbered from `fresh`. -/
def Expr.run (e : Expr) (store : Store) (scope : Scope) (fresh : Nat) :
    Except EvalError Value × Trail :=
  (e.eval store scope).run.run { fresh }

end ReactiveView
