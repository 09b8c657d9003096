import ReactiveView.Table
import ReactiveView.Value.Error

/-!
This module contains the store of observable objects: their classes, what they accept, and their
attributes. Observers are kept apart from it, so that evaluation depends on attributes alone.
-/

namespace ReactiveView

/--
Which attributes an object accepts.
-/
inductive Shape where
  /-- Any attribute may be added. -/
  | open
  /-- Only attributes declared up front may be assigned. -/
  | declared
  /-- Nothing may be assigned. -/
  | frozen
  deriving Repr, DecidableEq

/--
An observable object.
-/
structure Obj where
  /-- The name of its class. -/
  className : String
  /-- What it accepts. -/
  shape : Shape
  /-- Its attributes. -/
  attrs : Table String Value
  /-- Whether anything still refers to it. -/
  alive : Bool := true

/--
All objects ever made, by identity.
-/
structure Store where
  /-- The objects; the position is the identity. -/
  objects : Array Obj := #[]
  deriving Inhabited

/--
What an assignment does to a store.
-/
inductive Assignment where
  /-- The value is equal to the present one, which stays. -/
  | unchanged
  /-- The attribute has a new value in place of `old`. -/
  | changed (store : Store) (old : Value)

namespace Store

/-- Make an object. -/
def create (store : Store) (className : String) (shape : Shape) (attrs : Table String Value) :
    ObjectRef × Store :=
  (⟨store.objects.size, className⟩,
    { objects := store.objects.push { className, shape, attrs } })

/-- The attributes of an object. -/
def attrs (store : Store) (o : ObjectRef) : Table String Value :=
  match store.objects[o.id]? with
  | some obj => obj.attrs
  | none => Table.empty

/-- The value of an attribute. -/
def get? (store : Store) (o : ObjectRef) (attr : String) : Option Value :=
  (store.attrs o).get? attr

/-- Whether the object has the attribute. -/
def has (store : Store) (o : ObjectRef) (attr : String) : Bool := (store.get? o attr).isSome

/-- Whether anything still refers to the object. -/
def isAlive (store : Store) (id : Nat) : Bool :=
  match store.objects[id]? with
  | some obj => obj.alive
  | none => false

/-- Put a value into an attribute, without any check. -/
def put (store : Store) (o : ObjectRef) (attr : String) (v : Value) : Store :=
  { objects := store.objects.modify o.id fun obj => { obj with attrs := obj.attrs.insert attr v } }

/-- Assign an attribute. A frozen object refuses everything, a declared one what it does not have;
a value equal to the present one changes nothing. -/
def assign (store : Store) (o : ObjectRef) (attr : String) (v : Value) :
    Except EvalError Assignment :=
  match store.objects[o.id]? with
  | none => .ok .unchanged
  | some obj =>
    if obj.shape = .frozen then .error (.readOnly attr)
    else match obj.attrs.get? attr with
      | some old =>
        if old.equal v then .ok .unchanged else .ok (.changed (store.put o attr v) old)
      | none =>
        if obj.shape = .declared then .error (.noAttribute obj.className attr)
        else .ok (.changed (store.put o attr v) .none)

/-- Forget an object: it loses its attributes and counts as dead. -/
def free (store : Store) (id : Nat) : Store :=
  { objects := store.objects.modify id fun obj =>
      { obj with attrs := Table.empty, alive := false } }

/-- The name of an object in log records: its attribute `name`, or its class. -/
def describe (store : Store) (o : ObjectRef) : String :=
  match store.get? o "name" with
  | some (.str s) => if s.isEmpty then o.className else s
  | _ => o.className

/-- The class and the attributes of an object as one text. -/
def picture (store : Store) (o : ObjectRef) : String :=
  let entry : String × Value → List Char := fun (k, v) =>
    Quoted.double k.toList ++ [':', ' '] ++ v.reprChars
  let body := (", ".toList).intercalate ((store.attrs o).entries.map entry)
  String.ofList (o.className.toList ++ [' ', '\x7b'] ++ body ++ ['\x7d'])

end Store

end ReactiveView
