import ReactiveView.Decimal.Shortest
import ReactiveView.Text.Quoted

/-!
This module contains the values of the expression language: their types, equality, truth, numeric
reading and text.
-/

namespace ReactiveView

/--
A reference to an observable object: its identity and the name of its class, which never changes.
-/
structure ObjectRef where
  /-- The identity. Two references are equal exactly when these are. -/
  id : Nat
  /-- The name of the object's class. -/
  className : String
  deriving Repr, DecidableEq, Inhabited

/--
The functions that every expression can call.
-/
inductive Builtin where
  | len | str | repr | int | float | bool | abs | min | max | round
  deriving Repr, DecidableEq

/--
The functions that a host lends to expressions: one notes its arguments, one always fails.
-/
inductive HostFunction where
  | record | fail
  deriving Repr, DecidableEq

/--
The methods of strings.
-/
inductive Method where
  | upper | lower | strip | startswith | endswith | replace | join
  deriving Repr, DecidableEq

namespace Builtin

/-- All of them. -/
def all : List Builtin := [len, str, repr, int, float, bool, abs, min, max, round]

/-- The name under which it is called. -/
def name : Builtin → String
  | len => "len" | str => "str" | repr => "repr" | int => "int" | float => "float"
  | bool => "bool" | abs => "abs" | min => "min" | max => "max" | round => "round"

/-- The function of a name. -/
def ofName? (s : String) : Option Builtin := all.find? fun b => b.name == s

end Builtin

/-- The name under which it is called. -/
def HostFunction.name : HostFunction → String
  | record => "record"
  | fail => "fail"

namespace Method

/-- All of them. -/
def all : List Method := [upper, lower, strip, startswith, endswith, replace, join]

/-- The name under which it is called. -/
def name : Method → String
  | upper => "upper" | lower => "lower" | strip => "strip" | startswith => "startswith"
  | endswith => "endswith" | replace => "replace" | join => "join"

/-- The method of a name. -/
def ofName? (s : String) : Option Method := all.find? fun m => m.name == s

end Method

/--
A function. Looking up a method of a string makes a new function each time, told apart by `id`.
-/
inductive Function where
  /-- One of the functions that every expression can call. -/
  | builtin (b : Builtin)
  /-- A function of the host. -/
  | host (f : HostFunction)
  /-- A method of the string `self`. -/
  | method (m : Method) (self : String) (id : Nat)
  deriving Repr, DecidableEq

namespace Function

/-- The name shown in texts. -/
def name : Function → String
  | builtin b => b.name
  | host f => f.name
  | method m _ _ => m.name

/-- Functions are equal when they are the same function. -/
def same : Function → Function → Bool
  | builtin b, builtin c => b == c
  | host f, host g => f == g
  | method _ _ i, method _ _ j => i == j
  | _, _ => false

end Function

/--
A value of the expression language.
-/
inductive Value where
  /-- No value. -/
  | none
  /-- A truth value. -/
  | bool (b : Bool)
  /-- A signed 64-bit integer. -/
  | int (i : Int)
  /-- A float. -/
  | float (x : Float)
  /-- A text. -/
  | str (s : String)
  /-- A list. -/
  | list (items : List Value)
  /-- An observable object. -/
  | object (o : ObjectRef)
  /-- A function. -/
  | function (f : Function)
  deriving Inhabited

namespace Value

/-- The name of the type, as it appears in messages. -/
def typeName : Value → String
  | none => "NoneType"
  | bool _ => "bool"
  | int _ => "int"
  | float _ => "float"
  | str _ => "str"
  | list _ => "list"
  | object _ => "object"
  | function _ => "function"

/-- Whether the value counts as true. -/
def truthy : Value → Bool
  | none => false
  | bool b => b
  | int i => i != 0
  | float x => x != 0
  | str s => !s.isEmpty
  | list items => !items.isEmpty
  | object _ => true
  | function _ => true

/-- The value as a float, a truth value counting as zero or one. -/
def asFloat? : Value → Option Float
  | int i => some (Float.ofInt i)
  | float x => some x
  | bool b => some (if b then 1 else 0)
  | _ => Option.none

/-- The value as an integer, a truth value counting as zero or one; floats are not integers. -/
def asInt? : Value → Option Int
  | int i => some i
  | bool b => some (if b then 1 else 0)
  | _ => Option.none

/-- The text of a string value. -/
def asText? : Value → Option String
  | str s => some s
  | _ => Option.none

/-- The object that the value refers to. -/
def asObject? : Value → Option ObjectRef
  | object o => some o
  | _ => Option.none

mutual

/-- Equality of values. Numbers compare by value, truth values only with each other, lists item by
item, objects and functions by identity. -/
def equal : Value → Value → Bool
  | none, none => true
  | bool a, bool b => a == b
  | int a, int b => a == b
  | float a, float b => a == b
  | int a, float b => Float.ofInt a == b
  | float a, int b => Float.ofInt b == a
  | str a, str b => a == b
  | list a, list b => equalItems a b
  | object a, object b => a.id == b.id
  | function a, function b => a.same b
  | _, _ => false

/-- Equality of lists of values. -/
def equalItems : List Value → List Value → Bool
  | [], [] => true
  | a :: as, b :: bs => equal a b && equalItems as bs
  | _, _ => false

end

instance : BEq Value := ⟨equal⟩

/-- The decimal digits of an integer, behind its sign. -/
def intText : Int → List Char
  | .ofNat n => Nat.toDigits 10 n
  | .negSucc n => '-' :: Nat.toDigits 10 (n + 1)

mutual

/-- The value as it appears inside the text of a list: strings in quotes. -/
def reprChars : Value → List Char
  | none => "None".toList
  | bool b => if b then "True".toList else "False".toList
  | int i => intText i
  | float x => (NumberStyle.value.text x).toList
  | str s => Quoted.single s.toList
  | list [] => ['[', ']']
  | list (v :: rest) => '[' :: reprChars v ++ reprTail rest ++ [']']
  | object o => '<' :: o.className.toList ++ " object>".toList
  | function f => "<function ".toList ++ f.name.toList ++ ['>']

/-- The items of a list behind the first one, each behind a comma and a space. -/
def reprTail : List Value → List Char
  | [] => []
  | v :: rest => ',' :: ' ' :: reprChars v ++ reprTail rest

end

/-- The value as it appears inside the text of a list. -/
def repr (v : Value) : String := String.ofList v.reprChars

/-- The text of a value: strings without quotes. -/
def text : Value → String
  | str s => s
  | v => v.repr

mutual

/-- The objects that a value refers to, in lists of any depth too. -/
def references : Value → List ObjectRef
  | object o => [o]
  | list items => referencesOf items
  | _ => []

/-- The objects that the items of a list refer to. -/
def referencesOf : List Value → List ObjectRef
  | [] => []
  | v :: rest => references v ++ referencesOf rest

end

end Value

end ReactiveView
