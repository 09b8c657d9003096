import ReactiveView.Store
import ReactiveView.Expr.Operators
import ReactiveView.Decimal.Reading

/-!
This module contains the functions that every expression can call and the methods of strings.
-/

namespace ReactiveView

/-- A power by repeated squaring, the exponent given in binary digits from the lowest. -/
def powerFloat (base : Float) (exponent : Nat) : Float :=
  go 64 base exponent 1
where
  /-- Multiply `acc` by `base ^ exponent`. -/
  go : Nat → Float → Nat → Float → Float
    | 0, _, _, acc => acc
    | fuel + 1, base, exponent, acc =>
      let acc := if exponent % 2 = 1 then acc * base else acc
      if exponent / 2 = 0 then acc else go fuel (base * base) (exponent / 2) acc

/-- Round to an integer, a half to the even neighbour. -/
def roundFloat (x : Float) : Float :=
  let r := x.round
  if (x - towardZero x).abs == 0.5 && (Binary.ofFloat r).truncate % 2 != 0 then
    r - (if x < 0 then -1 else 1)
  else r

namespace Builtin

/-- Refuse a count of arguments. -/
def wrongArity (b : Builtin) (given : Nat) : Except EvalError Value :=
  .error (.call b.name (.arity 1 given))

/-- The least or greatest number among values, the first of equal ones. -/
def extreme (b : Builtin) (better : Float → Float → Bool) :
    Option (Value × Float) → List Value → Except EvalError Value
  | some (best, _), [] => .ok best
  | none, [] => .error (.call b.name .emptySequence)
  | best, v :: rest =>
    match v.asFloat? with
    | none => .error (.type (.extremeOfNonNumber b.name v.typeName))
    | some key =>
      match best with
      | none => extreme b better (some (v, key)) rest
      | some (w, current) =>
        extreme b better (some (if better key current then (v, key) else (w, current))) rest

/-- What `min` and `max` choose from: the items of a single list, or all arguments. -/
def candidates : List Value → List Value
  | [.list items] => items
  | arguments => arguments

/-- Round a number, to an integer or to `digits` decimal places. -/
def rounded (v : Value) (digits : Option Int) : Except EvalError Value :=
  match v.asFloat? with
  | none => .error (.type (.notRoundable v.typeName))
  | some x =>
    match digits with
    | none => .ok (.int (Word.ofFloat (roundFloat x)))
    | some d =>
      let d := Max.max (-300) (Min.min 300 d)
      let power := powerFloat 10 d.natAbs
      let scale := if d < 0 then 1 / power else power
      .ok (.float (roundFloat (x * scale) / scale))

/-- Call a function. -/
def apply (store : Store) : Builtin → List Value → Except EvalError Value
  | len, [.str s] => .ok (.int s.length)
  | len, [.list items] => .ok (.int items.length)
  | len, [.object o] => .ok (.int (store.attrs o).size)
  | len, [v] => .error (.type (.noLength v.typeName))
  | str, [] => .ok (.str "")
  | str, [v] => .ok (.str v.text)
  | repr, [v] => .ok (.str v.repr)
  | int, [.int i] => .ok (.int i)
  | int, [.bool b] => .ok (.int (if b then 1 else 0))
  | int, [.float x] =>
    if (Binary.ofFloat x).isFinite then .ok (.int (Word.ofFloat x))
    else .error (.type (.notNumeric "int" "float"))
  | int, [.str s] =>
    match Decimal.readInt (Letters.trim s.toList) with
    | some i => .ok (.int i)
    | none => .error (.call "int" (.invalidLiteral s))
  | int, [v] => .error (.type (.notNumeric "int" v.typeName))
  | float, [.str s] =>
    match Decimal.readFloat (Letters.trim s.toList) with
    | some x => .ok (.float x)
    | none => .error (.call "float" (.notAFloat s))
  | float, [v] =>
    match v.asFloat? with
    | some x => .ok (.float x)
    | none => .error (.type (.notNumeric "float" v.typeName))
  | bool, [] => .ok (.bool false)
  | bool, [v] => .ok (.bool v.truthy)
  | abs, [.int i] =>
    if Word.fits i.natAbs then .ok (.int i.natAbs) else .error (.type .absOverflow)
  | abs, [.bool b] => .ok (.int (if b then 1 else 0))
  | abs, [.float x] => .ok (.float x.abs)
  | abs, [v] => .error (.type (.badAbsOperand v.typeName))
  | min, arguments => extreme min (fun key current => key < current) none (candidates arguments)
  | max, arguments => extreme max (fun key current => current < key) none (candidates arguments)
  | round, [v] => rounded v none
  | round, [v, .int d] => rounded v (some d)
  | round, _ => .error (.call "round" .roundArguments)
  | b, arguments => wrongArity b arguments.length

end Builtin

/-- Call a method of the string `self`. -/
def Method.apply (self : String) : Method → List Value → Except EvalError Value
  | upper, _ => .ok (.str (String.ofList (Letters.upper self.toList)))
  | lower, _ => .ok (.str (String.ofList (Letters.lower self.toList)))
  | strip, _ => .ok (.str (String.ofList (Letters.trim self.toList)))
  | startswith, [.str s] => .ok (.bool (s.toList.isPrefixOf self.toList))
  | startswith, _ => .error (.type (.expectsOneString "startswith"))
  | endswith, [.str s] => .ok (.bool (s.toList.isSuffixOf self.toList))
  | endswith, _ => .error (.type (.expectsOneString "endswith"))
  | replace, [.str old, .str new] =>
    .ok (.str (String.ofList (Search.replace old.toList new.toList self.toList)))
  | replace, _ => .error (.type (.expectsTwoStrings "replace"))
  | join, [.list items] => .ok (.str (self.intercalate (items.map Value.text)))
  | join, _ => .error (.type (.expectsList "join"))

end ReactiveView
