import ReactiveView.Json.Fields
import ReactiveView.Network.Cascade

/-!
This module contains the JSON form of what a host tells the network: values, commands, and the
objects and names that are there at the start.

Null, truth values, integers, strings and arrays stand for themselves; every other value is an
object with one member that says what it is.
-/

namespace ReactiveView

namespace HostFunction

/-- The function of a name. -/
def ofName? (s : String) : Option HostFunction := [record, fail].find? fun f => f.name == s

end HostFunction

namespace BindingKind

/-- The kind of a name. -/
def ofName? (s : String) : Option BindingKind :=
  [default, bind, delegate, notify].find? fun k => k.name == s

end BindingKind

namespace Shape

/-- The shape of a name. -/
def ofName? (s : String) : Option Shape :=
  if s = "open" then some .open
  else if s = "declared" then some .declared
  else if s = "frozen" then some .frozen
  else none

end Shape

namespace Term

/-- Read the value of an object with one member. -/
def ofMember? (kind : String) (j : Json) : Option Term :=
  if kind = "float" then j.toDecimal?.map fun x => value (.float x)
  else do
    let name ← j.toText?
    if kind = "object" then pure (object name)
    else if kind = "function" then pure (value (.function (.host (← HostFunction.ofName? name))))
    else if kind = "builtin" then pure (value (.function (.builtin (← Builtin.ofName? name))))
    else if kind = "change" then
      if name = "old" then pure old else if name = "new" then pure new else none
    else none

mutual

/-- Read a value. -/
def ofJson? : Json → Option Term
  | .null => some (value .none)
  | .bool b => some (value (.bool b))
  | .number n => n.toInt?.map fun i => value (.int i)
  | .string s => s.map fun s => value (.str s)
  | .array items => (listOfJson? items).map list
  | .object [(some kind, j)] => ofMember? kind j
  | .object _ => none

/-- Read values. -/
def listOfJson? : List Json → Option (List Term)
  | [] => some []
  | j :: rest => do
    let t ← ofJson? j
    let ts ← listOfJson? rest
    pure (t :: ts)

end

/-- Read a table of names. -/
def namesOfJson? (j : Json) : Option (List (String × Term)) := do
  (← j.entries?).mapM fun (name, v) => do pure (name, ← ofJson? v)

end Term

namespace Command

mutual

/-- Read a command: an array of its name and its operands. -/
def ofJson? : Json → Option Command
  | .array [.text op, .text a] =>
    if op = "names" then some (names a)
    else if op = "unobserve" then some (unobserve a none)
    else if op = "forget" then some (forget a)
    else if op = "eval" then some (eval a)
    else if op = "track" then some (track a)
    else if op = "exec" then some (exec a)
    else if op = "drop" then some (drop a)
    else if op = "layer" && a = "builtins" then some builtins
    else none
  | .array [.text op, .object table] =>
    if op = "layer" then (Term.namesOfJson? (.object table)).map layer else none
  | .array [.text op, .text a, .text b] =>
    if op = "get" then some (get a b)
    else if op = "has" then some (has a b)
    else if op = "observers" then some (observers a b)
    else if op = "unobserve" then some (unobserve a (some b))
    else none
  | .array [.text op, .text a, .text b, c] =>
    if op = "set" then (Term.ofJson? c).map (set a b)
    else if op = "with" then (Term.ofJson? c).map (put a b)
    else if op = "emit" then (Term.ofJson? c).map (emit a b)
    else if op = "observe" then c.toText?.map fun id => observe a b id []
    else none
  | .array [.text op, .text a, .text b, .text c, .array actions] =>
    if op = "observe" then (listOfJson? actions).map (observe a b c) else none
  | .array [.text op, .text kind, .text code, .text object, .text attr, .text handle] =>
    if op = "inject" then do
      pure (connect (← BindingKind.ofName? kind) code object attr handle)
    else none
  | _ => none

/-- Read commands. -/
def listOfJson? : List Json → Option (List Command)
  | [] => some []
  | j :: rest => do
    let c ← ofJson? j
    let cs ← listOfJson? rest
    pure (c :: cs)

end

end Command

namespace Network

/-- Make an object that a host describes, without its attributes. -/
def introduce? (net : Network) (j : Json) : Option Network := do
  let shape ← match j.given? "shape" with
    | some name => do Shape.ofName? (← name.toText?)
    | none => pure .open
  pure (net.introduce (← j.textAt? "name") (← j.textAt? "class") shape)

/-- Put the attributes into an object that a host describes. -/
def fill? (net : Network) (j : Json) : Option Network := do
  let name ← j.textAt? "name"
  (← j.entriesAt? "attrs").foldlM (fun net (attr, v) => do
    pure (net.command (.put name attr (← Term.ofJson? v))).2) net

/-- Push a layer of names: a table, or the builtins. -/
def layer? (net : Network) : Json → Option Network
  | .text s => if s = "builtins" then some (net.command .builtins).2 else none
  | j => do pure (net.command (.layer (← Term.namesOfJson? j))).2

/-- Read the objects and the layers of names that are there at the start. All objects are made
before attributes are put in, so that they can refer to each other. -/
def ofJson? (j : Json) : Option Network := do
  let objects ← j.listAt? "objects"
  let net ← objects.foldlM introduce? ({} : Network)
  let net ← objects.foldlM fill? net
  (← j.listAt? "layers").foldlM layer? net

/-- Read a value, its objects being those of the host. -/
def readValue? (net : Network) (j : Json) : Option Value := do
  (← Term.ofJson? j).resolve net.desk none

/-- Read a table of names. -/
def readNames? (net : Network) (j : Json) : Option Namespace := do
  Term.resolveNames net.desk (← Term.namesOfJson? j)

end Network

end ReactiveView
