import ReactiveView.Document.Basic
import ReactiveView.Json.Fields
import ReactiveView.Json.Reader
import ReactiveView.Json.Writer

/-!
This module contains the JSON form of documents.

A node is an object with its kind and fields, or an array of the kind and the fields in order.
Fields that no node has are left out of account; what a document has beside its body need not even
be readable. Everything inside of nodes has to be, and the nesting of a document is limited.
-/

namespace ReactiveView

/-- Read a symbol of an import. -/
def ImportName.ofJson? (j : Json) : Option ImportName := do
  match ← j.fields? ["name", "alias"] with
  | [name, boundAs] =>
    pure {
      name := ← Json.required? Json.toText? name
      boundAs := ← Json.optional? Json.toOptionalText? none boundAs }
  | _ => none

/-- Read the symbols of an import. -/
def ImportName.listOfJson? : Json → Option (List ImportName)
  | .array items => items.mapM ImportName.ofJson?
  | _ => none

/--
The kinds of nodes.
-/
inductive NodeKind where
  | imports | element | metadata | default | bind | delegate | notify | block | comment
  deriving Repr, DecidableEq

namespace NodeKind

/-- All kinds, in the order of their numbers. -/
def all : List NodeKind :=
  [imports, element, metadata, default, bind, delegate, notify, block, comment]

/-- The name of a kind. -/
def name : NodeKind → String
  | imports => "import" | element => "element" | metadata => "meta" | default => "default"
  | bind => "bind" | delegate => "delegate" | notify => "notify" | block => "block"
  | comment => "comment"

/-- The fields of a kind, in order. -/
def fieldNames : NodeKind → List String
  | imports => ["module", "alias", "names"]
  | element | metadata => ["name", "identifier", "body"]
  | default | bind | delegate | notify => ["attribute", "code"]
  | block => ["body"]
  | comment => ["text"]

/-- Read a kind. Inside of another node the number of the kind will do. -/
def ofJson? (nested : Bool) : Json → Option NodeKind
  | .text s => all.find? fun k => k.name == s
  | .number n =>
    if nested && !n.negative then n.toInt?.bind fun i => all[i.toNat]? else none
  | _ => none

end NodeKind

/--
A value, read both as such and, where it is an array of nodes, as nodes.
-/
structure NodeField where
  /-- The value. -/
  json : Json
  /-- Its nodes. -/
  nodes : Option (List Node)

namespace NodeField

/-- Read a field that has to be there. -/
def required? {α : Type} (read : Json → Option α) (given : List NodeField) : Option α :=
  Json.required? read (given.map json)

/-- Read a field that may be left out. -/
def optional? {α : Type} (read : Json → Option α) (default : α) (given : List NodeField) :
    Option α :=
  Json.optional? read default (given.map json)

/-- Read the parts of a node. -/
def body? : List NodeField → Option (List Node)
  | [] => some []
  | [f] => f.nodes
  | _ => none

end NodeField

namespace Node

/-- Build a node of a kind from its fields, in order. -/
def ofFields? (kind : NodeKind) (fields : List (List NodeField)) : Option Node :=
  match kind, fields with
  | .imports, [module, boundAs, names] => do
    pure (.imports {
      module := ← NodeField.required? Json.toText? module
      boundAs := ← NodeField.optional? Json.toOptionalText? none boundAs
      names := ← NodeField.optional? ImportName.listOfJson? [] names })
  | .element, [name, identifier, body] => do
    pure (.element (← NodeField.required? Json.toText? name)
      (← NodeField.optional? Json.toOptionalText? none identifier) (← NodeField.body? body))
  | .metadata, [name, identifier, body] => do
    pure (.metadata (← NodeField.required? Json.toText? name)
      (← NodeField.optional? Json.toOptionalText? none identifier) (← NodeField.body? body))
  | .default, fields => binding? .default fields
  | .bind, fields => binding? .bind fields
  | .delegate, fields => binding? .delegate fields
  | .notify, fields => binding? .notify fields
  | .block, [body] => do pure (.block (← NodeField.body? body))
  | .comment, [text] => do pure (.comment (← NodeField.optional? Json.toText? "" text))
  | _, _ => none
where
  /-- Build a binding. -/
  binding? (kind : BindingKind) : List (List NodeField) → Option Node
    | [attr, code] => do
      pure (.binding kind (← NodeField.required? Json.toText? attr)
        (← NodeField.required? Json.toText? code))
    | _ => none

/-- Build a node from its kind and its members. -/
def ofMembers? (nested : Bool) (members : List (Option String × NodeField)) : Option Node := do
  let given (name : String) : List NodeField :=
    members.filterMap fun m => if m.1 = some name then some m.2 else none
  let kind ← NodeField.required? (NodeKind.ofJson? nested) (given "kind")
  ofFields? kind (kind.fieldNames.map given)

/-- Build a node from an array of its kind and its fields. -/
def ofItems? (nested : Bool) : List NodeField → Option Node
  | [] => none
  | tag :: items => do
    let kind ← NodeKind.ofJson? nested tag.json
    let names := kind.fieldNames
    if items.length ≤ names.length then
      ofFields? kind
        ((items.map fun f => [f]) ++ List.replicate (names.length - items.length) [])
    else none

mutual

/-- Read a node. -/
def ofJson? (nested : Bool) : Json → Option Node
  | .object members => ofMembers? nested (fieldsOf members)
  | .array items => ofItems? nested (itemsOf items)
  | _ => none

/-- Read an array of nodes. -/
def listOfJson? (nested : Bool) : Json → Option (List Node)
  | .array items => nodesOf? nested items
  | _ => none

/-- Read nodes. -/
def nodesOf? (nested : Bool) : List Json → Option (List Node)
  | [] => some []
  | j :: rest => do
    let n ← ofJson? nested j
    let ns ← nodesOf? nested rest
    pure (n :: ns)

/-- Read the members of a node both ways. -/
def fieldsOf : List (Option String × Json) → List (Option String × NodeField)
  | [] => []
  | (name, j) :: rest => (name, ⟨j, listOfJson? true j⟩) :: fieldsOf rest

/-- Read the items of a node both ways. -/
def itemsOf : List Json → List NodeField
  | [] => []
  | j :: rest => ⟨j, listOfJson? true j⟩ :: itemsOf rest

end

mutual

/-- The JSON form of a node. -/
def toJson : Node → Json
  | imports i => .object [
      (some "kind", .text "import"), (some "module", .text i.module),
      (some "alias", Json.ofOptionalText i.boundAs),
      (some "names", .array (i.names.map fun n => .object [
        (some "name", .text n.name), (some "alias", Json.ofOptionalText n.boundAs)]))]
  | element name identifier body => .object [
      (some "kind", .text "element"), (some "name", .text name),
      (some "identifier", Json.ofOptionalText identifier), (some "body", .array (toJsons body))]
  | metadata name identifier body => .object [
      (some "kind", .text "meta"), (some "name", .text name),
      (some "identifier", Json.ofOptionalText identifier), (some "body", .array (toJsons body))]
  | binding kind attr code => .object [
      (some "kind", .text kind.name), (some "attribute", .text attr), (some "code", .text code)]
  | block body => .object [(some "kind", .text "block"), (some "body", .array (toJsons body))]
  | comment s => .object [(some "kind", .text "comment"), (some "text", .text s)]

/-- The JSON forms of nodes. -/
def toJsons : List Node → List Json
  | [] => []
  | n :: rest => toJson n :: toJsons rest

end

end Node

namespace Document

/-- How deeply a document may be nested. -/
def depthLimit : Nat := 127

/-- Read the body of a document: sound, and nested within the limit. -/
def ofBody? (body : Json) : Option Document :=
  if body.isSound && body.depth < depthLimit then
    (Node.listOfJson? false body).map fun body => { body }
  else none

/-- Read a document. -/
def ofJson? : Json → Option Document
  | .object members =>
    if members.all fun m => m.1.isSome then
      match Json.membersNamed members "body" with
      | [] => some {}
      | [body] => ofBody? body
      | _ => none
    else none
  | .array [] => some {}
  | .array [body] => ofBody? body
  | _ => none

/-- Read the text of a document. -/
def read (s : String) : Option Document := do ofJson? (← Json.read s)

/-- The JSON form of a document. -/
def toJson (d : Document) : Json :=
  .object [(some "body", .array (Node.toJsons d.body))]

/-- The text of a document. -/
def write (d : Document) : String := d.toJson.write

end Document

end ReactiveView
