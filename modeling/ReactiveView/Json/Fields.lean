import ReactiveView.Json.Basic

/-!
This module contains the reading of structures out of JSON values. A structure is an object with its
fields as members, or an array of the fields in order.

Where a host is asked for an object, the last of several members of one name counts, and a list or
table that is missing or null is empty.
-/

namespace ReactiveView

namespace Json

/-- The values of all members of a name. -/
def membersNamed (members : List (Option String × Json)) (name : String) : List Json :=
  members.filterMap fun m => if m.1 = some name then some m.2 else none

/-- Read a string. -/
def toText? : Json → Option String
  | text s => some s
  | _ => none

/-- Read an optional string. -/
def toOptionalText? : Json → Option (Option String)
  | null => some none
  | text s => some (some s)
  | _ => none

/-- Read a field that has to be there. -/
def required? {α : Type} (read : Json → Option α) : List Json → Option α
  | [j] => read j
  | _ => none

/-- Read a field that may be left out. -/
def optional? {α : Type} (read : Json → Option α) (default : α) : List Json → Option α
  | [] => some default
  | [j] => read j
  | _ => none

/-- The fields of a structure, by name or in order: for each of them the values given. Further items
of an array are refused. -/
def fields? (names : List String) : Json → Option (List (List Json))
  | object members => some (names.map (membersNamed members))
  | array items =>
    if items.length ≤ names.length then
      some ((items.map fun j => [j]) ++ List.replicate (names.length - items.length) [])
    else none
  | _ => none

/-- Read a float. -/
def toFloat? : Json → Option Float
  | number n => n.toFloat?
  | _ => none

/-- Read a float that is written as an integer or as a text. -/
def toDecimal? : Json → Option Float
  | number n => n.toInt?.map Float.ofInt
  | text s => Decimal.readFloat s.toList
  | _ => none

/-- Read an integer. -/
def toInt? : Json → Option Int
  | number n => n.toInt?
  | _ => none

/-- Read a count. -/
def toNat? (j : Json) : Option Nat := do
  let i ← j.toInt?
  if i < 0 then none else some i.toNat

/-- The items of an array. -/
def toList? : Json → Option (List Json)
  | array items => some items
  | _ => none

/-- The members of an object whose names are characters. -/
def entries? : Json → Option (List (String × Json))
  | object members => some (members.filterMap fun m => m.1.map fun name => (name, m.2))
  | _ => none

/-- The value of a name, the last one if there are several. -/
def member? (j : Json) (name : String) : Option Json :=
  match j with
  | object members => (membersNamed members name).getLast?
  | _ => none

/-- The value of a name that is not null. -/
def given? (j : Json) (name : String) : Option Json :=
  match j.member? name with
  | some null => none
  | v => v

/-- The string of a name. -/
def textAt? (j : Json) (name : String) : Option String := do (← j.member? name).toText?

/-- The list of a name; an empty one if nothing is given. -/
def listAt? (j : Json) (name : String) : Option (List Json) :=
  match j.given? name with
  | some v => v.toList?
  | none => some []

/-- The table of a name; an empty one if nothing is given. -/
def entriesAt? (j : Json) (name : String) : Option (List (String × Json)) :=
  match j.given? name with
  | some v => v.entries?
  | none => some []

/-- Whether a name has the value true. -/
def flagAt (j : Json) (name : String) : Bool :=
  match j.member? name with
  | some (bool b) => b
  | _ => false

/-- The JSON form of an optional string. -/
def ofOptionalText : Option String → Json
  | none => null
  | some s => text s

end Json

end ReactiveView
