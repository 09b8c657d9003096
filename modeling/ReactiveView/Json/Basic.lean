import ReactiveView.Decimal.Reading

/-!
This module contains JSON values as they are written: numbers keep their digits, objects keep every
member in its place, repeated names included.

A number is read as a float in two steps: the leading digits that fit into 64 bits, and then one
scaling by a power of ten. Its last bit can therefore differ from that of the nearest float.
-/

namespace ReactiveView

/--
A number as it is written.
-/
structure JsonNumber where
  /-- Whether a minus stands in front. -/
  negative : Bool := false
  /-- The digits of the whole part. -/
  whole : List Char
  /-- The digits behind the point. -/
  places : List Char := []
  /-- The exponent. -/
  exponent : Option Int := none
  deriving Repr, DecidableEq

/--
A JSON value. A string, and the name of a member, is `none` if an escape in it stands for one half
of a surrogate pair, which is no character.
-/
inductive Json where
  /-- Nothing. -/
  | null
  /-- A truth value. -/
  | bool (b : Bool)
  /-- A number. -/
  | number (n : JsonNumber)
  /-- A string. -/
  | string (s : Option String)
  /-- An array. -/
  | array (items : List Json)
  /-- An object. -/
  | object (members : List (Option String × Json))
  deriving Inhabited

namespace JsonNumber

/-- The greatest significand that fits into 64 bits. -/
def significandLimit : Nat := Nat.pow 2 64 - 1

/-- The significand after one more digit, if it still fits. -/
def extend? (significand : Nat) (digit : Char) : Option Nat :=
  let next := significand * 10 + (digit.toNat - '0'.toNat)
  if next ≤ significandLimit then some next else none

/-- Read the whole part: the digits that fit, and how many are left. -/
def takeWhole (significand : Nat) : List Char → Nat × Nat
  | [] => (significand, 0)
  | d :: rest =>
    match extend? significand d with
    | some next => takeWhole next rest
    | none => (significand, rest.length + 1)

/-- Read digits behind the point: those that fit, and how many they are. -/
def takePlaces (significand taken : Nat) : List Char → Nat × Nat
  | [] => (significand, taken)
  | d :: rest =>
    match extend? significand d with
    | some next => takePlaces next (taken + 1) rest
    | none => (significand, taken)

/-- Scale by a power of ten; nothing comes back beyond the range of floats. A scale that is no
float itself is applied in steps, of which three bring every significand to zero. -/
def scale : Nat → Float → Int → Option Float
  | 0, x, _ => some x
  | n + 1, x, e =>
    if e.natAbs ≤ 308 then
      let power := Decimal.nearestFloat 1 e.natAbs
      if e < 0 then some (x / power)
      else
        let y := x * power
        if y.isInf then none else some y
    else if x == 0 then some x
    else if e < 0 then scale n (x / 1.0e308) (e + 308)
    else none

/-- The float of a number, if it is within range. -/
def toFloat? (n : JsonNumber) : Option Float :=
  let (significand, left) := takeWhole 0 n.whole
  let (significand, taken) := takePlaces significand 0 n.places
  let e : Int := (left : Int) - taken + n.exponent.getD 0
  (scale 4 significand.toUInt64.toFloat e).map fun x => if n.negative then -x else x

/-- The integer of a number that is written without point and exponent. -/
def toInt? (n : JsonNumber) : Option Int :=
  if n.places.isEmpty && n.exponent.isNone then
    let m : Int := Nat.ofDigitChars 10 n.whole 0
    some (if n.negative then -m else m)
  else none

end JsonNumber

namespace Json

/-- A string that is all characters. -/
@[match_pattern]
def text (s : String) : Json := string (some s)

mutual

/-- How deeply arrays and objects are nested. -/
def depth : Json → Nat
  | array items => depthOfItems items + 1
  | object members => depthOfMembers members + 1
  | _ => 0

/-- The greatest depth of the items. -/
def depthOfItems : List Json → Nat
  | [] => 0
  | j :: rest => max (depth j) (depthOfItems rest)

/-- The greatest depth of the members. -/
def depthOfMembers : List (Option String × Json) → Nat
  | [] => 0
  | (_, j) :: rest => max (depth j) (depthOfMembers rest)

end

mutual

/-- Whether all strings and names are characters and all numbers are within the range of floats. -/
def isSound : Json → Bool
  | number n => n.toFloat?.isSome
  | string s => s.isSome
  | array items => areSound items
  | object members => areSoundMembers members
  | _ => true

/-- Whether all items are sound. -/
def areSound : List Json → Bool
  | [] => true
  | j :: rest => isSound j && areSound rest

/-- Whether all members and their names are sound. -/
def areSoundMembers : List (Option String × Json) → Bool
  | [] => true
  | (name, j) :: rest => name.isSome && isSound j && areSoundMembers rest

end

end Json

end ReactiveView
