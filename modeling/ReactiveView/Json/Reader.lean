import ReactiveView.Json.Basic

/-!
This module contains the reader of JSON text: a lexer and a parser with a stack of open arrays and
objects. Both walk their input once, from left to right.
-/

namespace ReactiveView

/--
The lexical elements of JSON.
-/
inductive JsonToken where
  /-- The begin of an object. -/
  | openBrace
  /-- The end of an object. -/
  | closeBrace
  /-- The begin of an array. -/
  | openBracket
  /-- The end of an array. -/
  | closeBracket
  | comma
  | colon
  /-- A string; `none` if it is not all characters. -/
  | string (s : Option String)
  | number (n : JsonNumber)
  | null
  | bool (b : Bool)
  deriving Repr, DecidableEq

namespace JsonToken

/-- The blanks of JSON. -/
def isBlank (c : Char) : Bool := c = ' ' || c = '\n' || c = '\t' || c = '\r'

/-- Whether a character can be part of a number. -/
def isNumeric (c : Char) : Bool :=
  c.isDigit || c = '-' || c = '+' || c = '.' || c = 'e' || c = 'E'

/-- The token of a character that is a token of its own. -/
def ofPunctuation (c : Char) : Option JsonToken :=
  if c = '\x7b' then some openBrace
  else if c = '\x7d' then some closeBrace
  else if c = '[' then some openBracket
  else if c = ']' then some closeBracket
  else if c = ',' then some comma
  else if c = ':' then some colon
  else none

/-- Read the exponent of a number behind its mark. -/
def readExponent (cs : List Char) : Option Int :=
  let (negative, digits) := Decimal.spanSign cs
  if digits.isEmpty || !digits.all Char.isDigit then none
  else
    let e : Int := Nat.ofDigitChars 10 digits 0
    some (if negative then -e else e)

/-- Read a number behind its sign: no leading zeros, and a digit on each side of the point. -/
def readMagnitude (negative : Bool) (cs : List Char) : Option JsonNumber :=
  let (whole, rest) := Decimal.spanDigits cs
  if whole.isEmpty || (whole.head? = some '0' && whole.length > 1) then none
  else
    let (pointed, places, rest) := match rest with
      | '.' :: rest =>
        let (places, rest) := Decimal.spanDigits rest
        (true, places, rest)
      | _ => (false, [], rest)
    if pointed && places.isEmpty then none
    else match rest with
      | [] => some { negative, whole, places }
      | c :: rest =>
        if c = 'e' || c = 'E' then
          (readExponent rest).map fun e => { negative, whole, places, exponent := some e }
        else none

/-- Read a number. -/
def readNumber : List Char → Option JsonNumber
  | '-' :: rest => readMagnitude true rest
  | cs => readMagnitude false cs

/-- The value of a hexadecimal digit. -/
def hexDigit? (c : Char) : Option Nat :=
  if c.isDigit then some (c.toNat - '0'.toNat)
  else if 'a' ≤ c && c ≤ 'f' then some (c.toNat - 'a'.toNat + 10)
  else if 'A' ≤ c && c ≤ 'F' then some (c.toNat - 'A'.toNat + 10)
  else none

/-- The value of four hexadecimal digits. -/
def hexValue? (a b c d : Char) : Option Nat := do
  let a ← hexDigit? a
  let b ← hexDigit? b
  let c ← hexDigit? c
  let d ← hexDigit? d
  pure (((a * 16 + b) * 16 + c) * 16 + d)

/-- The character of a short escape. -/
def shortEscape? (c : Char) : Option Char :=
  if c = '"' || c = '\\' || c = '/' then some c
  else if c = 'b' then some '\x08'
  else if c = 'f' then some '\x0c'
  else if c = 'n' then some '\n'
  else if c = 'r' then some '\r'
  else if c = 't' then some '\t'
  else none

/--
A string that is being read.
-/
structure Draft where
  /-- The characters so far, the latest first; `none` once half a pair has been met. -/
  chars : Option (List Char) := some []
  /-- The first half of a pair that waits for the second. -/
  half : Option Nat := none

namespace Draft

/-- A first half that no second one follows is no character. -/
def settle (d : Draft) : Draft :=
  match d.half with
  | none => d
  | some _ => { chars := none }

/-- Add a character. -/
def add (d : Draft) (c : Char) : Draft :=
  let d := d.settle
  { d with chars := d.chars.map (c :: ·) }

/-- Add a code unit. -/
def addUnit (d : Draft) (unit : Nat) : Draft :=
  if 0xDC00 ≤ unit && unit ≤ 0xDFFF then
    match d.half with
    | some high =>
      let code := 0x10000 + (high - 0xD800) * 0x400 + (unit - 0xDC00)
      { chars := d.chars.map (Char.ofNat code :: ·) }
    | none => { chars := none }
  else if 0xD800 ≤ unit && unit ≤ 0xDBFF then { d.settle with half := some unit }
  else d.add (Char.ofNat unit)

/-- The string. -/
def finish (d : Draft) : Option String := d.settle.chars.map fun cs => String.ofList cs.reverse

end Draft

mutual

/-- Read the tokens of a text. -/
def lex : List Char → Option (List JsonToken)
  | [] => some []
  | 'n' :: 'u' :: 'l' :: 'l' :: rest => (lex rest).map (null :: ·)
  | 't' :: 'r' :: 'u' :: 'e' :: rest => (lex rest).map (bool true :: ·)
  | 'f' :: 'a' :: 'l' :: 's' :: 'e' :: rest => (lex rest).map (bool false :: ·)
  | c :: rest =>
    if isBlank c then lex rest
    else if c = '"' then lexString {} rest
    else if isNumeric c then lexNumber [c] rest
    else match ofPunctuation c with
      | some t => (lex rest).map (t :: ·)
      | none => none

/-- Read the rest of a string, and what follows. -/
def lexString (d : Draft) : List Char → Option (List JsonToken)
  | [] => none
  | '\\' :: 'u' :: a :: b :: c :: e :: rest =>
    match hexValue? a b c e with
    | some unit => lexString (d.addUnit unit) rest
    | none => none
  | '\\' :: c :: rest =>
    match shortEscape? c with
    | some c => lexString (d.add c) rest
    | none => none
  | c :: rest =>
    if c = '"' then (lex rest).map (string d.finish :: ·)
    else if c.toNat < 0x20 || c = '\\' then none
    else lexString (d.add c) rest

/-- Read the rest of a number, and what follows. -/
def lexNumber (taken : List Char) : List Char → Option (List JsonToken)
  | [] => (readNumber taken.reverse).map fun n => [number n]
  | c :: rest =>
    if isNumeric c then lexNumber (c :: taken) rest
    else match readNumber taken.reverse with
      | none => none
      | some n =>
        if isBlank c then (lex rest).map (number n :: ·)
        else match ofPunctuation c with
          | some t => (lex rest).map fun ts => number n :: t :: ts
          | none => none

end

end JsonToken

namespace Json

/--
An array or object that is not closed yet.
-/
inductive Frame where
  /-- An array and its items so far, the latest first. -/
  | array (items : List Json)
  /-- An object, its members so far, the latest first, and the name of the next one. -/
  | object (members : List (Option String × Json)) (name : Option String)

mutual

/-- Read a value, and what follows it. -/
def value : List JsonToken → List Frame → Option Json
  | .null :: rest, stack => after null rest stack
  | .bool b :: rest, stack => after (bool b) rest stack
  | .number n :: rest, stack => after (number n) rest stack
  | .string s :: rest, stack => after (string s) rest stack
  | .openBracket :: .closeBracket :: rest, stack => after (array []) rest stack
  | .openBracket :: rest, stack => value rest (.array [] :: stack)
  | .openBrace :: .closeBrace :: rest, stack => after (object []) rest stack
  | .openBrace :: .string name :: .colon :: rest, stack => value rest (.object [] name :: stack)
  | _, _ => none

/-- Read what follows a value. -/
def after (j : Json) : List JsonToken → List Frame → Option Json
  | [], [] => some j
  | .comma :: rest, .array items :: stack => value rest (.array (j :: items) :: stack)
  | .closeBracket :: rest, .array items :: stack => after (array (j :: items).reverse) rest stack
  | .comma :: .string next :: .colon :: rest, .object members name :: stack =>
    value rest (.object ((name, j) :: members) next :: stack)
  | .closeBrace :: rest, .object members name :: stack =>
    after (object ((name, j) :: members).reverse) rest stack
  | _, _ => none

end

/-- Read a text. -/
def read (s : String) : Option Json := do value (← JsonToken.lex s.toList) []

end Json

end ReactiveView
