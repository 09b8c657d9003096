import ReactiveView.Json.Basic
import ReactiveView.Value.Basic

/-!
This module contains the writer of JSON text: no blanks, short escapes where there are any, and all
other characters from the space on as they are.
-/

namespace ReactiveView

namespace Json

/-- A hexadecimal digit. -/
def hexChar (n : Nat) : Char := if n < 10 then Char.ofNat (48 + n) else Char.ofNat (87 + n)

/-- A character inside of a string. -/
def escape (c : Char) : List Char :=
  if c = '"' || c = '\\' then ['\\', c]
  else if c = '\x08' then ['\\', 'b']
  else if c = '\x0c' then ['\\', 'f']
  else if c = '\n' then ['\\', 'n']
  else if c = '\r' then ['\\', 'r']
  else if c = '\t' then ['\\', 't']
  else if c.toNat < 0x20 then
    ['\\', 'u', '0', '0', hexChar (c.toNat / 16), hexChar (c.toNat % 16)]
  else [c]

/-- A string between its quotes; a string that is not all characters has no text. -/
def quote (s : Option String) : List Char := '"' :: (s.getD "").toList.flatMap escape ++ ['"']

/-- A number with the digits that it was read from. -/
def numberChars (n : JsonNumber) : List Char :=
  (if n.negative then ['-'] else []) ++ n.whole
    ++ (if n.places.isEmpty then [] else '.' :: n.places)
    ++ (match n.exponent with
      | some e => 'e' :: Value.intText e
      | none => [])

mutual

/-- The text of a value. -/
def chars : Json → List Char
  | null => "null".toList
  | bool b => if b then "true".toList else "false".toList
  | number n => numberChars n
  | string s => quote s
  | array [] => ['[', ']']
  | array (j :: rest) => '[' :: chars j ++ itemChars rest
  | object [] => ['\x7b', '\x7d']
  | object ((name, j) :: rest) => '\x7b' :: quote name ++ ':' :: chars j ++ memberChars rest

/-- The items behind the first one and the end of the array. -/
def itemChars : List Json → List Char
  | [] => [']']
  | j :: rest => ',' :: chars j ++ itemChars rest

/-- The members behind the first one and the end of the object. -/
def memberChars : List (Option String × Json) → List Char
  | [] => ['\x7d']
  | (name, j) :: rest => ',' :: quote name ++ ':' :: chars j ++ memberChars rest

end

/-- Write a value. -/
def write (j : Json) : String := String.ofList j.chars

end Json

end ReactiveView
