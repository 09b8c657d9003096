import ReactiveView.Text.GraphicTable
import ReactiveView.Text.Letters

/-!
This module contains the two ways in which a text is written inside the text of another value:
between single quotes, as the expression language reads it, and between double quotes, as the
attributes of an object are shown.
-/

namespace ReactiveView

namespace Quoted

/-- A backslash or single quote is written behind a backslash, all else as it is. -/
def escape : List Char → List Char
  | [] => []
  | c :: rest => if c = '\\' || c = '\'' then '\\' :: c :: escape rest else c :: escape rest

/-- A text between single quotes. -/
def single (cs : List Char) : List Char := '\'' :: escape cs ++ ['\'']

/-- Whether a character is shown by its code: it has no picture of its own. -/
def isHidden (c : Char) : Bool :=
  !(0x20 ≤ c.toNat && c.toNat < 0x7F) &&
    (Letters.inRanges GraphicTable.unseen c.toNat ||
      Letters.inRanges GraphicTable.extending c.toNat)

/-- A character between double quotes. -/
def doubleChar (c : Char) : List Char :=
  if c = '"' || c = '\\' then ['\\', c]
  else if c = '\n' then ['\\', 'n']
  else if c = '\r' then ['\\', 'r']
  else if c = '\t' then ['\\', 't']
  else if c.toNat = 0 then ['\\', '0']
  else if isHidden c then
    ['\\', 'u', '\x7b'] ++ Nat.toDigits 16 c.toNat ++ ['\x7d']
  else [c]

/-- A text between double quotes. -/
def double (cs : List Char) : List Char := '"' :: cs.flatMap doubleChar ++ ['"']

theorem escape_append (s t : List Char) : escape (s ++ t) = escape s ++ escape t := by
  induction s with
  | nil => rfl
  | cons c rest ih =>
    simp only [List.cons_append, escape, ih]
    split <;> rfl

end Quoted

end ReactiveView
