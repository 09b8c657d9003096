/-!
This module contains search and replacement in texts, given as lists of characters.
-/

namespace ReactiveView

namespace Search

/-- Whether `needle` occurs in a text. -/
def contains (needle : List Char) : List Char → Bool
  | [] => needle.isEmpty
  | c :: rest => needle.isPrefixOf (c :: rest) || contains needle rest

/-- Replace the occurrences of a non-empty text from the left, the first `skip` characters being
the rest of an occurrence that has been replaced already. -/
def replaceFrom (needle replacement : List Char) : Nat → List Char → List Char
  | _, [] => []
  | skip + 1, _ :: rest => replaceFrom needle replacement skip rest
  | 0, c :: rest =>
    if needle.isPrefixOf (c :: rest) then
      replacement ++ replaceFrom needle replacement (needle.length - 1) rest
    else c :: replaceFrom needle replacement 0 rest

/-- Replace every occurrence of `needle`. The empty text occurs in front of every character and at
the end. -/
def replace (needle replacement : List Char) (text : List Char) : List Char :=
  if needle.isEmpty then replacement ++ text.flatMap fun c => c :: replacement
  else replaceFrom needle replacement 0 text

end Search

end ReactiveView
