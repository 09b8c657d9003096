import ReactiveView.Value.Error
import ReactiveView.Decimal.Fixed

/-!
This module contains `template % arguments`. A template is a list of pieces: literal characters and
directives `%`, any number of `-`, an optional width, an optional `.` with an optional precision,
and a conversion character. Filling a template goes through its pieces from the left, each directive
but `%%` taking the next argument.
-/

namespace ReactiveView

/--
A directive of a template.
-/
structure Directive where
  /-- Whether the text goes to the left of its field. -/
  leftAligned : Bool
  /-- The least count of characters. -/
  width : Option Nat
  /-- The count of decimal places, or the greatest count of characters. -/
  precision : Option Nat
  /-- The conversion character; none at the end of the template. -/
  conversion : Option Char
  deriving Repr, DecidableEq

/--
A piece of a template.
-/
inductive Piece where
  /-- A character that stands for itself. -/
  | literal (c : Char)
  /-- A directive. -/
  | directive (d : Directive)
  deriving Repr, DecidableEq

namespace Template

/-- The greatest width and precision. -/
def fieldLimit : Nat := 4096

/-- A decimal number at the front, if there is one, and what follows. -/
def readCount (cs : List Char) : Option Nat × List Char :=
  match cs.takeWhile Char.isDigit with
  | [] => (none, cs)
  | digits => (some (Nat.ofDigitChars 10 digits 0), cs.dropWhile Char.isDigit)

/-- The directive behind a `%`, and the text behind the directive. -/
def readDirective (cs : List Char) : Directive × List Char :=
  let body := cs.dropWhile (· = '-')
  let leftAligned := body.length < cs.length
  let (width, body) := readCount body
  let (precision, body) := match body with
    | '.' :: rest =>
      let (precision, rest) := readCount rest
      (some (precision.getD 0), rest)
    | _ => (none, body)
  match body with
  | [] => (⟨leftAligned, width, precision, none⟩, [])
  | c :: rest => (⟨leftAligned, width, precision, some c⟩, rest)

/-- The pieces of a template, the first `skip` characters belonging to a directive that was read
already. -/
def piecesFrom : Nat → List Char → List Piece
  | _, [] => []
  | skip + 1, _ :: rest => piecesFrom skip rest
  | 0, c :: rest =>
    if c = '%' then
      let (d, after) := readDirective rest
      .directive d :: piecesFrom (rest.length - after.length) rest
    else .literal c :: piecesFrom 0 rest

/-- The pieces of a template. -/
def pieces (cs : List Char) : List Piece := piecesFrom 0 cs

/-- The text of an argument under a conversion. -/
def convert (conversion : Char) (precision : Option Nat) (v : Value) :
    Except FormatFault (List Char) :=
  if conversion = 's' then
    .ok (match precision with
      | some p => v.text.toList.take p
      | none => v.text.toList)
  else if conversion = 'r' then .ok v.reprChars
  else if conversion = 'd' || conversion = 'i' then
    match v with
    | .int i => .ok (Value.intText i)
    | .bool b => .ok (if b then ['1'] else ['0'])
    | .float x =>
      if (Binary.ofFloat x).isFinite then .ok (Value.intText (Word.ofFloat x))
      else .error (.numberRequired conversion v.typeName)
    | _ => .error (.numberRequired conversion v.typeName)
  else if conversion = 'f' then
    match v.asFloat? with
    | some x => .ok (fixedText x (precision.getD 6)).toList
    | none => .error (.numberRequired 'f' v.typeName)
  else .error (.unsupportedConversion conversion)

/-- A text in a field of at least `width` characters. -/
def pad (leftAligned : Bool) (width : Nat) (text : List Char) : List Char :=
  let fill := List.replicate (width - text.length) ' '
  if leftAligned then text ++ fill else fill ++ text

/-- Whether a width or precision is beyond the limit. -/
def Directive.tooWide (d : Directive) : Bool :=
  fieldLimit < d.width.getD 0 || fieldLimit < d.precision.getD 0

/-- Fill in the pieces of a template. -/
def fill : List Piece → List Value → Except FormatFault (List Char)
  | [], [] => .ok []
  | [], _ :: _ => .error .tooManyArguments
  | .literal c :: rest, arguments => do
    let text ← fill rest arguments
    .ok (c :: text)
  | .directive d :: rest, arguments =>
    if Directive.tooWide d then .error (.fieldTooWide fieldLimit)
    else match d.conversion with
      | none => .error .incomplete
      | some c =>
        if c = '%' then do
          let text ← fill rest arguments
          .ok ('%' :: text)
        else match arguments with
          | [] => .error .tooFewArguments
          | v :: arguments => do
            let field ← convert c d.precision v
            let text ← fill rest arguments
            .ok (pad d.leftAligned (d.width.getD 0) field ++ text)

end Template

/-- Fill in a template: a list gives one argument per directive, any other value is one argument. -/
def Template.render (template : String) (arguments : Value) : Except FormatFault String := do
  let arguments := match arguments with
    | .list items => items
    | v => [v]
  let text ← Template.fill (Template.pieces template.toList) arguments
  .ok (String.ofList text)

end ReactiveView
