import ReactiveView.Decimal.Reading

/-!
This module contains the tokens of the expression language, the scanner that finds them in a source
text, and the causes for which a source is refused.

A token knows the bytes it covers. Scanning goes through the source character by character: where a
lexeme starts, its length is determined by looking ahead and the characters behind its first one are
passed over.
-/

namespace ReactiveView

/--
Why a source is refused.
-/
inductive SyntaxFault where
  | unexpectedCharacter (c : Char)
  | integerTooLarge (digits : String)
  | unterminatedString
  | expectedOperator (operator : String)
  | expectedElse
  | expectedAttributeName
  | unexpectedKeyword (name : String)
  | unexpectedOperator (operator : String)
  | unexpectedEnd
  | trailingInput
  | onlyAttributeAssignment
  | expectedStatement
  | notAnAttributeReference
  /-- The source is nested deeper than the budget of the parser; no source reaches this. -/
  | tooDeep
  deriving Repr, DecidableEq

/-- The message of a fault. -/
def SyntaxFault.message : SyntaxFault → String
  | unexpectedCharacter c => s!"unexpected character '{c}'"
  | integerTooLarge digits => s!"integer '{digits}' is too large"
  | unterminatedString => "unterminated string"
  | expectedOperator op => s!"expected '{op}'"
  | expectedElse => "expected 'else'"
  | expectedAttributeName => "expected attribute name"
  | unexpectedKeyword n => s!"unexpected keyword '{n}'"
  | unexpectedOperator op => s!"unexpected '{op}'"
  | unexpectedEnd => "unexpected end of input"
  | trailingInput => "unexpected trailing input"
  | onlyAttributeAssignment => "only attribute assignment is supported"
  | expectedStatement => "expected a statement"
  | notAnAttributeReference => "delegate expression must be an attribute reference"
  | tooDeep => "expression is nested too deeply"

/--
A refused source: the cause and the byte where it was found.
-/
structure SyntaxError where
  /-- The cause. -/
  fault : SyntaxFault
  /-- The byte offset in the source. -/
  offset : Nat
  deriving Repr, DecidableEq

/-- The message of a syntax error. -/
def SyntaxError.message (e : SyntaxError) : String := s!"{e.fault.message} (at offset {e.offset})"

/--
The operators and delimiters of the language.
-/
inductive Punct where
  | floorDiv | equal | notEqual | lessEqual | greaterEqual | plus | minus | star | slash | percent
  | less | greater | assign | openParen | closeParen | openBracket | closeBracket | comma | dot
  | semicolon
  deriving Repr, DecidableEq

namespace Punct

/-- How it is written. -/
def text : Punct → String
  | floorDiv => "//" | equal => "==" | notEqual => "!=" | lessEqual => "<=" | greaterEqual => ">="
  | plus => "+" | minus => "-" | star => "*" | slash => "/" | percent => "%" | less => "<"
  | greater => ">" | assign => "=" | openParen => "(" | closeParen => ")" | openBracket => "["
  | closeBracket => "]" | comma => "," | dot => "." | semicolon => ";"

/-- The longest operator at the front of a text, and the count of its characters. -/
def scan? : List Char → Option (Punct × Nat)
  | '/' :: '/' :: _ => some (floorDiv, 2)
  | '=' :: '=' :: _ => some (equal, 2)
  | '!' :: '=' :: _ => some (notEqual, 2)
  | '<' :: '=' :: _ => some (lessEqual, 2)
  | '>' :: '=' :: _ => some (greaterEqual, 2)
  | '+' :: _ => some (plus, 1)
  | '-' :: _ => some (minus, 1)
  | '*' :: _ => some (star, 1)
  | '/' :: _ => some (slash, 1)
  | '%' :: _ => some (percent, 1)
  | '<' :: _ => some (less, 1)
  | '>' :: _ => some (greater, 1)
  | '=' :: _ => some (assign, 1)
  | '(' :: _ => some (openParen, 1)
  | ')' :: _ => some (closeParen, 1)
  | '[' :: _ => some (openBracket, 1)
  | ']' :: _ => some (closeBracket, 1)
  | ',' :: _ => some (comma, 1)
  | '.' :: _ => some (dot, 1)
  | ';' :: _ => some (semicolon, 1)
  | _ => none

end Punct

/--
What a token says.
-/
inductive Lexeme where
  /-- A whole number. -/
  | int (n : Nat)
  /-- A number with a point or an exponent. -/
  | float (x : Float)
  /-- A quoted text, escapes resolved. -/
  | str (s : String)
  /-- A name or keyword. -/
  | name (s : String)
  /-- An operator or delimiter. -/
  | punct (p : Punct)

/--
A lexeme and the bytes of the source that it covers.
-/
structure Token where
  /-- What the token says. -/
  lexeme : Lexeme
  /-- The offset of its first byte. -/
  start : Nat
  /-- The offset behind its last byte. -/
  stop : Nat

namespace Token

/-- Blanks between tokens: space, tab, line feed, form feed, carriage return. -/
def isBlank (c : Char) : Bool :=
  c = ' ' || c = '\t' || c = '\n' || c = '\x0c' || c = '\r'

/-- What a name starts with. -/
def startsName (c : Char) : Bool := c = '_' || c.isAlpha

/-- What a name goes on with. -/
def inName (c : Char) : Bool := c = '_' || c.isAlphanum

/-- What an escaped character stands for; unknown escapes keep their backslash. -/
def unescape (c : Char) : List Char :=
  if c = 'n' then ['\n']
  else if c = 't' then ['\t']
  else if c = 'r' then ['\r']
  else if c = '0' then ['\x00']
  else if c = '\\' || c = '\'' || c = '"' then [c]
  else ['\\', c]

/-- The rest of a quoted text: what it stands for, and the count of characters up to and including
the closing quote. -/
def readString (quote : Char) : List Char → Option (List Char × Nat)
  | [] => none
  | c :: rest =>
    if c = quote then some ([], 1)
    else if c = '\n' then none
    else if c = '\\' then
      match rest with
      | [] => none
      | e :: rest => (readString quote rest).map fun (s, n) => (unescape e ++ s, n + 2)
    else (readString quote rest).map fun (s, n) => (c :: s, n + 1)

/-- The exponent part at the front of a text, if it has digits: its value and length. -/
def readExponent (cs : List Char) : Option (Int × Nat) :=
  match cs with
  | c :: rest =>
    if c = 'e' || c = 'E' then
      let (negative, body) := Decimal.spanSign rest
      let digits := body.takeWhile Char.isDigit
      if digits.isEmpty then none
      else
        let e : Int := Nat.ofDigitChars 10 digits 0
        some (if negative then -e else e, 1 + (rest.length - body.length) + digits.length)
    else none
  | [] => none

/-- The number at the front of a text and the count of its characters. -/
def readNumber (cs : List Char) : Except SyntaxFault (Lexeme × Nat) :=
  let (whole, rest) := Decimal.spanDigits cs
  let (places, point, rest) := match rest with
    | '.' :: rest =>
      let (places, rest) := Decimal.spanDigits rest
      (places, true, rest)
    | _ => ([], false, rest)
  let length := whole.length + places.length + (if point then 1 else 0)
  let mantissa := Nat.ofDigitChars 10 (whole ++ places) 0
  match readExponent rest with
  | some (e, n) =>
    .ok (.float (Decimal.nearestFloat mantissa (e - places.length)), length + n)
  | none =>
    if point then .ok (.float (Decimal.nearestFloat mantissa (-(places.length : Int))), length)
    else if Word.fits mantissa then .ok (.int mantissa, length)
    else .error (.integerTooLarge (String.ofList whole))

/-- The lexeme at the front of a non-empty text, none for a blank or a comment, and the count of
its characters. -/
def readLexeme (c : Char) (rest : List Char) : Except SyntaxFault (Option Lexeme × Nat) :=
  if isBlank c then .ok (none, 1)
  else if c = '#' then .ok (none, 1 + (rest.takeWhile (· != '\n')).length)
  else if c.isDigit || (c = '.' && (rest.head?.map Char.isDigit).getD false) then do
    let (lexeme, n) ← readNumber (c :: rest)
    .ok (some lexeme, n)
  else if startsName c then
    let text := c :: rest.takeWhile inName
    .ok (some (.name (String.ofList text)), text.length)
  else if c = '\'' || c = '"' then
    match readString c rest with
    | some (s, n) => .ok (some (.str (String.ofList s)), n + 1)
    | none => .error .unterminatedString
  else
    match Punct.scan? (c :: rest) with
    | some (p, n) => .ok (some (.punct p), n)
    | none => .error (.unexpectedCharacter c)

/-- The count of bytes of a text. -/
def byteCount (cs : List Char) : Nat := cs.foldr (fun c total => c.utf8Size + total) 0

/-- The tokens of a text that starts at byte `offset`, the first `skip` characters belonging to a
lexeme that was read already. -/
def scan : Nat → Nat → List Char → Except SyntaxError (List Token)
  | _, _, [] => .ok []
  | skip + 1, offset, c :: rest => scan skip (offset + c.utf8Size) rest
  | 0, offset, c :: rest =>
    match readLexeme c rest with
    | .error fault => .error ⟨fault, offset⟩
    | .ok (none, n) => scan (n - 1) (offset + c.utf8Size) rest
    | .ok (some lexeme, n) => do
      let tokens ← scan (n - 1) (offset + c.utf8Size) rest
      .ok (⟨lexeme, offset, offset + byteCount ((c :: rest).take n)⟩ :: tokens)

end Token

/--
The tokens of a source and the offset of its end.
-/
structure Tokens where
  /-- The tokens, in order. -/
  list : List Token
  /-- The offset behind the last byte of the source. -/
  stop : Nat

/-- Split a source into tokens. -/
def Tokens.ofSource (source : String) : Except SyntaxError Tokens := do
  let tokens ← Token.scan 0 0 source.toList
  .ok { list := tokens, stop := Token.byteCount source.toList }

end ReactiveView
