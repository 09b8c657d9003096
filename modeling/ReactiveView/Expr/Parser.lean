import ReactiveView.Expr.Token
import ReactiveView.Expr.Basic

/-!
This module contains the parser of the expression language. From loose to tight, the levels of the
grammar are: conditional; `or`; `and`; `not`; comparisons; sums; products; signs; attributes, calls
and items; atoms.

Every function of the grammar takes a budget of nested calls, which bounds its recursion, and
returns what it read together with the tokens that are left. Running out of budget is told apart
from refusing the source.
-/

namespace ReactiveView

/--
What reading a part of a source comes to: nothing when the budget ran out, else an error or a
result.
-/
abbrev Attempt (α : Type) := ExceptT SyntaxError Option α

namespace Attempt

/-- The budget ran out. -/
def exhausted {α : Type} : Attempt α := ExceptT.mk none

/-- Refuse the source. -/
def refuse {α : Type} (fault : SyntaxFault) (offset : Nat) : Attempt α :=
  ExceptT.mk (some (.error ⟨fault, offset⟩))

end Attempt

namespace Parser

/-- The names that are no names of values. -/
def keywords : List String := ["and", "or", "not", "if", "else", "in"]

/-- The offset of the next token, or of the end. -/
def nextOffset (stop : Nat) : List Token → Nat
  | [] => stop
  | t :: _ => t.start

/-- Pass over the operator `p`. -/
def eat? (p : Punct) : List Token → Option (List Token)
  | ⟨.punct q, _, _⟩ :: rest => if p = q then some rest else none
  | _ => none

/-- Pass over the keyword `word`. -/
def eatWord? (word : String) : List Token → Option (List Token)
  | ⟨.name s, _, _⟩ :: rest => if s = word then some rest else none
  | _ => none

/-- Pass over the operator `p`, which has to be there. -/
def expect (stop : Nat) (p : Punct) (ts : List Token) : Attempt (List Token) :=
  match eat? p ts with
  | some ts => pure ts
  | none => .refuse (.expectedOperator p.text) (nextOffset stop ts)

/--
The levels at which an operator joins operands from the left.
-/
inductive Level where
  | or | and | sum | product
  deriving Repr, DecidableEq

/-- The operator of a level at the front, as the way it joins two operands. -/
def Level.join? : Level → List Token → Option ((Expr → Expr → Expr) × List Token)
  | or, ts => (eatWord? "or" ts).map fun ts => (Expr.or, ts)
  | and, ts => (eatWord? "and" ts).map fun ts => (Expr.and, ts)
  | sum, ⟨.punct .plus, _, _⟩ :: ts => some (Expr.binary .add, ts)
  | sum, ⟨.punct .minus, _, _⟩ :: ts => some (Expr.binary .sub, ts)
  | product, ⟨.punct .star, _, _⟩ :: ts => some (Expr.binary .mul, ts)
  | product, ⟨.punct .floorDiv, _, _⟩ :: ts => some (Expr.binary .floorDiv, ts)
  | product, ⟨.punct .slash, _, _⟩ :: ts => some (Expr.binary .div, ts)
  | product, ⟨.punct .percent, _, _⟩ :: ts => some (Expr.binary .mod, ts)
  | _, _ => none

/-- The comparison operator at the front. -/
def compareOp? : List Token → Option (CompareOp × List Token)
  | ⟨.punct .equal, _, _⟩ :: ts => some (.eq, ts)
  | ⟨.punct .notEqual, _, _⟩ :: ts => some (.ne, ts)
  | ⟨.punct .less, _, _⟩ :: ts => some (.lt, ts)
  | ⟨.punct .lessEqual, _, _⟩ :: ts => some (.le, ts)
  | ⟨.punct .greater, _, _⟩ :: ts => some (.gt, ts)
  | ⟨.punct .greaterEqual, _, _⟩ :: ts => some (.ge, ts)
  | ts =>
    match eatWord? "in" ts with
    | some ts => some (.isIn, ts)
    | none =>
      match eatWord? "not" ts with
      | some ts => (eatWord? "in" ts).map fun ts => (.notIn, ts)
      | none => none

/-- The string literals at the front, joined. -/
def adjacentStrings : List Token → String × List Token
  | ⟨.str s, _, _⟩ :: rest =>
    let (more, rest) := adjacentStrings rest
    (s ++ more, rest)
  | ts => ("", ts)

mutual

/-- A conditional, or what is tighter. -/
def expression (stop : Nat) : Nat → List Token → Attempt (Expr × List Token)
  | 0, _ => .exhausted
  | n + 1, ts => do
    let (body, ts) ← chain stop n .or ts
    match eatWord? "if" ts with
    | none => pure (body, ts)
    | some ts =>
      let (test, ts) ← chain stop n .or ts
      match eatWord? "else" ts with
      | none => .refuse .expectedElse (nextOffset stop ts)
      | some ts =>
        let (orelse, ts) ← expression stop n ts
        pure (.ite test body orelse, ts)

/-- Operands joined by the operators of a level. -/
def chain (stop : Nat) : Nat → Level → List Token → Attempt (Expr × List Token)
  | 0, _, _ => .exhausted
  | n + 1, level, ts => do
    let (first, ts) ← operand stop n level ts
    chainRest stop n level first ts

/-- The operators of a level and their right operands, behind the left operand `left`. -/
def chainRest (stop : Nat) : Nat → Level → Expr → List Token → Attempt (Expr × List Token)
  | 0, _, _, _ => .exhausted
  | n + 1, level, left, ts =>
    match level.join? ts with
    | none => pure (left, ts)
    | some (join, ts) => do
      let (right, ts) ← operand stop n level ts
      chainRest stop n level (join left right) ts

/-- An operand of a level: the level below. -/
def operand (stop : Nat) : Nat → Level → List Token → Attempt (Expr × List Token)
  | 0, _, _ => .exhausted
  | n + 1, .or, ts => chain stop n .and ts
  | n + 1, .and, ts => negation stop n ts
  | n + 1, .sum, ts => chain stop n .product ts
  | n + 1, .product, ts => signed stop n ts

/-- `not`, or what is tighter. -/
def negation (stop : Nat) : Nat → List Token → Attempt (Expr × List Token)
  | 0, _ => .exhausted
  | n + 1, ts =>
    match eatWord? "not" ts with
    | some ts => do
      let (e, ts) ← negation stop n ts
      pure (.unary .not e, ts)
    | none => comparison stop n ts

/-- A chain of comparisons, or a sum. -/
def comparison (stop : Nat) : Nat → List Token → Attempt (Expr × List Token)
  | 0, _ => .exhausted
  | n + 1, ts => do
    let (first, ts) ← chain stop n .sum ts
    let (links, ts) ← links stop n ts
    match links with
    | [] => pure (first, ts)
    | _ => pure (.compare first links, ts)

/-- Comparison operators and their right operands. -/
def links (stop : Nat) : Nat → List Token → Attempt (List (CompareOp × Expr) × List Token)
  | 0, _ => .exhausted
  | n + 1, ts =>
    match compareOp? ts with
    | none => pure ([], ts)
    | some (op, ts) => do
      let (right, ts) ← chain stop n .sum ts
      let (more, ts) ← links stop n ts
      pure ((op, right) :: more, ts)

/-- Signs, or what is tighter. -/
def signed (stop : Nat) : Nat → List Token → Attempt (Expr × List Token)
  | 0, _ => .exhausted
  | n + 1, ⟨.punct .minus, _, _⟩ :: ts => do
    let (e, ts) ← signed stop n ts
    pure (.unary .neg e, ts)
  | n + 1, ⟨.punct .plus, _, _⟩ :: ts => do
    let (e, ts) ← signed stop n ts
    pure (.unary .pos e, ts)
  | n + 1, ts => do
    let (e, ts) ← atom stop n ts
    postfixRest stop n e ts

/-- Attributes, calls and items behind the expression `base`. -/
def postfixRest (stop : Nat) : Nat → Expr → List Token → Attempt (Expr × List Token)
  | 0, _, _ => .exhausted
  | n + 1, base, ⟨.punct .dot, _, _⟩ :: ts =>
    match ts with
    | ⟨.name s, _, _⟩ :: ts => postfixRest stop n (.attr base s) ts
    | ts => .refuse .expectedAttributeName (nextOffset stop ts)
  | n + 1, base, ⟨.punct .openParen, _, _⟩ :: ts => do
    let ((arguments, _), ts) ← sequence stop n .closeParen ts
    postfixRest stop n (.call base arguments) ts
  | n + 1, base, ⟨.punct .openBracket, _, _⟩ :: ts => do
    let (index, ts) ← expression stop n ts
    let ts ← expect stop .closeBracket ts
    postfixRest stop n (.item base index) ts
  | _ + 1, base, ts => pure (base, ts)

/-- Expressions between commas up to the delimiter `close`, and whether a comma follows the
first. -/
def sequence (stop : Nat) : Nat → Punct → List Token → Attempt ((List Expr × Bool) × List Token)
  | 0, _, _ => .exhausted
  | n + 1, close, ts =>
    match eat? close ts with
    | some ts => pure (([], false), ts)
    | none => do
      let (first, ts) ← expression stop n ts
      match eat? .comma ts with
      | some ts =>
        let ((more, _), ts) ← sequence stop n close ts
        pure ((first :: more, true), ts)
      | none =>
        let ts ← expect stop close ts
        pure (([first], false), ts)

/-- A literal, a name, a list or an expression in parentheses. -/
def atom (stop : Nat) : Nat → List Token → Attempt (Expr × List Token)
  | 0, _ => .exhausted
  | _ + 1, [] => .refuse .unexpectedEnd stop
  | n + 1, ⟨lexeme, start, _⟩ :: ts =>
    match lexeme with
    | .int i => pure (.literal (.int i), ts)
    | .float x => pure (.literal (.float x), ts)
    | .str s =>
      let (more, ts) := adjacentStrings ts
      pure (.literal (.str (s ++ more)), ts)
    | .name s =>
      if s = "True" then pure (.literal (.bool true), ts)
      else if s = "False" then pure (.literal (.bool false), ts)
      else if s = "None" then pure (.literal .none, ts)
      else if s ∈ keywords then .refuse (.unexpectedKeyword s) start
      else pure (.name s, ts)
    | .punct .openParen => do
      let ((items, comma), ts) ← sequence stop n .closeParen ts
      match items, comma with
      | [e], false => pure (e, ts)
      | items, _ => pure (.list items, ts)
    | .punct .openBracket => do
      let ((items, _), ts) ← sequence stop n .closeBracket ts
      pure (.list items, ts)
    | .punct p => .refuse (.unexpectedOperator p.text) start

end

/-- An expression, or an assignment to an attribute. -/
def statement (stop budget : Nat) (ts : List Token) : Attempt (Statement × List Token) := do
  let start := nextOffset stop ts
  let (target, ts) ← expression stop budget ts
  match eat? .assign ts with
  | none => pure (.expr target, ts)
  | some ts =>
    let (value, ts) ← expression stop budget ts
    match target with
    | .attr object attr => pure (.assign object attr value, ts)
    | _ => .refuse .onlyAttributeAssignment start

/-- The tokens behind any semicolons. -/
def dropSemicolons : List Token → List Token
  | ⟨.punct .semicolon, _, _⟩ :: ts => dropSemicolons ts
  | ts => ts

/-- Statements between semicolons. -/
def statements (stop budget : Nat) : Nat → List Token → Attempt (List Statement × List Token)
  | 0, _ => .exhausted
  | n + 1, ts =>
    match dropSemicolons ts with
    | [] => pure ([], [])
    | ts => do
      let (first, ts) ← statement stop budget ts
      match eat? .semicolon ts with
      | none => pure ([first], ts)
      | some ts =>
        let (more, ts) ← statements stop budget n ts
        pure (first :: more, ts)

/-- Nothing may be left. -/
def finish {α : Type} (stop : Nat) (result : α × List Token) : Attempt α :=
  match result.2 with
  | [] => pure result.1
  | t :: _ => .refuse .trailingInput (nextOffset stop [t])

/-- A budget that no source of so many tokens uses up: between two tokens the grammar descends
through fewer than sixteen levels. -/
def budget (tokens : List Token) : Nat := 16 * (tokens.length + 1)

/-- The outcome of an attempt whose budget was large enough. -/
def settle {α : Type} (attempt : Attempt α) : Except SyntaxError α :=
  match attempt.run with
  | some result => result
  | none => .error ⟨.tooDeep, 0⟩

end Parser

/-- Parse a single expression. -/
def Expr.parse (source : String) : Except SyntaxError Expr := do
  let tokens ← Tokens.ofSource source
  Parser.settle do
    let result ← Parser.expression tokens.stop (Parser.budget tokens.list) tokens.list
    Parser.finish tokens.stop result

/-- Parse statements between semicolons; at least one is required. -/
def Statement.parseAll (source : String) : Except SyntaxError (List Statement) := do
  let tokens ← Tokens.ofSource source
  let statements ← Parser.settle do
    let budget := Parser.budget tokens.list
    let result ← Parser.statements tokens.stop budget budget tokens.list
    Parser.finish tokens.stop result
  if statements.isEmpty then .error ⟨.expectedStatement, 0⟩ else .ok statements

end ReactiveView
