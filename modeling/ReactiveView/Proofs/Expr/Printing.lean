import ReactiveView.Expr.Parser
import ReactiveView.Text.Quoted

/-!
This module contains how expressions are written: token by token, with parentheses just where an
operand binds looser than its position allows.
-/

namespace ReactiveView

/-- How a lexeme is written. -/
def Lexeme.text : Lexeme → String
  | int n => toString n
  | float x => toString x
  | str s => String.ofList (Quoted.single s.toList)
  | name s => s
  | punct p => p.text

/-- Lexemes with single spaces between them. -/
def Lexeme.spaced (ls : List Lexeme) : String := " ".intercalate (ls.map Lexeme.text)

/-- The lexeme of a literal. A negative number has none of its own. -/
def Literal.lexeme : Literal → Lexeme
  | none => .name "None"
  | bool true => .name "True"
  | bool false => .name "False"
  | int i => .int i.toNat
  | float x => .float x
  | str s => .str s

/-- The lexeme of a sign or a negation. -/
def UnaryOp.lexeme : UnaryOp → Lexeme
  | neg => .punct .minus
  | pos => .punct .plus
  | not => .name "not"

/-- The lexeme of an arithmetic operator. -/
def BinaryOp.punct : BinaryOp → Punct
  | add => .plus
  | sub => .minus
  | mul => .star
  | div => .slash
  | floorDiv => .floorDiv
  | mod => .percent

/-- The lexemes of a comparison operator. -/
def CompareOp.lexemes : CompareOp → List Lexeme
  | eq => [.punct .equal]
  | ne => [.punct .notEqual]
  | lt => [.punct .less]
  | le => [.punct .lessEqual]
  | gt => [.punct .greater]
  | ge => [.punct .greaterEqual]
  | isIn => [.name "in"]
  | notIn => [.name "not", .name "in"]

/-! ### How tightly operators bind -/

namespace Rank

/-- Conditionals. -/
abbrev conditional : Nat := 0

/-- Disjunctions. -/
abbrev or : Nat := 1

/-- Conjunctions. -/
abbrev and : Nat := 2

/-- Negations. -/
abbrev not : Nat := 3

/-- Comparisons. -/
abbrev comparison : Nat := 4

/-- Sums and differences. -/
abbrev sum : Nat := 5

/-- Products and quotients. -/
abbrev product : Nat := 6

/-- Signs. -/
abbrev sign : Nat := 7

/-- Attributes, items and calls, and what needs no operator. -/
abbrev access : Nat := 8

end Rank

/-- How tightly a sign or a negation binds. -/
def UnaryOp.rank : UnaryOp → Nat
  | neg => Rank.sign
  | pos => Rank.sign
  | not => Rank.not

/-- How tightly an arithmetic operator binds. -/
def BinaryOp.rank : BinaryOp → Nat
  | add => Rank.sum
  | sub => Rank.sum
  | _ => Rank.product

namespace Expr

/-- How tightly an expression binds. -/
def rank : Expr → Nat
  | .ite .. => Rank.conditional
  | .or .. => Rank.or
  | .and .. => Rank.and
  | .unary op _ => op.rank
  | .compare .. => Rank.comparison
  | .binary op _ _ => op.rank
  | _ => Rank.access

/-- The lexemes of an operand, in parentheses if it binds looser than its position allows. -/
def within (position : Nat) (e : Expr) (ls : List Lexeme) : List Lexeme :=
  if e.rank < position then .punct .openParen :: (ls ++ [.punct .closeParen]) else ls

mutual

/-- The lexemes of an expression. -/
def lexemes : Expr → List Lexeme
  | .literal value => [value.lexeme]
  | .name s => [.name s]
  | .attr object s => within Rank.access object object.lexemes ++ [.punct .dot, .name s]
  | .item object index =>
    within Rank.access object object.lexemes
      ++ .punct .openBracket :: (index.lexemes ++ [.punct .closeBracket])
  | .call function arguments =>
    within Rank.access function function.lexemes
      ++ .punct .openParen :: (sequenceLexemes arguments ++ [.punct .closeParen])
  | .list items => .punct .openBracket :: (sequenceLexemes items ++ [.punct .closeBracket])
  | .unary op e => op.lexeme :: within op.rank e e.lexemes
  | .binary op left right =>
    within op.rank left left.lexemes
      ++ .punct op.punct :: within (op.rank + 1) right right.lexemes
  | .compare first links => within Rank.sum first first.lexemes ++ linkLexemes links
  | .and left right =>
    within Rank.and left left.lexemes ++ .name "and" :: within (Rank.and + 1) right right.lexemes
  | .or left right =>
    within Rank.or left left.lexemes ++ .name "or" :: within (Rank.or + 1) right right.lexemes
  | .ite test body orelse =>
    within Rank.or body body.lexemes
      ++ .name "if" :: (within Rank.or test test.lexemes ++ .name "else" :: orelse.lexemes)

/-- The lexemes of expressions between commas. -/
def sequenceLexemes : List Expr → List Lexeme
  | [] => []
  | [e] => e.lexemes
  | e :: rest => e.lexemes ++ .punct .comma :: sequenceLexemes rest

/-- The lexemes of comparison operators and their right operands. -/
def linkLexemes : List (CompareOp × Expr) → List Lexeme
  | [] => []
  | (op, e) :: rest => op.lexemes ++ (within Rank.sum e e.lexemes ++ linkLexemes rest)

end

/-- An expression as a source. -/
def render (e : Expr) : String := Lexeme.spaced e.lexemes

end Expr

/-! ### What can be written -/

/-- Whether a text can be a name in a source. -/
def IsIdentifier (s : String) : Prop :=
  ∃ c rest, s.toList = c :: rest ∧ Token.startsName c = true ∧ ∀ d ∈ rest, Token.inName d = true

/-- Literals that have a source: no negative numbers, no floats, no texts of several lines. -/
inductive Literal.Writable : Literal → Prop
  | none : Writable .none
  | bool (b : Bool) : Writable (.bool b)
  | int {i : Int} (hnonneg : 0 ≤ i) (hfits : Word.fits i = true) : Writable (.int i)
  | str {s : String} (hline : '\n' ∉ s.toList) : Writable (.str s)

/-- Expressions that have a source. -/
inductive Expr.Writable : Expr → Prop
  | literal {value : Literal} (h : value.Writable) : Writable (.literal value)
  | name {s : String} (h : IsIdentifier s) (hkeyword : s ∉ Parser.keywords)
      (hconstant : s ∉ ["True", "False", "None"]) : Writable (.name s)
  | attr {object : Expr} {s : String} (hobject : Writable object) (h : IsIdentifier s) :
      Writable (.attr object s)
  | item {object index : Expr} (hobject : Writable object) (hindex : Writable index) :
      Writable (.item object index)
  | call {function : Expr} {arguments : List Expr} (hfunction : Writable function)
      (harguments : ∀ e ∈ arguments, Writable e) : Writable (.call function arguments)
  | list {items : List Expr} (hitems : ∀ e ∈ items, Writable e) : Writable (.list items)
  | unary {op : UnaryOp} {e : Expr} (h : Writable e) : Writable (.unary op e)
  | binary {op : BinaryOp} {left right : Expr} (hleft : Writable left) (hright : Writable right) :
      Writable (.binary op left right)
  | compare {first : Expr} {links : List (CompareOp × Expr)} (hfirst : Writable first)
      (hsome : links ≠ []) (hlinks : ∀ link ∈ links, Writable link.2) :
      Writable (.compare first links)
  | and {left right : Expr} (hleft : Writable left) (hright : Writable right) :
      Writable (.and left right)
  | or {left right : Expr} (hleft : Writable left) (hright : Writable right) :
      Writable (.or left right)
  | ite {test body orelse : Expr} (htest : Writable test) (hbody : Writable body)
      (horelse : Writable orelse) : Writable (.ite test body orelse)

end ReactiveView
