import ReactiveView.Expr.Parser

/-!
This module contains the parser of the expression language as a walk over positions: the tokens and
the end behind them stand at places that are numbered, and the state is the number of the place that
is read next.

A walk sees the places through a function that answers at every number, and does not look where the
places end when it goes on. The position is kept where the source is refused, too.
-/

namespace ReactiveView

/--
What stands at a place: a lexeme, or none at the end, and the offset of its first byte.
-/
structure Spot where
  /-- The lexeme of the token, none at the end. -/
  lexeme? : Option Lexeme
  /-- The byte offset in the source. -/
  offset : Nat

namespace Spot

def isPunct (p : Punct) : Spot → Bool
  | ⟨some (.punct q), _⟩ => p = q
  | _ => false

def isWord (word : String) : Spot → Bool
  | ⟨some (.name s), _⟩ => s = word
  | _ => false

/-- The comparison operator of one token that stands here. -/
def compareOp? (here : Spot) : Option CompareOp :=
  match here.lexeme? with
  | some (.punct .equal) => some .eq
  | some (.punct .notEqual) => some .ne
  | some (.punct .less) => some .lt
  | some (.punct .lessEqual) => some .le
  | some (.punct .greater) => some .gt
  | some (.punct .greaterEqual) => some .ge
  | some (.name s) => if s = "in" then some .isIn else none
  | _ => none

end Spot

namespace Tokens

/-- What stands at the places of a source: its tokens, and the end behind them. -/
def spots (tokens : Tokens) : List Spot :=
  tokens.list.map (fun t => ⟨some t.lexeme, t.start⟩) ++ [⟨none, tokens.stop⟩]

/-- The place of the end. -/
def last (tokens : Tokens) : Nat := tokens.list.length

/-- An offset is that of a token or of the end. -/
def Marks (tokens : Tokens) (offset : Nat) : Prop := ∃ spot ∈ tokens.spots, spot.offset = offset

/-- What is seen at the places of a source is what stands there; beyond the end anything may be
seen. -/
def Shows (tokens : Tokens) (peek : Nat → Spot) : Prop :=
  ∀ i spot, tokens.spots[i]? = some spot → peek i = spot

/-- What is seen where positions beyond the end are taken for that of the end. -/
def clamped (tokens : Tokens) (i : Nat) : Spot :=
  (tokens.spots[min i tokens.last]?).getD ⟨none, tokens.stop⟩

end Tokens

/--
Reading on from a position: nothing when the budget ran out, else an error or a result, and the
position then.
-/
abbrev Walk (α : Type) := ExceptT SyntaxError (StateT Nat Option) α

namespace Walk

/-- What a walk that starts at a position comes to. -/
def outcome {α : Type} (w : Walk α) (p : Nat) : Option (Except SyntaxError α × Nat) := w.run.run p

def exhausted {α : Type} : Walk α := ExceptT.mk fun _ => none

/-- Pass over the next `count` places, whatever stands there. No other step changes the position, so a
walk stops at the furthest position it has had. -/
def skip (count : Nat) : Walk Unit := modify (· + count)

section

variable (peek : Nat → Spot)

/-- What stands `ahead` places behind the position. -/
def look (ahead : Nat) : Walk Spot := return peek ((← get) + ahead)

/-- Refuse the source at the position. -/
def fail {α : Type} (fault : SyntaxFault) : Walk α := do
  throw ⟨fault, (← look peek 0).offset⟩

/-- What stands at the position; it is passed over but for the end. -/
def advance : Walk Spot := do
  let here ← look peek 0
  if here.lexeme?.isSome then skip 1
  return here

/-- Pass over what passes a test, and whether it does. -/
def passIf (test : Spot → Bool) : Walk Bool := do
  if test (← look peek 0) then
    skip 1
    return true
  else
    return false

def eat (p : Punct) : Walk Bool := passIf peek (·.isPunct p)

def eatWord (word : String) : Walk Bool := passIf peek (·.isWord word)

def expect (p : Punct) : Walk Unit := do
  unless ← eat peek p do fail peek (.expectedOperator p.text)

def expectEnd : Walk Unit := do
  if (← look peek 0).lexeme?.isSome then fail peek .trailingInput

def join : Parser.Level → Walk (Option (Expr → Expr → Expr))
  | .or => do
    if ← eatWord peek "or" then return some .or else return none
  | .and => do
    if ← eatWord peek "and" then return some .and else return none
  | .sum => do
    if ← eat peek .plus then return some (.binary .add)
    else if ← eat peek .minus then return some (.binary .sub)
    else return none
  | .product => do
    if ← eat peek .star then return some (.binary .mul)
    else if ← eat peek .floorDiv then return some (.binary .floorDiv)
    else if ← eat peek .slash then return some (.binary .div)
    else if ← eat peek .percent then return some (.binary .mod)
    else return none

/-- The comparison operator, of one token or two. -/
def compareOp : Walk (Option CompareOp) := do
  let here ← look peek 0
  match here.compareOp? with
  | some op =>
    skip 1
    return some op
  | none =>
    if here.isWord "not" then
      if (← look peek 1).isWord "in" then
        skip 2
        return some .notIn
      else
        return none
    else
      return none

def adjacentStrings : Nat → Walk String
  | 0 => exhausted
  | n + 1 => do
    match (← look peek 0).lexeme? with
    | some (.str s) =>
      skip 1
      return s ++ (← adjacentStrings n)
    | _ => return ""

end

/-!
### The grammar

Each function is the one of that name of the parser, on positions in the place of tokens that are left.
-/

mutual

def expression (peek : Nat → Spot) : Nat → Walk Expr
  | 0 => exhausted
  | n + 1 => do
    let body ← chain peek n .or
    if ← eatWord peek "if" then
      let test ← chain peek n .or
      if ← eatWord peek "else" then
        let orelse ← expression peek n
        return .ite test body orelse
      else
        fail peek .expectedElse
    else
      return body

def chain (peek : Nat → Spot) : Nat → Parser.Level → Walk Expr
  | 0, _ => exhausted
  | n + 1, level => do
    let first ← operand peek n level
    chainRest peek n level first

def chainRest (peek : Nat → Spot) : Nat → Parser.Level → Expr → Walk Expr
  | 0, _, _ => exhausted
  | n + 1, level, left => do
    match ← join peek level with
    | none => return left
    | some join =>
      let right ← operand peek n level
      chainRest peek n level (join left right)

def operand (peek : Nat → Spot) : Nat → Parser.Level → Walk Expr
  | 0, _ => exhausted
  | n + 1, .or => chain peek n .and
  | n + 1, .and => negation peek n
  | n + 1, .sum => chain peek n .product
  | n + 1, .product => signed peek n

def negation (peek : Nat → Spot) : Nat → Walk Expr
  | 0 => exhausted
  | n + 1 => do
    if ← eatWord peek "not" then
      let e ← negation peek n
      return .unary .not e
    else
      comparison peek n

def comparison (peek : Nat → Spot) : Nat → Walk Expr
  | 0 => exhausted
  | n + 1 => do
    let first ← chain peek n .sum
    match ← links peek n with
    | [] => return first
    | links => return .compare first links

def links (peek : Nat → Spot) : Nat → Walk (List (CompareOp × Expr))
  | 0 => exhausted
  | n + 1 => do
    match ← compareOp peek with
    | none => return []
    | some op =>
      let right ← chain peek n .sum
      let more ← links peek n
      return (op, right) :: more

def signed (peek : Nat → Spot) : Nat → Walk Expr
  | 0 => exhausted
  | n + 1 => do
    if ← eat peek .minus then
      let e ← signed peek n
      return .unary .neg e
    else if ← eat peek .plus then
      let e ← signed peek n
      return .unary .pos e
    else
      let e ← atom peek n
      postfixRest peek n e

def postfixRest (peek : Nat → Spot) : Nat → Expr → Walk Expr
  | 0, _ => exhausted
  | n + 1, base => do
    if ← eat peek .dot then
      let here ← advance peek
      match here.lexeme? with
      | some (.name s) => postfixRest peek n (.attr base s)
      | _ => throw ⟨.expectedAttributeName, here.offset⟩
    else if ← eat peek .openParen then
      let (arguments, _) ← sequence peek n .closeParen
      postfixRest peek n (.call base arguments)
    else if ← eat peek .openBracket then
      let index ← expression peek n
      expect peek .closeBracket
      postfixRest peek n (.item base index)
    else
      return base

def sequence (peek : Nat → Spot) : Nat → Punct → Walk (List Expr × Bool)
  | 0, _ => exhausted
  | n + 1, close => do
    if ← eat peek close then
      return ([], false)
    else
      let first ← expression peek n
      if ← eat peek .comma then
        let (more, _) ← sequence peek n close
        return (first :: more, true)
      else
        expect peek close
        return ([first], false)

def atom (peek : Nat → Spot) : Nat → Walk Expr
  | 0 => exhausted
  | n + 1 => do
    let here ← advance peek
    match here.lexeme? with
    | none => throw ⟨.unexpectedEnd, here.offset⟩
    | some (.int i) => return .literal (.int i)
    | some (.float x) => return .literal (.float x)
    | some (.str s) =>
      let more ← adjacentStrings peek n
      return .literal (.str (s ++ more))
    | some (.name s) =>
      if s = "True" then return .literal (.bool true)
      else if s = "False" then return .literal (.bool false)
      else if s = "None" then return .literal .none
      else if s ∈ Parser.keywords then throw ⟨.unexpectedKeyword s, here.offset⟩
      else return .name s
    | some (.punct .openParen) =>
      match ← sequence peek n .closeParen with
      | ([e], false) => return e
      | (items, _) => return .list items
    | some (.punct .openBracket) =>
      let (items, _) ← sequence peek n .closeBracket
      return .list items
    | some (.punct p) => throw ⟨.unexpectedOperator p.text, here.offset⟩

end

def statement (peek : Nat → Spot) (budget : Nat) : Walk Statement := do
  let start := (← look peek 0).offset
  let target ← expression peek budget
  if ← eat peek .assign then
    let value ← expression peek budget
    match target with
    | .attr object attr => return .assign object attr value
    | _ => throw ⟨.onlyAttributeAssignment, start⟩
  else
    return .expr target

def skipSemicolons (peek : Nat → Spot) : Nat → Walk Unit
  | 0 => exhausted
  | n + 1 => do
    if ← eat peek .semicolon then skipSemicolons peek n

def statements (peek : Nat → Spot) (budget : Nat) : Nat → Walk (List Statement)
  | 0 => exhausted
  | n + 1 => do
    skipSemicolons peek budget
    if (← look peek 0).lexeme?.isSome then
      let first ← statement peek budget
      if ← eat peek .semicolon then
        let more ← statements peek budget n
        return first :: more
      else
        return [first]
    else
      return []

def whole {α : Type} (peek : Nat → Spot) (w : Walk α) : Walk α := do
  let a ← w
  expectEnd peek
  return a

def parse (peek : Nat → Spot) (budget : Nat) : Walk Expr := whole peek (expression peek budget)

def parseAll (peek : Nat → Spot) (budget : Nat) : Walk (List Statement) := do
  let found ← whole peek (statements peek budget budget)
  if found.isEmpty then throw ⟨.expectedStatement, 0⟩ else return found

/-! ### Steps of a walk -/

section

variable {α β : Type} {p q : Nat} {w : Walk α} {g : α → Walk β} {a : α} {e : SyntaxError}

theorem outcome_bind_ok (h : w.outcome p = some (.ok a, q)) :
    (w >>= g).outcome p = (g a).outcome q := by
  change Option.bind (w.outcome p) _ = _
  rw [h]
  rfl

theorem outcome_bind_error (h : w.outcome p = some (.error e, q)) :
    (w >>= g).outcome p = some (.error e, q) := by
  change Option.bind (w.outcome p) _ = _
  rw [h]
  rfl

theorem outcome_look (peek : Nat → Spot) (ahead p : Nat) :
    (look peek ahead).outcome p = some (.ok (peek (p + ahead)), p) := rfl

theorem outcome_skip (count p : Nat) : (skip count).outcome p = some (.ok (), p + count) := rfl

theorem outcome_advance (peek : Nat → Spot) (p : Nat) :
    (advance peek).outcome p =
      some (.ok (peek p), if (peek p).lexeme?.isSome then p + 1 else p) := by
  unfold advance
  rw [outcome_bind_ok (outcome_look peek 0 p), Nat.add_zero]
  cases (peek p).lexeme?.isSome <;> rfl

theorem outcome_passIf (peek : Nat → Spot) (test : Spot → Bool) (p : Nat) :
    (passIf peek test).outcome p =
      some (.ok (test (peek p)), if test (peek p) then p + 1 else p) := by
  unfold passIf
  rw [outcome_bind_ok (outcome_look peek 0 p), Nat.add_zero]
  cases test (peek p) <;> rfl

end

end Walk

namespace Tokens

variable {tokens : Tokens} {peek : Nat → Spot} {p : Nat}

/-! ### What is seen -/

theorem length_spots (tokens : Tokens) : tokens.spots.length = tokens.last + 1 := by
  rw [spots, List.length_append, List.length_map]
  rfl

theorem shows_clamped (tokens : Tokens) : tokens.Shows tokens.clamped := by
  intro i spot hspot
  have hlt : i < tokens.spots.length := (List.getElem?_eq_some_iff.1 hspot).1
  rw [length_spots] at hlt
  rw [clamped, Nat.min_eq_left (Nat.le_of_lt_succ hlt), hspot]
  rfl

theorem Shows.mem_spots (h : tokens.Shows peek) (hp : p ≤ tokens.last) : peek p ∈ tokens.spots := by
  have hlt : p < tokens.spots.length := by
    rw [length_spots]
    exact Nat.lt_succ_of_le hp
  rw [h p _ (List.getElem?_eq_getElem hlt)]
  exact List.getElem_mem hlt

/-- At a position up to the end either the end is seen, and no tokens are left, or the first of the
tokens that are left. -/
theorem Shows.front (h : tokens.Shows peek) (hp : p ≤ tokens.last) :
    (tokens.list.drop p = [] ∧ peek p = ⟨none, tokens.stop⟩) ∨
      ∃ t, tokens.list.drop p = t :: tokens.list.drop (p + 1) ∧ p + 1 ≤ tokens.last ∧
        peek p = ⟨some t.lexeme, t.start⟩ := by
  rcases Nat.eq_or_lt_of_le hp with rfl | hlt
  · refine .inl ⟨List.drop_length, h _ _ ?_⟩
    rw [spots, last, List.getElem?_append_right (Nat.le_of_eq (List.length_map _)), List.length_map,
      Nat.sub_self]
    rfl
  · refine .inr ⟨tokens.list[p], List.drop_eq_getElem_cons hlt, hlt, h _ _ ?_⟩
    rw [spots, List.getElem?_append_left (by rwa [List.length_map]), List.getElem?_map,
      List.getElem?_eq_getElem hlt]
    rfl

theorem Shows.nextOffset (h : tokens.Shows peek) (hp : p ≤ tokens.last) :
    Parser.nextOffset tokens.stop (tokens.list.drop p) = (peek p).offset := by
  rcases h.front hp with ⟨hdrop, hpeek⟩ | ⟨t, hdrop, -, hpeek⟩
  · rw [hdrop, hpeek]
    rfl
  · rw [hdrop, hpeek]
    rfl

/-- What is passed over is the first of the tokens that are left; the end is seen and not passed over. -/
theorem Shows.advance (h : tokens.Shows peek) (hp : p ≤ tokens.last) :
    (tokens.list.drop p = [] ∧ ⟨none, tokens.stop⟩ ∈ tokens.spots ∧
        (Walk.advance peek).outcome p = some (.ok ⟨none, tokens.stop⟩, p)) ∨
      ∃ t, tokens.list.drop p = t :: tokens.list.drop (p + 1) ∧ p + 1 ≤ tokens.last ∧
        ⟨some t.lexeme, t.start⟩ ∈ tokens.spots ∧
        (Walk.advance peek).outcome p = some (.ok ⟨some t.lexeme, t.start⟩, p + 1) := by
  have hmem := h.mem_spots hp
  rw [Walk.outcome_advance]
  rcases h.front hp with ⟨hdrop, hpeek⟩ | ⟨t, hdrop, hlt, hpeek⟩
  · rw [hpeek] at hmem ⊢
    exact .inl ⟨hdrop, hmem, rfl⟩
  · rw [hpeek] at hmem ⊢
    exact .inr ⟨t, hdrop, hlt, hmem, rfl⟩

end Tokens

end ReactiveView
