import ReactiveView.Proofs.Expr.Extents
import ReactiveView.Proofs.Expr.Literals

/-!
This module contains that lists of statements can be put together: where two sources are accepted, the
first, a line feed, a semicolon and the second are accepted and come to the statements of both.

No lexeme reaches over a line feed, and no function of the grammar that reads in front of the end of a
source does anything else in front of a semicolon.
-/

namespace ReactiveView

namespace Token

variable {c : Char} {cs rest : List Char} {r : Option Lexeme} {n offset : Nat}
  {result : Except SyntaxError (List Token)} {ts : List Token}

/-! ### Texts that end with a line -/

/-- What can follow a text: a line feed or nothing. -/
def EndsLine (rest : List Char) : Prop := ∀ c ∈ rest.head?, c = '\n'

theorem EndsLine.readLexeme (h : EndsLine rest) (hread : Token.readLexeme c cs = .ok (r, n)) :
    Token.readLexeme c (cs ++ rest) = .ok (r, n) := by
  cases rest with
  | nil =>
    rw [List.append_nil]
    exact hread
  | cons d more =>
    obtain rfl := h d rfl
    exact readLexeme_line hread more

/-- A lexeme at the front of a text is scanned, whatever the next line is. -/
theorem EndsLine.scans_lexeme (h : EndsLine rest) (hread : Token.readLexeme c cs = .ok (r, n)) :
    Scans ((c :: cs).drop n ++ rest) ((c :: cs).take n) r.toList := by
  intro offset
  have hn : n ≤ (c :: cs).length := (readLexeme_length hread).2
  have hread := h.readLexeme hread
  have hbehind := scan_behind hread offset
  rw [← List.cons_append, List.drop_append_of_le_length hn] at hbehind
  rw [← List.append_assoc, List.take_append_drop, List.cons_append, scan, hread]
  cases r with
  | none =>
    refine ⟨offset + byteCount ((c :: cs ++ rest).take n), [], rfl, hbehind.trans ?_⟩
    generalize scan 0 _ ((c :: cs).drop n ++ rest) = found
    cases found <;> rfl
  | some l =>
    dsimp only
    rw [hbehind]
    exact ⟨_, [_], rfl, rfl⟩

theorem Lexes.scans (h : Lexes offset cs result) (hresult : result = .ok ts) (hrest : EndsLine rest) :
    Scans rest cs (ts.map lexeme) := by
  induction h generalizing ts with
  | done =>
    cases hresult
    exact scans_nil
  | refused => cases hresult
  | @gap _ n c cs _ hread _ ih =>
    have hscans := (hrest.scans_lexeme hread).append (ih hresult)
    rw [List.take_append_drop] at hscans
    exact hscans
  | @token _ n c cs l result hread _ ih =>
    cases result with
    | error e => cases hresult
    | ok ts =>
      cases hresult
      have hscans := (hrest.scans_lexeme hread).append (ih rfl)
      rw [List.take_append_drop] at hscans
      exact hscans

/-- A text that is scanned is scanned as the same lexemes at any offset, and in front of a line feed. -/
theorem scans_of_scan (h : scan 0 offset cs = .ok ts) (hrest : EndsLine rest) :
    Scans rest cs (ts.map lexeme) :=
  (lexes_scan offset cs).scans h hrest

theorem scans_line (rest : List Char) : Scans rest ['\n'] [] := fun offset =>
  ⟨offset + 1, [], rfl, by cases h : scan 0 (offset + 1) rest <;> exact h⟩

end Token

namespace Attempt

variable {α β γ δ : Type} {R : α → β → Prop} {S : γ → δ → Prop} {x : Attempt α} {y : Attempt β}
  {f : α → Attempt γ} {g : β → Attempt δ} {a : α} {b : β}

/-- Where an attempt comes to a result, another does, and the results are related. -/
def Answers (R : α → β → Prop) (x : Attempt α) (y : Attempt β) : Prop :=
  ∀ a, x = pure a → ∃ b, y = pure b ∧ R a b

theorem answers_pure (h : R a b) : Answers R (pure a) (pure b) := by
  intro a' ha
  cases ha
  exact ⟨b, rfl, h⟩

theorem answers_exhausted (y : Attempt β) : Answers R exhausted y := nofun

theorem answers_refuse (fault : SyntaxFault) (offset : Nat) (y : Attempt β) :
    Answers R (refuse fault offset) y := nofun

theorem exists_of_bind {c : γ} (h : x >>= f = pure c) : ∃ a, x = pure a ∧ f a = pure c := by
  rcases x with _ | _ | a
  · cases h
  · cases h
  · exact ⟨a, rfl, h⟩

theorem Answers.bind (h : Answers R x y) (hf : ∀ a b, R a b → Answers S (f a) (g b)) :
    Answers S (x >>= f) (y >>= g) := by
  intro c hc
  obtain ⟨a, ha, hfa⟩ := exists_of_bind hc
  obtain ⟨b, rfl, hR⟩ := h a ha
  exact hf a b hR c hfa

end Attempt

namespace Parser

open Attempt

variable {more ls : List Lexeme} {ts ts' rest : List Token} {t : Token} {p : Punct} {word : String}
  {stop stop' k n : Nat} {level : Level} {e : Expr}

/-! ### Tokens that are continued -/

/-- Tokens have the lexemes of others, and more. -/
def Follows (more : List Lexeme) (ts ts' : List Token) : Prop :=
  ts'.map Token.lexeme = ts.map Token.lexeme ++ more

/-- What goes on behind the end of a source: nothing, or it starts with a semicolon. -/
def Closes (more : List Lexeme) : Prop := ∀ l ∈ more.head?, l = .punct .semicolon

/-- The same was read, and the tokens that are left are continued. -/
def Same {α : Type} (more : List Lexeme) (a b : α × List Token) : Prop :=
  a.1 = b.1 ∧ Follows more a.2 b.2

theorem Follows.exists_cons (h : Follows more (t :: ts) ts') :
    ∃ start stop rest, ts' = ⟨t.lexeme, start, stop⟩ :: rest ∧ Follows more ts rest :=
  exists_token_cons h

theorem Follows.semicolon (h : Follows more [] ts') (hmore : Closes more) :
    ∀ t ∈ ts'.head?, t.lexeme = .punct .semicolon := by
  intro t ht
  apply hmore
  rw [show more = ts'.map Token.lexeme from h.symm, List.head?_map, Option.mem_def.1 ht]
  rfl

/-- In front of a semicolon all that is read is over, as at the end. -/
theorem Follows.ends (h : Follows more [] ts') (hmore : Closes more) (rank : Nat) :
    Ends rank ts' := by
  intro t ht
  rw [h.semicolon hmore t ht]
  exact Nat.zero_le rank

/-- Nothing is found twice, or related things are. -/
def Agree {α β : Type} (R : α → β → Prop) (x : Option α) (y : Option β) : Prop :=
  (x = none ∧ y = none) ∨ ∃ a b, x = some a ∧ y = some b ∧ R a b

theorem Agree.map {α β γ δ : Type} {R : α → β → Prop} {S : γ → δ → Prop} {x : Option α} {y : Option β}
    {f : α → γ} {g : β → δ} (h : Agree R x y) (hf : ∀ a b, R a b → S (f a) (g b)) :
    Agree S (x.map f) (y.map g) := by
  rcases h with ⟨rfl, rfl⟩ | ⟨a, b, rfl, rfl, hR⟩
  · exact .inl ⟨rfl, rfl⟩
  · exact .inr ⟨_, _, rfl, rfl, hf a b hR⟩

theorem Follows.eat? (h : Follows more ts ts') (hmore : Closes more) (hp : p ≠ .semicolon) :
    Agree (Follows more) (Parser.eat? p ts) (Parser.eat? p ts') := by
  cases ts with
  | nil =>
    refine .inl ⟨rfl, eat?_of_ne fun t ht => ?_⟩
    rw [h.semicolon hmore t ht]
    rintro ⟨⟩
    exact hp rfl
  | cons t ts =>
    obtain ⟨lexeme, first, last⟩ := t
    obtain ⟨first', last', rest, rfl, hrest⟩ := h.exists_cons
    cases lexeme with
    | punct q =>
      unfold Parser.eat?
      dsimp only
      split
      · exact .inr ⟨ts, rest, rfl, rfl, hrest⟩
      · exact .inl ⟨rfl, rfl⟩
    | _ => exact .inl ⟨rfl, rfl⟩

theorem Follows.eat?_of_some (h : Follows more ts ts') (heat : Parser.eat? p ts = some rest) :
    ∃ rest', Parser.eat? p ts' = some rest' ∧ Follows more rest rest' := by
  cases ts with
  | nil => cases heat
  | cons t ts =>
    obtain ⟨lexeme, first, last⟩ := t
    obtain ⟨first', last', rest', rfl, hrest⟩ := h.exists_cons
    cases lexeme with
    | punct q =>
      unfold Parser.eat? at heat ⊢
      dsimp only at heat ⊢
      split at heat
      · next hp =>
        cases heat
        exact ⟨rest', if_pos hp, hrest⟩
      · cases heat
    | _ => cases heat

theorem Follows.eatWord? (h : Follows more ts ts') (hmore : Closes more) (word : String) :
    Agree (Follows more) (Parser.eatWord? word ts) (Parser.eatWord? word ts') := by
  cases ts with
  | nil =>
    refine .inl ⟨rfl, eatWord?_of_ne fun t ht => ?_⟩
    rw [h.semicolon hmore t ht]
    exact nofun
  | cons t ts =>
    obtain ⟨lexeme, first, last⟩ := t
    obtain ⟨first', last', rest, rfl, hrest⟩ := h.exists_cons
    cases lexeme with
    | name s =>
      unfold Parser.eatWord?
      dsimp only
      split
      · exact .inr ⟨ts, rest, rfl, rfl, hrest⟩
      · exact .inl ⟨rfl, rfl⟩
    | _ => exact .inl ⟨rfl, rfl⟩

theorem Follows.expect (h : Follows more ts ts') (hmore : Closes more) (hp : p ≠ .semicolon) :
    Answers (Follows more) (Parser.expect stop p ts) (Parser.expect stop' p ts') := by
  unfold Parser.expect
  rcases h.eat? hmore hp with ⟨hnone, hnone'⟩ | ⟨rest, rest', hsome, hsome', hrest⟩
  · rw [hnone, hnone']
    exact answers_refuse _ _ _
  · rw [hsome, hsome']
    exact answers_pure hrest

theorem Follows.join? (h : Follows more ts ts') (hmore : Closes more) (level : Level) :
    Agree (Same more) (level.join? ts) (level.join? ts') := by
  cases level with
  | or => exact (h.eatWord? hmore _).map fun _ _ hrest => ⟨rfl, hrest⟩
  | and => exact (h.eatWord? hmore _).map fun _ _ hrest => ⟨rfl, hrest⟩
  | _ =>
    cases ts with
    | nil => exact .inl ⟨rfl, (h.ends hmore _).join?⟩
    | cons t ts =>
      obtain ⟨lexeme, first, last⟩ := t
      obtain ⟨first', last', rest, rfl, hrest⟩ := h.exists_cons
      cases lexeme with
      | punct q =>
        cases q <;> first
          | exact .inl ⟨rfl, rfl⟩
          | exact .inr ⟨_, _, rfl, rfl, rfl, hrest⟩
      | _ => exact .inl ⟨rfl, rfl⟩

theorem Follows.compareOp? (h : Follows more ts ts') (hmore : Closes more) :
    Agree (Same more) (Parser.compareOp? ts) (Parser.compareOp? ts') := by
  cases ts with
  | nil => exact .inl ⟨rfl, (h.ends hmore _).compareOp?⟩
  | cons t ts =>
    have hin := h.eatWord? hmore "in"
    have hnot := h.eatWord? hmore "not"
    obtain ⟨lexeme, first, last⟩ := t
    obtain ⟨first', last', rest, rfl, hrest⟩ := h.exists_cons
    cases lexeme with
    | punct q =>
      cases q <;> first
        | exact .inl ⟨rfl, rfl⟩
        | exact .inr ⟨_, _, rfl, rfl, rfl, hrest⟩
    | name s =>
      unfold Parser.compareOp?
      dsimp only
      rcases hin with ⟨hnone, hnone'⟩ | ⟨tail, tail', hsome, hsome', htail⟩
      · rw [hnone, hnone']
        rcases hnot with ⟨hnone, hnone'⟩ | ⟨tail, tail', hsome, hsome', htail⟩
        · rw [hnone, hnone']
          exact .inl ⟨rfl, rfl⟩
        · rw [hsome, hsome']
          exact (htail.eatWord? hmore _).map fun _ _ hrest => ⟨rfl, hrest⟩
      · rw [hsome, hsome']
        exact .inr ⟨_, _, rfl, rfl, rfl, htail⟩
    | _ => exact .inl ⟨rfl, rfl⟩

theorem Follows.adjacentStrings (h : Follows more ts ts') (hmore : Closes more) :
    Same more (Parser.adjacentStrings ts) (Parser.adjacentStrings ts') := by
  induction ts generalizing ts' with
  | nil =>
    rw [(h.ends hmore _).adjacentStrings]
    exact ⟨rfl, h⟩
  | cons t ts ih =>
    obtain ⟨lexeme, first, last⟩ := t
    have hwhole := h
    obtain ⟨first', last', rest, rfl, hrest⟩ := h.exists_cons
    cases lexeme with
    | str s =>
      obtain ⟨heq, hleft⟩ := ih hrest
      exact ⟨congrArg (s ++ ·) heq, hleft⟩
    | _ => exact ⟨rfl, hwhole⟩

/-! ### One level of the grammar -/

/-- What is read with a budget is read with a larger one where the tokens are continued. -/
structure Extends (more : List Lexeme) (stop stop' k n : Nat) : Prop where
  expression : ∀ {ts ts' : List Token}, Follows more ts ts' →
    Answers (Same more) (Parser.expression stop n ts) (Parser.expression stop' (k + n) ts')
  chain : ∀ {ts ts' : List Token} (level : Level), Follows more ts ts' →
    Answers (Same more) (Parser.chain stop n level ts) (Parser.chain stop' (k + n) level ts')
  chainRest : ∀ {ts ts' : List Token} (level : Level) (left : Expr), Follows more ts ts' →
    Answers (Same more) (Parser.chainRest stop n level left ts)
      (Parser.chainRest stop' (k + n) level left ts')
  operand : ∀ {ts ts' : List Token} (level : Level), Follows more ts ts' →
    Answers (Same more) (Parser.operand stop n level ts) (Parser.operand stop' (k + n) level ts')
  negation : ∀ {ts ts' : List Token}, Follows more ts ts' →
    Answers (Same more) (Parser.negation stop n ts) (Parser.negation stop' (k + n) ts')
  comparison : ∀ {ts ts' : List Token}, Follows more ts ts' →
    Answers (Same more) (Parser.comparison stop n ts) (Parser.comparison stop' (k + n) ts')
  links : ∀ {ts ts' : List Token}, Follows more ts ts' →
    Answers (Same more) (Parser.links stop n ts) (Parser.links stop' (k + n) ts')
  signed : ∀ {ts ts' : List Token}, Follows more ts ts' →
    Answers (Same more) (Parser.signed stop n ts) (Parser.signed stop' (k + n) ts')
  postfixRest : ∀ {ts ts' : List Token} (base : Expr), Follows more ts ts' →
    Answers (Same more) (Parser.postfixRest stop n base ts) (Parser.postfixRest stop' (k + n) base ts')
  sequence : ∀ {ts ts' : List Token} {close : Punct}, close ≠ .semicolon → Follows more ts ts' →
    Answers (Same more) (Parser.sequence stop n close ts) (Parser.sequence stop' (k + n) close ts')
  atom : ∀ {ts ts' : List Token}, Follows more ts ts' →
    Answers (Same more) (Parser.atom stop n ts) (Parser.atom stop' (k + n) ts')

namespace Extends

theorem zero (more : List Lexeme) (stop stop' k : Nat) : Extends more stop stop' k 0 := by
  constructor <;> intros <;> exact answers_exhausted _

variable (ih : Extends more stop stop' k n) (hmore : Closes more)
include ih hmore

theorem expression_succ (h : Follows more ts ts') :
    Answers (Same more) (Parser.expression stop (n + 1) ts)
      (Parser.expression stop' (k + n + 1) ts') := by
  rw [Parser.expression, Parser.expression]
  refine (ih.chain .or h).bind ?_
  rintro ⟨body, rest⟩ ⟨_, rest'⟩ ⟨rfl, hrest⟩
  dsimp only at hrest ⊢
  rcases hrest.eatWord? hmore "if" with
    ⟨hnone, hnone'⟩ | ⟨tail, tail', hsome, hsome', htest⟩
  · rw [hnone, hnone']
    exact answers_pure ⟨rfl, hrest⟩
  · rw [hsome, hsome']
    refine (ih.chain .or htest).bind ?_
    rintro ⟨test, rest⟩ ⟨_, rest'⟩ ⟨rfl, hrest⟩
    dsimp only at hrest ⊢
    rcases hrest.eatWord? hmore "else" with
      ⟨hnone, -⟩ | ⟨tail, tail', hsome, hsome', horelse⟩
    · rw [hnone]
      exact answers_refuse _ _ _
    · rw [hsome, hsome']
      refine (ih.expression horelse).bind ?_
      rintro ⟨orelse, rest⟩ ⟨_, rest'⟩ ⟨rfl, hrest⟩
      exact answers_pure ⟨rfl, hrest⟩

omit hmore in
theorem chain_succ (level : Level) (h : Follows more ts ts') :
    Answers (Same more) (Parser.chain stop (n + 1) level ts)
      (Parser.chain stop' (k + n + 1) level ts') := by
  rw [Parser.chain, Parser.chain]
  refine (ih.operand level h).bind ?_
  rintro ⟨first, rest⟩ ⟨_, rest'⟩ ⟨rfl, hrest⟩
  exact ih.chainRest level first hrest

theorem chainRest_succ (level : Level) (left : Expr) (h : Follows more ts ts') :
    Answers (Same more) (Parser.chainRest stop (n + 1) level left ts)
      (Parser.chainRest stop' (k + n + 1) level left ts') := by
  rw [Parser.chainRest, Parser.chainRest]
  rcases h.join? hmore level with
    ⟨hnone, hnone'⟩ | ⟨⟨join, tail⟩, ⟨_, tail'⟩, hsome, hsome', rfl, htail⟩
  · rw [hnone, hnone']
    exact answers_pure ⟨rfl, h⟩
  · rw [hsome, hsome']
    refine (ih.operand level htail).bind ?_
    rintro ⟨right, rest⟩ ⟨_, rest'⟩ ⟨rfl, hrest⟩
    exact ih.chainRest level _ hrest

omit hmore in
theorem operand_succ (level : Level) (h : Follows more ts ts') :
    Answers (Same more) (Parser.operand stop (n + 1) level ts)
      (Parser.operand stop' (k + n + 1) level ts') := by
  cases level with
  | or => exact ih.chain .and h
  | and => exact ih.negation h
  | sum => exact ih.chain .product h
  | product => exact ih.signed h

theorem negation_succ (h : Follows more ts ts') :
    Answers (Same more) (Parser.negation stop (n + 1) ts)
      (Parser.negation stop' (k + n + 1) ts') := by
  rw [Parser.negation, Parser.negation]
  rcases h.eatWord? hmore "not" with
    ⟨hnone, hnone'⟩ | ⟨tail, tail', hsome, hsome', htail⟩
  · rw [hnone, hnone']
    exact ih.comparison h
  · rw [hsome, hsome']
    refine (ih.negation htail).bind ?_
    rintro ⟨e, rest⟩ ⟨_, rest'⟩ ⟨rfl, hrest⟩
    exact answers_pure ⟨rfl, hrest⟩

omit hmore in
theorem comparison_succ (h : Follows more ts ts') :
    Answers (Same more) (Parser.comparison stop (n + 1) ts)
      (Parser.comparison stop' (k + n + 1) ts') := by
  rw [Parser.comparison, Parser.comparison]
  refine (ih.chain .sum h).bind ?_
  rintro ⟨first, rest⟩ ⟨_, rest'⟩ ⟨rfl, hrest⟩
  refine (ih.links hrest).bind ?_
  rintro ⟨links, rest⟩ ⟨_, rest'⟩ ⟨rfl, hrest⟩
  cases links with
  | nil => exact answers_pure ⟨rfl, hrest⟩
  | cons link links => exact answers_pure ⟨rfl, hrest⟩

theorem links_succ (h : Follows more ts ts') :
    Answers (Same more) (Parser.links stop (n + 1) ts) (Parser.links stop' (k + n + 1) ts') := by
  rw [Parser.links, Parser.links]
  rcases h.compareOp? hmore with
    ⟨hnone, hnone'⟩ | ⟨⟨op, tail⟩, ⟨_, tail'⟩, hsome, hsome', rfl, htail⟩
  · rw [hnone, hnone']
    exact answers_pure ⟨rfl, h⟩
  · rw [hsome, hsome']
    refine (ih.chain .sum htail).bind ?_
    rintro ⟨right, rest⟩ ⟨_, rest'⟩ ⟨rfl, hrest⟩
    refine (ih.links hrest).bind ?_
    rintro ⟨links, rest⟩ ⟨_, rest'⟩ ⟨rfl, hrest⟩
    exact answers_pure ⟨rfl, hrest⟩

omit hmore in
theorem signed_succ (h : Follows more ts ts') :
    Answers (Same more) (Parser.signed stop (n + 1) ts) (Parser.signed stop' (k + n + 1) ts') := by
  have hatom : Answers (Same more)
      (Parser.atom stop n ts >>= fun r => Parser.postfixRest stop n r.1 r.2)
      (Parser.atom stop' (k + n) ts' >>= fun r => Parser.postfixRest stop' (k + n) r.1 r.2) := by
    refine (ih.atom h).bind ?_
    rintro ⟨e, rest⟩ ⟨_, rest'⟩ ⟨rfl, hrest⟩
    exact ih.postfixRest e hrest
  cases ts with
  | nil =>
    -- Nothing is read at the end.
    intro a ha
    cases n <;> cases ha
  | cons t ts =>
    obtain ⟨lexeme, first, last⟩ := t
    obtain ⟨first', last', rest, rfl, hrest⟩ := h.exists_cons
    have hsign (op : UnaryOp) : Answers (Same more)
        (Parser.signed stop n ts >>= fun r => pure (Expr.unary op r.1, r.2))
        (Parser.signed stop' (k + n) rest >>= fun r => pure (Expr.unary op r.1, r.2)) := by
      refine (ih.signed hrest).bind ?_
      rintro ⟨e, rest⟩ ⟨_, rest'⟩ ⟨rfl, hrest⟩
      exact answers_pure ⟨rfl, hrest⟩
    cases lexeme with
    | punct q =>
      cases q with
      | minus => exact hsign .neg
      | plus => exact hsign .pos
      | _ => exact hatom
    | _ => exact hatom

theorem postfixRest_succ (base : Expr) (h : Follows more ts ts') :
    Answers (Same more) (Parser.postfixRest stop (n + 1) base ts)
      (Parser.postfixRest stop' (k + n + 1) base ts') := by
  cases ts with
  | nil =>
    rw [(h.ends hmore _).postfixRest]
    exact answers_pure ⟨rfl, h⟩
  | cons t ts =>
    have hwhole := h
    obtain ⟨lexeme, first, last⟩ := t
    obtain ⟨first', last', rest, rfl, hrest⟩ := h.exists_cons
    cases lexeme with
    | punct q =>
      cases q with
      | dot =>
        cases ts with
        | nil => exact answers_refuse _ _ _
        | cons t ts =>
          obtain ⟨lexeme, first, last⟩ := t
          obtain ⟨first', last', rest, rfl, htail⟩ := hrest.exists_cons
          cases lexeme with
          | name s => exact ih.postfixRest _ htail
          | _ => exact answers_refuse _ _ _
      | openParen =>
        refine (ih.sequence (show Punct.closeParen ≠ .semicolon by decide) hrest).bind ?_
        rintro ⟨⟨arguments, comma⟩, rest⟩ ⟨_, rest'⟩ ⟨rfl, hrest⟩
        exact ih.postfixRest _ hrest
      | openBracket =>
        refine (ih.expression hrest).bind ?_
        rintro ⟨index, rest⟩ ⟨_, rest'⟩ ⟨rfl, hrest⟩
        refine (hrest.expect hmore (p := .closeBracket) (by decide)).bind ?_
        intro rest rest' hrest
        exact ih.postfixRest _ hrest
      | _ => exact answers_pure ⟨rfl, hwhole⟩
    | _ => exact answers_pure ⟨rfl, hwhole⟩

theorem sequence_succ {close : Punct} (hclose : close ≠ .semicolon) (h : Follows more ts ts') :
    Answers (Same more) (Parser.sequence stop (n + 1) close ts)
      (Parser.sequence stop' (k + n + 1) close ts') := by
  rw [Parser.sequence, Parser.sequence]
  rcases h.eat? hmore hclose with ⟨hnone, hnone'⟩ | ⟨tail, tail', hsome, hsome', htail⟩
  · rw [hnone, hnone']
    refine (ih.expression h).bind ?_
    rintro ⟨first, rest⟩ ⟨_, rest'⟩ ⟨rfl, hrest⟩
    dsimp only at hrest ⊢
    rcases hrest.eat? hmore (p := .comma) (by decide) with
      ⟨hnone, hnone'⟩ | ⟨tail, tail', hsome, hsome', htail⟩
    · rw [hnone, hnone']
      refine (hrest.expect hmore hclose).bind ?_
      intro rest rest' hrest
      exact answers_pure ⟨rfl, hrest⟩
    · rw [hsome, hsome']
      refine (ih.sequence hclose htail).bind ?_
      rintro ⟨⟨items, comma⟩, rest⟩ ⟨_, rest'⟩ ⟨rfl, hrest⟩
      exact answers_pure ⟨rfl, hrest⟩
  · rw [hsome, hsome']
    exact answers_pure ⟨rfl, htail⟩

theorem atom_succ (h : Follows more ts ts') :
    Answers (Same more) (Parser.atom stop (n + 1) ts) (Parser.atom stop' (k + n + 1) ts') := by
  cases ts with
  | nil => exact answers_refuse _ _ _
  | cons t ts =>
    obtain ⟨lexeme, first, last⟩ := t
    obtain ⟨first', last', rest, rfl, hrest⟩ := h.exists_cons
    cases lexeme with
    | int i => exact answers_pure ⟨rfl, hrest⟩
    | float x => exact answers_pure ⟨rfl, hrest⟩
    | str s =>
      obtain ⟨heq, hleft⟩ := hrest.adjacentStrings hmore
      refine answers_pure ⟨?_, hleft⟩
      rw [heq]
    | name s =>
      rw [Parser.atom, Parser.atom]
      split
      · exact answers_pure ⟨rfl, hrest⟩
      · split
        · exact answers_pure ⟨rfl, hrest⟩
        · split
          · exact answers_pure ⟨rfl, hrest⟩
          · split
            · exact answers_refuse _ _ _
            · exact answers_pure ⟨rfl, hrest⟩
    | punct q =>
      cases q with
      | openParen =>
        refine (ih.sequence (show Punct.closeParen ≠ .semicolon by decide) hrest).bind ?_
        rintro ⟨⟨items, comma⟩, rest⟩ ⟨_, rest'⟩ ⟨rfl, hrest⟩
        dsimp only
        split
        · exact answers_pure ⟨rfl, hrest⟩
        · exact answers_pure ⟨rfl, hrest⟩
      | openBracket =>
        refine (ih.sequence (show Punct.closeBracket ≠ .semicolon by decide) hrest).bind ?_
        rintro ⟨⟨items, comma⟩, rest⟩ ⟨_, rest'⟩ ⟨rfl, hrest⟩
        exact answers_pure ⟨rfl, hrest⟩
      | _ => exact answers_refuse _ _ _

end Extends

/-- Each function of the grammar reads what it reads also where the tokens are continued. -/
theorem extends_of_closes (hmore : Closes more) (stop stop' k n : Nat) :
    Extends more stop stop' k n := by
  induction n with
  | zero => exact .zero more stop stop' k
  | succ n ih =>
    constructor
    case expression => exact ih.expression_succ hmore
    case chain => exact ih.chain_succ
    case chainRest => exact ih.chainRest_succ hmore
    case operand => exact ih.operand_succ
    case negation => exact ih.negation_succ hmore
    case comparison => exact ih.comparison_succ
    case links => exact ih.links_succ hmore
    case signed => exact ih.signed_succ
    case postfixRest => exact ih.postfixRest_succ hmore
    case sequence => exact ih.sequence_succ hmore
    case atom => exact ih.atom_succ hmore

/-! ### Statements -/

variable {budget budget' : Nat}

theorem answers_expression (hmore : Closes more) (hbudget : budget ≤ budget')
    (h : Follows more ts ts') :
    Answers (Same more) (expression stop budget ts) (expression stop' budget' ts') := by
  obtain ⟨k, rfl⟩ := Nat.exists_eq_add_of_le' hbudget
  exact (extends_of_closes hmore stop stop' k budget).expression h

theorem answers_statement (hmore : Closes more) (hbudget : budget ≤ budget')
    (h : Follows more ts ts') :
    Answers (Same more) (statement stop budget ts) (statement stop' budget' ts') := by
  refine (answers_expression hmore hbudget h).bind ?_
  rintro ⟨target, rest⟩ ⟨_, rest'⟩ ⟨rfl, hrest⟩
  dsimp only at hrest ⊢
  rcases hrest.eat? hmore (p := .assign) (by decide) with
    ⟨hnone, hnone'⟩ | ⟨tail, tail', hsome, hsome', htail⟩
  · rw [hnone, hnone']
    exact answers_pure ⟨rfl, hrest⟩
  · rw [hsome, hsome']
    refine (answers_expression hmore hbudget htail).bind ?_
    rintro ⟨value, rest⟩ ⟨_, rest'⟩ ⟨rfl, hrest⟩
    cases target with
    | attr object attr => exact answers_pure ⟨rfl, hrest⟩
    | _ => exact answers_refuse _ _ _

theorem statements_congr (h : dropSemicolons ts = dropSemicolons ts') (n : Nat) :
    statements stop budget n ts = statements stop budget n ts' := by
  cases n with
  | zero => rfl
  | succ n => rw [statements, statements, h]

theorem dropSemicolons_of_eat? (h : eat? .semicolon ts = some rest) :
    dropSemicolons ts = dropSemicolons rest := by
  unfold eat? at h
  split at h
  · split at h
    · next hp =>
      cases hp
      cases h
      rfl
    · cases h
  · cases h

/-- Behind semicolons either all is over, and what goes on is left, or a statement starts. -/
theorem Follows.dropSemicolons (h : Follows more ts ts') :
    (Parser.dropSemicolons ts = [] ∧ ∃ rest, rest.map Token.lexeme = more ∧
      Parser.dropSemicolons ts' = Parser.dropSemicolons rest) ∨
    ∃ t tail t' tail', Parser.dropSemicolons ts = t :: tail ∧
      Parser.dropSemicolons ts' = t' :: tail' ∧ Follows more (t :: tail) (t' :: tail') := by
  induction ts generalizing ts' with
  | nil => exact .inl ⟨rfl, ts', h, rfl⟩
  | cons t ts ih =>
    have hwhole := h
    obtain ⟨lexeme, first, last⟩ := t
    obtain ⟨first', last', rest, rfl, hrest⟩ := h.exists_cons
    cases lexeme with
    | punct q =>
      cases q with
      | semicolon =>
        have hbehind := ih hrest
        exact hbehind
      | _ => exact .inr ⟨_, _, _, _, rfl, rfl, hwhole⟩
    | _ => exact .inr ⟨_, _, _, _, rfl, rfl, hwhole⟩

/-- What goes on are statements behind a semicolon, or nothing. -/
def GoesOn (stop budget n : Nat) (more : List Lexeme) (p : List Statement) : Prop :=
  ∀ ts, ts.map Token.lexeme = more → (ts = [] ∧ p = []) ∨
    ∃ rest, eat? .semicolon ts = some rest ∧
      ∀ n', n ≤ n' → statements stop budget n' rest = pure (p, [])

theorem GoesOn.closes {p : List Statement} (h : GoesOn stop budget n more p) : Closes more := by
  intro l hl
  obtain ⟨ls, rfl⟩ := List.head?_eq_some_iff.1 (Option.mem_def.1 hl)
  have hlexemes : ((l :: ls).map fun l => Token.mk l 0 0).map Token.lexeme = l :: ls := by
    simp [Function.comp_def]
  rcases h _ hlexemes with ⟨hnil, -⟩ | ⟨rest, hrest, -⟩
  · cases hnil
  · cases l with
    | punct q =>
      by_cases hq : Punct.semicolon = q
      · rw [hq]
      · exact absurd hrest (by simp [Parser.eat?, hq])
    | _ => cases hrest

theorem goesOn_nil (stop budget n : Nat) : GoesOn stop budget n [] [] :=
  fun _ hts => .inl ⟨List.map_eq_nil_iff.1 hts, rfl⟩

/-- Statements are followed by those that go on. -/
theorem GoesOn.statements_append {p q : List Statement} (hgoes : GoesOn stop' budget' k more q)
    (hbudget : budget ≤ budget') (h : statements stop budget n ts = pure (p, []))
    (hts : Follows more ts ts') :
    statements stop' budget' (k + n) ts' = pure (p ++ q, []) := by
  induction n generalizing ts ts' p with
  | zero => cases h
  | succ n ih =>
    rcases hts.dropSemicolons with
      ⟨hnil, rest, hrest, hdrop⟩ | ⟨t, tail, t', tail', hcons, hcons', hfollows⟩
    · rw [statements, hnil] at h
      cases h
      rw [statements_congr hdrop]
      rcases hgoes rest hrest with ⟨rfl, rfl⟩ | ⟨rest', heat, hstatements⟩
      · rfl
      · rw [statements_congr (dropSemicolons_of_eat? heat)]
        exact hstatements _ (Nat.le_add_right _ _)
    · rw [statements, hcons] at h
      rw [← Nat.add_assoc, statements, hcons']
      dsimp only at h ⊢
      obtain ⟨⟨first, after⟩, hfirst, h⟩ := Attempt.exists_of_bind h
      obtain ⟨⟨_, after'⟩, hfirst', rfl, hafter⟩ :=
        answers_statement hgoes.closes hbudget hfollows _ hfirst
      rw [hfirst', pure_bind]
      dsimp only at h hafter ⊢
      cases heat : Parser.eat? .semicolon after with
      | none =>
        rw [heat] at h
        cases h
        rcases hgoes after' hafter with ⟨rfl, rfl⟩ | ⟨rest, heat', hstatements⟩
        · rfl
        · rw [heat']
          dsimp only
          rw [hstatements _ (Nat.le_add_right k n)]
          rfl
      | some rest =>
        rw [heat] at h
        obtain ⟨⟨p, rest'⟩, hp, heq⟩ := Attempt.exists_of_bind h
        cases heq
        obtain ⟨rest', heat', hrest⟩ := hafter.eat?_of_some heat
        rw [heat']
        dsimp only
        rw [ih hp hrest]
        rfl

/-- What is read to the last goes on behind a semicolon. -/
theorem goesOn_semicolon {p : List Statement} (hbudget : budget ≤ budget')
    (h : statements stop budget n ts = pure (p, [])) :
    GoesOn stop' budget' n (.punct .semicolon :: ts.map Token.lexeme) p := by
  intro us hus
  obtain ⟨first, last, rest, rfl, hrest⟩ := exists_token_cons hus
  refine .inr ⟨rest, eat?_cons, fun n' hn => ?_⟩
  obtain ⟨k, rfl⟩ := Nat.exists_eq_add_of_le' hn
  have hts : Follows [] ts rest := by
    unfold Follows
    rw [hrest, List.append_nil]
  have hread := (goesOn_nil stop' budget' k).statements_append hbudget h hts
  rw [List.append_nil] at hread
  exact hread

/-! ### Sources -/

theorem settle_eq_ok_iff {α : Type} {x : Attempt α} {a : α} : settle x = .ok a ↔ x = pure a := by
  rcases x with _ | _ | b
  · exact ⟨nofun, nofun⟩
  · exact ⟨nofun, nofun⟩
  · exact ⟨fun h => by cases h; rfl, fun h => by cases h; rfl⟩

theorem finish_eq_pure_iff {α : Type} {a b : α} :
    finish stop (a, ts) = pure b ↔ a = b ∧ ts = [] := by
  cases ts with
  | nil => exact ⟨fun h => by cases h; exact ⟨rfl, rfl⟩, fun ⟨h, _⟩ => by rw [h]; rfl⟩
  | cons t ts => exact ⟨nofun, nofun⟩

end Parser

open ReactiveView.Parser

namespace Statement

variable {source first second : String} {p q : List Statement}

/-- A source is accepted where its tokens are read as statements to the last. -/
theorem parseAll_eq_ok_iff : parseAll source = .ok p ↔
    p ≠ [] ∧ ∃ ts, Token.scan 0 0 source.toList = .ok ts ∧
      statements (Token.byteCount source.toList) (budget ts) (budget ts) ts = pure (p, []) := by
  unfold parseAll Tokens.ofSource
  cases hscan : Token.scan 0 0 source.toList with
  | error e =>
    refine ⟨nofun, ?_⟩
    rintro ⟨-, ts, hts, -⟩
    cases hts
  | ok ts =>
    change (settle (statements _ (budget ts) (budget ts) ts >>= finish _) >>= fun found =>
      if found.isEmpty then .error ⟨.expectedStatement, 0⟩ else .ok found) = .ok p ↔ _
    constructor
    · intro h
      cases hsettle : settle (statements _ (budget ts) (budget ts) ts >>= finish _) with
      | error e =>
        rw [hsettle] at h
        cases h
      | ok found =>
        rw [hsettle] at h
        change (if found.isEmpty then _ else _) = _ at h
        split at h
        · cases h
        · next hne =>
          cases h
          obtain ⟨⟨found', rest⟩, hstatements, hfinish⟩ :=
            Attempt.exists_of_bind (settle_eq_ok_iff.1 hsettle)
          obtain ⟨rfl, rfl⟩ := finish_eq_pure_iff.1 hfinish
          exact ⟨fun hnil => hne (List.isEmpty_iff.2 hnil), ts, rfl, hstatements⟩
    · rintro ⟨hne, _, ⟨⟩, hstatements⟩
      rw [hstatements, pure_bind, finish_eq_pure_iff.2 ⟨rfl, rfl⟩]
      exact if_neg fun hnil => hne (List.isEmpty_iff.1 hnil)

/-- Statements of two sources, a line feed and a semicolon between them, are those of the first and
those of the second. -/
theorem parseAll_append (hfirst : parseAll first = .ok p) (hsecond : parseAll second = .ok q) :
    parseAll (first ++ "\n;" ++ second) = .ok (p ++ q) := by
  rw [parseAll_eq_ok_iff] at hfirst hsecond ⊢
  obtain ⟨hp, ts, hscan, hts⟩ := hfirst
  obtain ⟨-, ts', hscan', hts'⟩ := hsecond
  have hjoin : Token.Scans [] (first.toList ++ (['\n'] ++ ([';'] ++ second.toList)))
      (ts.map Token.lexeme ++ ([] ++ ([.punct .semicolon] ++ ts'.map Token.lexeme))) := by
    have hrest : Token.Scans [] second.toList (ts'.map Token.lexeme) :=
      Token.scans_of_scan hscan' nofun
    have hsemicolon := (Token.scans_punct .semicolon rfl).append hrest
    refine (Token.scans_of_scan hscan ?_).append ((Token.scans_line _).append hsemicolon)
    rintro c ⟨⟩
    rfl
  obtain ⟨offset, whole, hwhole, hall⟩ := hjoin 0
  have hscanned : Token.scan 0 0 (first ++ "\n;" ++ second).toList = .ok whole := by
    rw [List.append_nil] at hall
    rw [String.toList_append, String.toList_append, List.append_assoc]
    exact hall.trans (congrArg Except.ok (List.append_nil whole))
  have hbudget : budget whole = budget ts' + budget ts := by
    have hlength := congrArg List.length hwhole
    simp only [List.length_map, List.length_append, List.length_cons, List.length_nil] at hlength
    unfold budget
    omega
  refine ⟨fun hnil => hp (List.append_eq_nil_iff.1 hnil).1, whole, hscanned, ?_⟩
  generalize Token.byteCount (first ++ "\n;" ++ second).toList = stop
  have hgoes : GoesOn stop (budget whole) (budget ts') (.punct .semicolon :: ts'.map Token.lexeme) q :=
    goesOn_semicolon (by omega) hts'
  have hstatements := hgoes.statements_append (by omega) hts hwhole
  rw [← hbudget] at hstatements
  exact hstatements

/-- An assignment with a comment behind it, and a call over two lines behind an empty statement. -/
theorem parseAll_append_comment :
    ∃ p q, parseAll "a.b = 7; # no '7'" = .ok p ∧ parseAll ";f('x' 'y',\n1); g;" = .ok q ∧
      p.length = 1 ∧ q.length = 2 ∧
      parseAll ("a.b = 7; # no '7'" ++ "\n;" ++ ";f('x' 'y',\n1); g;") = .ok (p ++ q) := by
  have hfirst : (parseAll "a.b = 7; # no '7'").toOption.map List.length = some 1 := by
    decide +kernel
  have hsecond : (parseAll ";f('x' 'y',\n1); g;").toOption.map List.length = some 2 := by
    decide +kernel
  cases hp : parseAll "a.b = 7; # no '7'" with
  | error e =>
    rw [hp] at hfirst
    cases hfirst
  | ok p =>
    cases hq : parseAll ";f('x' 'y',\n1); g;" with
    | error e =>
      rw [hq] at hsecond
      cases hsecond
    | ok q =>
      rw [hp] at hfirst
      rw [hq] at hsecond
      exact ⟨p, q, rfl, rfl, Option.some.inj hfirst, Option.some.inj hsecond, parseAll_append hp hq⟩

end Statement

end ReactiveView
