import ReactiveView.Proofs.Expr.Walking

/-!
This module contains that the parser makes progress: walking over the positions of the tokens comes to
what reading the tokens comes to, each function of the grammar that succeeds has passed over a token,
no position lies beyond the end, and what is refused is refused at a token or at the end.

The budget of a call is enough where it covers sixteen calls for each token that is left and those of
the levels below: between two tokens the grammar descends through fewer levels.
-/

namespace ReactiveView

namespace Parser

theorem dropSemicolons_eq_nil {ts : List Token} (h : dropSemicolons ts = []) :
    ∀ t ∈ ts, t.lexeme = .punct .semicolon := by
  induction ts with
  | nil => exact nofun
  | cons t ts ih =>
    obtain ⟨lexeme, start, stop⟩ := t
    cases lexeme with
    | punct p =>
      cases p with
      | semicolon => exact List.forall_mem_cons.2 ⟨rfl, ih h⟩
      | _ => cases h
    | _ => cases h

/-- Where no statement is found there is nothing but semicolons. -/
theorem semicolons_of_statements {stop budget n : Nat} {ts rest : List Token}
    (h : statements stop budget n ts = pure ([], rest)) :
    ∀ t ∈ ts, t.lexeme = .punct .semicolon := by
  cases n with
  | zero => cases h
  | succ n =>
    rw [statements] at h
    split at h
    · next hdrop => exact dropSemicolons_eq_nil hdrop
    · obtain ⟨⟨first, rest'⟩, -, h⟩ := Attempt.exists_of_bind h
      dsimp only at h
      split at h
      · cases h
      · obtain ⟨⟨more, rest''⟩, -, h⟩ := Attempt.exists_of_bind h
        cases h

end Parser

theorem Expr.parse_of_tokens {source : String} {tokens : Tokens}
    (h : Tokens.ofSource source = .ok tokens) : Expr.parse source = Parser.settle
      (Parser.expression tokens.stop (Parser.budget tokens.list) tokens.list >>=
        Parser.finish tokens.stop) := by
  unfold Expr.parse
  rw [h]
  rfl

theorem Statement.parseAll_of_tokens {source : String} {tokens : Tokens}
    (h : Tokens.ofSource source = .ok tokens) : Statement.parseAll source = Parser.settle
      (Parser.statements tokens.stop (Parser.budget tokens.list) (Parser.budget tokens.list)
        tokens.list >>= Parser.finish tokens.stop) >>= fun found =>
          if found.isEmpty then .error ⟨.expectedStatement, 0⟩ else .ok found := by
  unfold Statement.parseAll
  rw [h]
  rfl

namespace Walk

variable {α : Type} {tokens : Tokens} {peek : Nat → Spot} {p q least : Nat}

/-! ### Budgets -/

/-- A budget is enough, at a position up to the end, for a function with so many levels below. -/
def Affords (tokens : Tokens) (n depth p : Nat) : Prop :=
  p ≤ tokens.last ∧ 16 * (tokens.last - p) + depth < n

namespace Affords

variable {n depth depth' : Nat}

/-- A call at the same position goes down. -/
theorem down (h : Affords tokens (n + 1) depth p) (hdepth : depth' < depth) :
    Affords tokens n depth' p := by
  obtain ⟨hlast, hn⟩ := h
  exact ⟨hlast, by omega⟩

/-- A call behind a token may start at the top again. -/
theorem behind (h : Affords tokens (n + 1) depth p) (hpq : p < q) (hlast : q ≤ tokens.last)
    (hdepth : depth' < 16) : Affords tokens n depth' q := by
  obtain ⟨-, hn⟩ := h
  exact ⟨hlast, by omega⟩

end Affords

theorem not_affords_zero {depth : Nat} : ¬ Affords tokens 0 depth p := by
  rintro ⟨-, hn⟩
  exact Nat.not_lt_zero _ hn

theorem affords_budget (hp : p ≤ tokens.last) {depth : Nat} (hdepth : depth < 16) :
    Affords tokens (Parser.budget tokens.list) depth p := by
  refine ⟨hp, ?_⟩
  change _ < 16 * (tokens.last + 1)
  omega

/-! ### One level of the grammar -/

/-- Where the budget is enough, walks with it or more follow the functions of the grammar. Those that
read an operand pass over a token. -/
structure Tracking (tokens : Tokens) (peek : Nat → Spot) (k n : Nat) : Prop where
  expression : ∀ {p : Nat}, Affords tokens n 14 p → Tracks tokens p (p + 1)
    (expression peek (k + n)) (Parser.expression tokens.stop n (tokens.list.drop p))
  chain : ∀ {p : Nat} (level : Parser.Level), Affords tokens n (15 - 2 * level.rank) p →
    Tracks tokens p (p + 1) (chain peek (k + n) level)
      (Parser.chain tokens.stop n level (tokens.list.drop p))
  chainRest : ∀ {p : Nat} (level : Parser.Level) (left : Expr), Affords tokens n 0 p →
    Tracks tokens p p (chainRest peek (k + n) level left)
      (Parser.chainRest tokens.stop n level left (tokens.list.drop p))
  operand : ∀ {p : Nat} (level : Parser.Level), Affords tokens n (14 - 2 * level.rank) p →
    Tracks tokens p (p + 1) (operand peek (k + n) level)
      (Parser.operand tokens.stop n level (tokens.list.drop p))
  negation : ∀ {p : Nat}, Affords tokens n 9 p → Tracks tokens p (p + 1)
    (negation peek (k + n)) (Parser.negation tokens.stop n (tokens.list.drop p))
  comparison : ∀ {p : Nat}, Affords tokens n 7 p → Tracks tokens p (p + 1)
    (comparison peek (k + n)) (Parser.comparison tokens.stop n (tokens.list.drop p))
  links : ∀ {p : Nat}, Affords tokens n 0 p → Tracks tokens p p
    (links peek (k + n)) (Parser.links tokens.stop n (tokens.list.drop p))
  signed : ∀ {p : Nat}, Affords tokens n 1 p → Tracks tokens p (p + 1)
    (signed peek (k + n)) (Parser.signed tokens.stop n (tokens.list.drop p))
  postfixRest : ∀ {p : Nat} (base : Expr), Affords tokens n 0 p → Tracks tokens p p
    (postfixRest peek (k + n) base) (Parser.postfixRest tokens.stop n base (tokens.list.drop p))
  sequence : ∀ {p : Nat} (close : Punct), Affords tokens n 15 p → Tracks tokens p (p + 1)
    (sequence peek (k + n) close) (Parser.sequence tokens.stop n close (tokens.list.drop p))
  atom : ∀ {p : Nat}, Affords tokens n 0 p → Tracks tokens p (p + 1)
    (atom peek (k + n)) (Parser.atom tokens.stop n (tokens.list.drop p))

namespace Tracking

variable {k n : Nat}

theorem zero (tokens : Tokens) (peek : Nat → Spot) (k : Nat) : Tracking tokens peek k 0 := by
  constructor <;> intros <;> exact absurd (by assumption) not_affords_zero

variable (ih : Tracking tokens peek k n) (hpeek : tokens.Shows peek)
include ih hpeek

theorem expression_succ (h : Affords tokens (n + 1) 14 p) : Tracks tokens p (p + 1)
    (Walk.expression peek (k + n + 1)) (Parser.expression tokens.stop (n + 1) (tokens.list.drop p)) := by
  rw [Walk.expression, Parser.expression]
  refine (ih.chain .or (h.down (by decide))).bind (Nat.le_succ p) fun body q hq hlast => ?_
  dsimp only
  rcases passes_eatWord hpeek hlast "if" with ⟨hnone, hwalk⟩ | ⟨hsome, hlt, hwalk⟩
  · rw [hnone]
    exact .step hwalk (Nat.le_refl q) (.pure hq hlast body)
  · rw [hsome]
    refine .step hwalk (Nat.le_succ q) ?_
    have htest : Affords tokens n 13 (q + 1) := h.behind (by omega) hlt (by decide)
    refine (ih.chain .or htest).bind (Nat.le_succ _) fun test r hr hlast => ?_
    dsimp only
    rcases passes_eatWord hpeek hlast "else" with ⟨hnone, hwalk⟩ | ⟨hsome, hlt, hwalk⟩
    · rw [hnone]
      exact .step hwalk (Nat.le_refl r) (.fail hpeek hlast _)
    · rw [hsome]
      refine .step hwalk (Nat.le_succ r) ?_
      have horelse : Affords tokens n 14 (r + 1) := h.behind (by omega) hlt (by decide)
      refine (ih.expression horelse).bind (Nat.le_succ _) fun orelse s hs hlast => ?_
      exact .pure (by omega) hlast _

omit hpeek in
theorem chain_succ (level : Parser.Level) (h : Affords tokens (n + 1) (15 - 2 * level.rank) p) :
    Tracks tokens p (p + 1) (Walk.chain peek (k + n + 1) level)
      (Parser.chain tokens.stop (n + 1) level (tokens.list.drop p)) := by
  have hrank := level.rank_le
  rw [Walk.chain, Parser.chain]
  refine (ih.operand level (h.down (by omega))).bind (Nat.le_succ p) fun first q hq hlast => ?_
  exact (ih.chainRest level first (h.behind hq hlast (by decide))).mono hq

theorem chainRest_succ (level : Parser.Level) (left : Expr) (h : Affords tokens (n + 1) 0 p) :
    Tracks tokens p p (Walk.chainRest peek (k + n + 1) level left)
      (Parser.chainRest tokens.stop (n + 1) level left (tokens.list.drop p)) := by
  rw [Walk.chainRest, Parser.chainRest]
  rcases finds_join hpeek h.1 level with ⟨hnone, hwalk⟩ | ⟨join, q, hsome, hwalk, hq, hlast⟩
  · rw [hnone]
    exact .step hwalk (Nat.le_refl p) (.pure (Nat.le_refl p) h.1 left)
  · rw [hsome]
    refine .step hwalk (Nat.le_of_lt hq) ?_
    have hright : Affords tokens n (14 - 2 * level.rank) q := h.behind hq hlast (by omega)
    refine (ih.operand level hright).bind (Nat.le_succ q) fun right r hr hlast => ?_
    exact (ih.chainRest level _ (h.behind (by omega) hlast (by decide))).mono (by omega)

omit hpeek in
theorem operand_succ (level : Parser.Level) (h : Affords tokens (n + 1) (14 - 2 * level.rank) p) :
    Tracks tokens p (p + 1) (Walk.operand peek (k + n + 1) level)
      (Parser.operand tokens.stop (n + 1) level (tokens.list.drop p)) := by
  cases level with
  | or => exact ih.chain .and (h.down (by decide))
  | and => exact ih.negation (h.down (by decide))
  | sum => exact ih.chain .product (h.down (by decide))
  | product => exact ih.signed (h.down (by decide))

theorem negation_succ (h : Affords tokens (n + 1) 9 p) : Tracks tokens p (p + 1)
    (Walk.negation peek (k + n + 1)) (Parser.negation tokens.stop (n + 1) (tokens.list.drop p)) := by
  rw [Walk.negation, Parser.negation]
  rcases passes_eatWord hpeek h.1 "not" with ⟨hnone, hwalk⟩ | ⟨hsome, hlt, hwalk⟩
  · rw [hnone]
    exact .step hwalk (Nat.le_refl p) (ih.comparison (h.down (by decide)))
  · rw [hsome]
    refine .step hwalk (Nat.le_succ p) ?_
    have hrest : Affords tokens n 9 (p + 1) := h.behind (Nat.lt_succ_self p) hlt (by decide)
    refine (ih.negation hrest).bind (Nat.le_succ _) fun e q hq hlast => ?_
    exact .pure (by omega) hlast _

omit hpeek in
theorem comparison_succ (h : Affords tokens (n + 1) 7 p) : Tracks tokens p (p + 1)
    (Walk.comparison peek (k + n + 1))
    (Parser.comparison tokens.stop (n + 1) (tokens.list.drop p)) := by
  rw [Walk.comparison, Parser.comparison]
  refine (ih.chain .sum (h.down (by decide))).bind (Nat.le_succ p) fun first q hq hlast => ?_
  have hlinks : Affords tokens n 0 q := h.behind hq hlast (by decide)
  refine (ih.links hlinks).bind (Nat.le_refl q) fun links r hr hlast => ?_
  cases links with
  | nil => exact .pure (by omega) hlast _
  | cons link links => exact .pure (by omega) hlast _

theorem links_succ (h : Affords tokens (n + 1) 0 p) : Tracks tokens p p
    (Walk.links peek (k + n + 1)) (Parser.links tokens.stop (n + 1) (tokens.list.drop p)) := by
  rw [Walk.links, Parser.links]
  rcases finds_compareOp hpeek h.1 with ⟨hnone, hwalk⟩ | ⟨op, q, hsome, hwalk, hq, hlast⟩
  · rw [hnone]
    exact .step hwalk (Nat.le_refl p) (.pure (Nat.le_refl p) h.1 _)
  · rw [hsome]
    refine .step hwalk (Nat.le_of_lt hq) ?_
    have hright : Affords tokens n 5 q := h.behind hq hlast (by decide)
    refine (ih.chain .sum hright).bind (Nat.le_succ q) fun right r hr hlast => ?_
    have hmore : Affords tokens n 0 r := h.behind (by omega) hlast (by decide)
    refine (ih.links hmore).bind (Nat.le_refl r) fun more s hs hlast => ?_
    exact .pure (by omega) hlast _

theorem signed_succ (h : Affords tokens (n + 1) 1 p) : Tracks tokens p (p + 1)
    (Walk.signed peek (k + n + 1)) (Parser.signed tokens.stop (n + 1) (tokens.list.drop p)) := by
  have hsign (op : UnaryOp) (hlt : p + 1 ≤ tokens.last) : Tracks tokens (p + 1) (p + 1)
      (Walk.signed peek (k + n) >>= fun e => pure (Expr.unary op e))
      (Parser.signed tokens.stop n (tokens.list.drop (p + 1)) >>= fun r =>
        pure (Expr.unary op r.1, r.2)) := by
    have hrest : Affords tokens n 1 (p + 1) := h.behind (Nat.lt_succ_self p) hlt (by decide)
    refine (ih.signed hrest).bind (Nat.le_succ _) fun e q hq hlast => ?_
    exact .pure (by omega) hlast _
  rw [Walk.signed, Parser.signed_succ]
  rcases passes_eat hpeek h.1 .minus with ⟨hnone, hwalk⟩ | ⟨hsome, hlt, hwalk⟩
  · rw [hnone]
    refine .step hwalk (Nat.le_refl p) ?_
    dsimp only
    rcases passes_eat hpeek h.1 .plus with ⟨hnone, hwalk⟩ | ⟨hsome, hlt, hwalk⟩
    · rw [hnone]
      refine .step hwalk (Nat.le_refl p) ?_
      refine (ih.atom (h.down (by decide))).bind (Nat.le_succ p) fun e q hq hlast => ?_
      exact (ih.postfixRest e (h.behind hq hlast (by decide))).mono hq
    · rw [hsome]
      exact .step hwalk (Nat.le_succ p) (hsign .pos hlt)
  · rw [hsome]
    exact .step hwalk (Nat.le_succ p) (hsign .neg hlt)

theorem postfixRest_succ (base : Expr) (h : Affords tokens (n + 1) 0 p) : Tracks tokens p p
    (Walk.postfixRest peek (k + n + 1) base)
    (Parser.postfixRest tokens.stop (n + 1) base (tokens.list.drop p)) := by
  have hrest {q : Nat} (base : Expr) (hpq : p < q) (hlast : q ≤ tokens.last) : Tracks tokens q p
      (Walk.postfixRest peek (k + n) base)
      (Parser.postfixRest tokens.stop n base (tokens.list.drop q)) :=
    (ih.postfixRest base (h.behind hpq hlast (by decide))).mono (Nat.le_of_lt hpq)
  rw [Walk.postfixRest, Parser.postfixRest_succ]
  rcases passes_eat hpeek h.1 .dot with ⟨hnone, hwalk⟩ | ⟨hsome, hlt, hwalk⟩
  · rw [hnone]
    refine .step hwalk (Nat.le_refl p) ?_
    dsimp only
    rcases passes_eat hpeek h.1 .openParen with ⟨hnone, hwalk⟩ | ⟨hsome, hlt, hwalk⟩
    · rw [hnone]
      refine .step hwalk (Nat.le_refl p) ?_
      dsimp only
      rcases passes_eat hpeek h.1 .openBracket with ⟨hnone, hwalk⟩ | ⟨hsome, hlt, hwalk⟩
      · rw [hnone]
        exact .step hwalk (Nat.le_refl p) (.pure (Nat.le_refl p) h.1 base)
      · rw [hsome]
        refine .step hwalk (Nat.le_succ p) ?_
        have hindex : Affords tokens n 14 (p + 1) := h.behind (Nat.lt_succ_self p) hlt (by decide)
        refine (ih.expression hindex).bind (Nat.le_succ _) fun index q hq hlast => ?_
        exact .expect hpeek hlast .closeBracket fun hlt => hrest _ (by omega) hlt
    · rw [hsome]
      refine .step hwalk (Nat.le_succ p) ?_
      have harguments : Affords tokens n 15 (p + 1) := h.behind (Nat.lt_succ_self p) hlt (by decide)
      refine (ih.sequence .closeParen harguments).bind (Nat.le_succ _) ?_
      rintro ⟨arguments, comma⟩ q hq hlast
      exact hrest _ (by omega) hlast
  · rw [hsome]
    refine .step hwalk (Nat.le_succ p) ?_
    dsimp only
    rcases hpeek.advance hlt with
      ⟨hdrop, hmem, hadvance⟩ | ⟨⟨lexeme, start, stop⟩, hdrop, hlast, hmem, hadvance⟩
    · rw [hdrop]
      exact .step hadvance (Nat.le_refl _) (.throw hlt hmem _)
    · rw [hdrop]
      cases lexeme with
      | name s => exact .step hadvance (Nat.le_succ _) (hrest _ (by omega) hlast)
      | _ => exact .step hadvance (Nat.le_succ _) (.throw hlast hmem _)

theorem sequence_succ (close : Punct) (h : Affords tokens (n + 1) 15 p) : Tracks tokens p (p + 1)
    (Walk.sequence peek (k + n + 1) close)
    (Parser.sequence tokens.stop (n + 1) close (tokens.list.drop p)) := by
  rw [Walk.sequence, Parser.sequence]
  rcases passes_eat hpeek h.1 close with ⟨hnone, hwalk⟩ | ⟨hsome, hlt, hwalk⟩
  · rw [hnone]
    refine .step hwalk (Nat.le_refl p) ?_
    refine (ih.expression (h.down (by decide))).bind (Nat.le_succ p) fun first q hq hlast => ?_
    dsimp only
    rcases passes_eat hpeek hlast .comma with ⟨hnone, hwalk⟩ | ⟨hsome, hlt, hwalk⟩
    · rw [hnone]
      refine .step hwalk (Nat.le_refl q) ?_
      exact .expect hpeek hlast close fun hlt => .pure (by omega) hlt _
    · rw [hsome]
      refine .step hwalk (Nat.le_succ q) ?_
      have hmore : Affords tokens n 15 (q + 1) := h.behind (by omega) hlt (by decide)
      refine (ih.sequence close hmore).bind (Nat.le_succ _) ?_
      rintro ⟨more, comma⟩ r hr hlast
      exact .pure (by omega) hlast _
  · rw [hsome]
    exact .step hwalk (Nat.le_succ p) (.pure (Nat.le_refl _) hlt _)

theorem atom_succ (h : Affords tokens (n + 1) 0 p) : Tracks tokens p (p + 1)
    (Walk.atom peek (k + n + 1)) (Parser.atom tokens.stop (n + 1) (tokens.list.drop p)) := by
  rw [Walk.atom]
  rcases hpeek.advance h.1 with
    ⟨hdrop, hmem, hadvance⟩ | ⟨⟨lexeme, start, stop⟩, hdrop, hlt, hmem, hadvance⟩
  · rw [hdrop]
    exact .step hadvance (Nat.le_refl p) (.throw h.1 hmem _)
  · rw [hdrop]
    refine .step hadvance (Nat.le_succ p) ?_
    have hfound (e : Expr) : Tracks tokens (p + 1) (p + 1) (pure e)
        (pure (e, tokens.list.drop (p + 1))) := .pure (Nat.le_refl _) hlt e
    have hitems : Affords tokens n 15 (p + 1) := h.behind (Nat.lt_succ_self p) hlt (by decide)
    cases lexeme with
    | int i => exact hfound _
    | float x => exact hfound _
    | str s =>
      obtain ⟨-, hn⟩ := h
      obtain ⟨more, q, hq, hlast, hread, hwalk⟩ :=
        exists_adjacentStrings hpeek hlt (show tokens.last - (p + 1) < k + n by omega)
      rw [Parser.atom]
      dsimp only
      rw [hread]
      exact .step hwalk hq (.pure hq hlast _)
    | name s =>
      rw [Parser.atom]
      dsimp only
      split
      · exact hfound _
      · split
        · exact hfound _
        · split
          · exact hfound _
          · split
            · exact .throw hlt hmem _
            · exact hfound _
    | punct q =>
      cases q with
      | openParen =>
        refine (ih.sequence .closeParen hitems).bind (Nat.le_succ _) ?_
        rintro ⟨items, comma⟩ q hq hlast
        -- A single item without a comma is itself, all others are lists.
        rcases items with _ | ⟨e, _ | ⟨e', es⟩⟩ <;> cases comma <;>
          exact .pure (by omega) hlast _
      | openBracket =>
        refine (ih.sequence .closeBracket hitems).bind (Nat.le_succ _) ?_
        rintro ⟨items, comma⟩ q hq hlast
        exact .pure (by omega) hlast _
      | _ => exact .throw hlt hmem _

end Tracking

/-- Walks with enough budget follow the functions of the grammar. -/
theorem tracking (hpeek : tokens.Shows peek) (k n : Nat) : Tracking tokens peek k n := by
  induction n with
  | zero => exact .zero tokens peek k
  | succ n ih =>
    constructor
    case expression => exact ih.expression_succ hpeek
    case chain => exact ih.chain_succ
    case chainRest => exact ih.chainRest_succ hpeek
    case operand => exact ih.operand_succ
    case negation => exact ih.negation_succ hpeek
    case comparison => exact ih.comparison_succ
    case links => exact ih.links_succ hpeek
    case signed => exact ih.signed_succ hpeek
    case postfixRest => exact ih.postfixRest_succ hpeek
    case sequence => exact ih.sequence_succ hpeek
    case atom => exact ih.atom_succ hpeek

/-! ### Statements -/

section

variable {n n' budget budget' : Nat}

theorem tracks_expression (hpeek : tokens.Shows peek) (hp : Affords tokens n 14 p) (hn : n ≤ n') :
    Tracks tokens p (p + 1) (expression peek n')
      (Parser.expression tokens.stop n (tokens.list.drop p)) := by
  obtain ⟨k, rfl⟩ := Nat.exists_eq_add_of_le' hn
  exact (tracking hpeek k n).expression hp

theorem tracks_statement (hpeek : tokens.Shows peek) (hp : Affords tokens n 14 p) (hn : n ≤ n') :
    Tracks tokens p (p + 1) (statement peek n')
      (Parser.statement tokens.stop n (tokens.list.drop p)) := by
  refine .step (outcome_look peek 0 p) (Nat.le_refl p) ?_
  refine (tracks_expression hpeek hp hn).bind (Nat.le_succ p) fun target q hq hlast => ?_
  dsimp only
  rcases passes_eat hpeek hlast .assign with ⟨hnone, hwalk⟩ | ⟨hsome, hlt, hwalk⟩
  · rw [hnone]
    exact .step hwalk (Nat.le_refl q) (.pure hq hlast _)
  · obtain ⟨hfirst, hbudget⟩ := hp
    rw [hsome]
    refine .step hwalk (Nat.le_succ q) ?_
    have hvalue : Affords tokens n 14 (q + 1) := ⟨hlt, by omega⟩
    refine (tracks_expression hpeek hvalue hn).bind (Nat.le_succ _) fun value r hr hlast => ?_
    cases target with
    | attr object attr => exact .pure (by omega) hlast _
    | _ =>
      dsimp only
      rw [hpeek.nextOffset hfirst]
      exact .throw hlast (hpeek.mem_spots hfirst) _

theorem tracks_statements (hpeek : tokens.Shows peek) (hbudget : 16 * (tokens.last + 1) ≤ budget)
    (hbudget' : budget ≤ budget') (hp : p ≤ tokens.last) (hn : tokens.last - p < n) (hn' : n ≤ n') :
    Tracks tokens p p (statements peek budget' n')
      (Parser.statements tokens.stop budget n (tokens.list.drop p)) := by
  induction n generalizing p n' with
  | zero => exact absurd hn (Nat.not_lt_zero _)
  | succ n ih =>
    obtain ⟨n', rfl⟩ : ∃ m, n' = m + 1 := ⟨n' - 1, by omega⟩
    rw [statements, Parser.statements]
    obtain ⟨q, hq, hlast, hread, hwalk⟩ :=
      exists_skipSemicolons hpeek hp (show tokens.last - p < budget' by omega)
    rw [hread]
    refine .step hwalk hq (.step (outcome_look peek 0 q) (Nat.le_refl q) ?_)
    rw [Nat.add_zero]
    rcases hpeek.front hlast with ⟨hdrop, hend⟩ | ⟨t, hdrop, -, hfirst⟩
    · rw [hdrop, hend]
      exact .found [] q (by rw [hdrop]) rfl hq hlast
    · rw [hdrop, hfirst]
      dsimp only
      rw [← hdrop]
      have hstatement : Affords tokens budget 14 q := ⟨hlast, by omega⟩
      refine (tracks_statement hpeek hstatement hbudget').bind (Nat.le_succ q)
        fun first r hr hlast => ?_
      dsimp only
      rcases passes_eat hpeek hlast .semicolon with ⟨hnone, hwalk⟩ | ⟨hsome, hlt, hwalk⟩
      · rw [hnone]
        exact .step hwalk (Nat.le_refl r) (.pure (by omega) hlast _)
      · rw [hsome]
        refine .step hwalk (Nat.le_succ r) ?_
        refine (ih hlt (by omega) (by omega)).bind (Nat.le_refl _) fun more s hs hlast => ?_
        exact .pure (by omega) hlast _

end

/-! ### Sources -/

variable {source : String} {n : Nat}

/-- What a walk through a whole source comes to: it ends at a position up to the end, and what it
refuses is refused at a token or at the end. -/
def Concludes (tokens : Tokens) (w : Walk α) (result : Except SyntaxError α) : Prop :=
  (∃ q ≤ tokens.last, w.outcome 0 = some (result, q)) ∧
    ∀ e, result = .error e → tokens.Marks e.offset

theorem Tracks.whole (hpeek : tokens.Shows peek) {w : Walk α} {x : Attempt (α × List Token)}
    (h : Tracks tokens 0 least w x) :
    Concludes tokens (whole peek w) (Parser.settle (x >>= Parser.finish tokens.stop)) := by
  cases h with
  | refused e q hread hwalk hp hlast hmarks =>
    rw [hread]
    refine ⟨⟨q, hlast, outcome_bind_error hwalk⟩, ?_⟩
    rintro _ ⟨⟩
    exact hmarks
  | found a q hread hwalk hleast hlast =>
    have hmem := hpeek.mem_spots hlast
    have hbehind := outcome_look peek 0 q
    rw [Nat.add_zero] at hbehind
    rw [hread, pure_bind]
    rcases hpeek.front hlast with ⟨hdrop, hend⟩ | ⟨t, hdrop, -, hfirst⟩
    · rw [hend] at hbehind
      have hends : (expectEnd peek).outcome q = some (.ok (), q) := outcome_bind_ok hbehind
      rw [hdrop]
      refine ⟨⟨q, hlast, (outcome_bind_ok hwalk).trans (outcome_bind_ok hends)⟩, ?_⟩
      rintro _ ⟨⟩
    · rw [hfirst] at hbehind hmem
      have hends : (expectEnd peek).outcome q =
          some (.error ⟨.trailingInput, (peek q).offset⟩, q) := outcome_bind_ok hbehind
      rw [hfirst] at hends
      rw [hdrop]
      refine ⟨⟨q, hlast, (outcome_bind_ok hwalk).trans (outcome_bind_error hends)⟩, ?_⟩
      rintro _ ⟨⟩
      exact ⟨_, hmem, rfl⟩

/--
At every position up to the end, whatever may be seen beyond it, and whatever budget beyond that of
the source is given: a walk by a function of the grammar follows its reading and, where it succeeds, has
passed over a token.
-/
structure Progress (tokens : Tokens) (peek : Nat → Spot) (budget : Nat) : Prop where
  statement : ∀ p ≤ tokens.last, Tracks tokens p (p + 1) (statement peek budget)
    (Parser.statement tokens.stop (Parser.budget tokens.list) (tokens.list.drop p))
  expression : ∀ p ≤ tokens.last, Tracks tokens p (p + 1) (expression peek budget)
    (Parser.expression tokens.stop (Parser.budget tokens.list) (tokens.list.drop p))
  chain : ∀ p ≤ tokens.last, ∀ level, Tracks tokens p (p + 1) (chain peek budget level)
    (Parser.chain tokens.stop (Parser.budget tokens.list) level (tokens.list.drop p))
  negation : ∀ p ≤ tokens.last, Tracks tokens p (p + 1) (negation peek budget)
    (Parser.negation tokens.stop (Parser.budget tokens.list) (tokens.list.drop p))
  comparison : ∀ p ≤ tokens.last, Tracks tokens p (p + 1) (comparison peek budget)
    (Parser.comparison tokens.stop (Parser.budget tokens.list) (tokens.list.drop p))
  compareOp : ∀ p ≤ tokens.last, Finds tokens p (compareOp peek)
    (Parser.compareOp? (tokens.list.drop p))
  signed : ∀ p ≤ tokens.last, Tracks tokens p (p + 1) (signed peek budget)
    (Parser.signed tokens.stop (Parser.budget tokens.list) (tokens.list.drop p))
  access : ∀ p ≤ tokens.last, Tracks tokens p (p + 1)
    (atom peek budget >>= postfixRest peek budget)
    (Parser.atom tokens.stop (Parser.budget tokens.list) (tokens.list.drop p) >>= fun (e, ts) =>
      Parser.postfixRest tokens.stop (Parser.budget tokens.list) e ts)
  sequence : ∀ p ≤ tokens.last, ∀ close, Tracks tokens p (p + 1) (sequence peek budget close)
    (Parser.sequence tokens.stop (Parser.budget tokens.list) close (tokens.list.drop p))
  atom : ∀ p ≤ tokens.last, Tracks tokens p (p + 1) (atom peek budget)
    (Parser.atom tokens.stop (Parser.budget tokens.list) (tokens.list.drop p))

theorem progress (hpeek : tokens.Shows peek) (hn : Parser.budget tokens.list ≤ n) :
    Progress tokens peek n := by
  obtain ⟨k, rfl⟩ := Nat.exists_eq_add_of_le' hn
  have hall : Tracking tokens peek k (Parser.budget tokens.list) := tracking hpeek _ _
  have henough {depth p : Nat} (hp : p ≤ tokens.last) (hdepth : depth < 16) :=
    affords_budget hp hdepth
  constructor
  case statement => exact fun p hp => tracks_statement hpeek (henough hp (by decide)) hn
  case expression => exact fun p hp => hall.expression (henough hp (by decide))
  case chain => exact fun p hp level => hall.chain level (henough hp (by omega))
  case negation => exact fun p hp => hall.negation (henough hp (by decide))
  case comparison => exact fun p hp => hall.comparison (henough hp (by decide))
  case compareOp => exact fun p hp => finds_compareOp hpeek hp
  case signed => exact fun p hp => hall.signed (henough hp (by decide))
  case sequence => exact fun p hp close => hall.sequence close (henough hp (by decide))
  case atom => exact fun p hp => hall.atom (henough hp (by decide))
  case access =>
    intro p hp
    refine (hall.atom (henough hp (by decide))).bind (Nat.le_succ p) fun e q hq hlast => ?_
    exact (hall.postfixRest e (henough hlast (by decide))).mono hq

theorem concludes_parse (htokens : Tokens.ofSource source = .ok tokens) (hpeek : tokens.Shows peek)
    (hn : Parser.budget tokens.list ≤ n) :
    Concludes tokens (parse peek n) (Expr.parse source) := by
  rw [Expr.parse_of_tokens htokens]
  exact ((progress hpeek hn).expression 0 (Nat.zero_le _)).whole hpeek

theorem concludes_parseAll (htokens : Tokens.ofSource source = .ok tokens)
    (hpeek : tokens.Shows peek) (hn : Parser.budget tokens.list ≤ n) :
    (∃ q ≤ tokens.last, (parseAll peek n).outcome 0 = some (Statement.parseAll source, q)) ∧
      ∀ e, Statement.parseAll source = .error e → tokens.Marks e.offset ∨
        e = ⟨.expectedStatement, 0⟩ ∧ ∀ t ∈ tokens.list, t.lexeme = .punct .semicolon := by
  have hbudget : Parser.budget tokens.list = 16 * (tokens.last + 1) := rfl
  have htracks : Tracks tokens 0 0 (statements peek n n)
      (Parser.statements tokens.stop (Parser.budget tokens.list) (Parser.budget tokens.list)
        tokens.list) :=
    tracks_statements hpeek (Nat.le_of_eq hbudget.symm) hn (Nat.zero_le _) (by omega) hn
  obtain ⟨⟨q, hq, hwalk⟩, hmarks⟩ := htracks.whole hpeek
  rw [Statement.parseAll_of_tokens htokens]
  cases hsettle : Parser.settle (Parser.statements tokens.stop (Parser.budget tokens.list)
      (Parser.budget tokens.list) tokens.list >>= Parser.finish tokens.stop) with
  | error e =>
    rw [hsettle] at hwalk hmarks
    refine ⟨⟨q, hq, outcome_bind_error hwalk⟩, ?_⟩
    rintro _ ⟨⟩
    exact .inl (hmarks e rfl)
  | ok found =>
    rw [hsettle] at hwalk
    refine ⟨⟨q, hq, (outcome_bind_ok hwalk).trans ?_⟩, ?_⟩
    · cases found <;> rfl
    · cases found with
      | cons first more => rintro _ ⟨⟩
      | nil =>
        rintro _ ⟨⟩
        obtain ⟨⟨found, rest⟩, hstatements, hfinish⟩ :=
          Attempt.exists_of_bind (Parser.settle_eq_ok_iff.1 hsettle)
        obtain ⟨rfl, -⟩ := Parser.finish_eq_pure_iff.1 hfinish
        exact .inr ⟨rfl, Parser.semicolons_of_statements hstatements⟩

/--
The parser makes progress on every source that has tokens. A walk over their positions ends within the
budget of the source, or any larger one, with what parsing comes to, and it never needs to see what
lies beyond the end. What is refused is refused at a token or at the end, or there is no statement.
-/
theorem progress_of_shows (htokens : Tokens.ofSource source = .ok tokens)
    (hpeek : tokens.Shows peek) (hn : Parser.budget tokens.list ≤ n) :
    (∃ q ≤ tokens.last, (parse peek n).outcome 0 = some (Expr.parse source, q)) ∧
      (∃ q ≤ tokens.last, (parseAll peek n).outcome 0 = some (Statement.parseAll source, q)) ∧
      (∀ e, Expr.parse source = .error e → tokens.Marks e.offset) ∧
      (∀ e, Statement.parseAll source = .error e → tokens.Marks e.offset ∨
        e = ⟨.expectedStatement, 0⟩ ∧ ∀ t ∈ tokens.list, t.lexeme = .punct .semicolon) ∧
      Progress tokens peek n := by
  obtain ⟨hparse, hmarks⟩ := concludes_parse htokens hpeek hn
  obtain ⟨hparseAll, hmarksAll⟩ := concludes_parseAll htokens hpeek hn
  exact ⟨hparse, hparseAll, hmarks, hmarksAll, progress hpeek hn⟩

/-- A conditional with an operator of two tokens, seen with positions beyond the end taken for it. -/
theorem progress_of_shows_notIn :
    ∃ tokens, Tokens.ofSource "x.y not in [1, 'a' 'b'] if not f(2) else -z[0] # end" = .ok tokens ∧
      tokens.last = 23 ∧ tokens.Shows tokens.clamped ∧
      (∃ q ≤ tokens.last, (parse tokens.clamped (Parser.budget tokens.list)).outcome 0 =
        some (Expr.parse "x.y not in [1, 'a' 'b'] if not f(2) else -z[0] # end", q)) ∧
      Progress tokens tokens.clamped (Parser.budget tokens.list) := by
  have hlength : (Tokens.ofSource "x.y not in [1, 'a' 'b'] if not f(2) else -z[0] # end").toOption.map
      Tokens.last = some 23 := by
    decide +kernel
  cases htokens : Tokens.ofSource "x.y not in [1, 'a' 'b'] if not f(2) else -z[0] # end" with
  | error e =>
    rw [htokens] at hlength
    cases hlength
  | ok tokens =>
    rw [htokens] at hlength
    obtain ⟨hparse, -, -, -, hprogress⟩ :=
      progress_of_shows htokens tokens.shows_clamped (Nat.le_refl _)
    exact ⟨tokens, rfl, Option.some.inj hlength, tokens.shows_clamped, hparse, hprogress⟩

end Walk

end ReactiveView
