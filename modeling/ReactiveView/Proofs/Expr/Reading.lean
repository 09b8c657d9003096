import ReactiveView.Proofs.Expr.Scanning

/-!
This module contains that the parser reads what was written. For each rank of operators there is a
function of the grammar that reads what binds at least as tightly; it stops in front of whatever goes
on looser. The functions that join operands from the left do not stop in front of an operator of
their own rank, but come to read the rest of the chain with what they have read so far at its left.
-/

namespace ReactiveView

open ReactiveView.Parser

/-! ### What goes on and what starts -/

/-- The rank of the operators that a lexeme goes on with behind an expression, counted from one; zero
for those that no expression goes on with. -/
def Lexeme.grip : Lexeme → Nat
  | .str _ => Rank.access + 2
  | .punct .dot | .punct .openParen | .punct .openBracket => Rank.access + 1
  | .punct .star | .punct .slash | .punct .floorDiv | .punct .percent => Rank.product + 1
  | .punct .plus | .punct .minus => Rank.sum + 1
  | .punct .equal | .punct .notEqual | .punct .less | .punct .lessEqual | .punct .greater
  | .punct .greaterEqual => Rank.comparison + 1
  | .name "in" | .name "not" => Rank.comparison + 1
  | .name "and" => Rank.and + 1
  | .name "or" => Rank.or + 1
  | .name "if" => Rank.conditional + 1
  | _ => 0

/-- Whether what binds at least as tightly as a rank can start with a lexeme. -/
def Lexeme.Starts (rank : Nat) : Lexeme → Prop
  | .int _ | .float _ | .str _ | .punct .openParen | .punct .openBracket => True
  | .punct .plus | .punct .minus => rank ≤ Rank.sign
  | .punct _ => False
  | .name s => s = "not" → rank ≤ Rank.not

theorem Lexeme.Starts.mono {l : Lexeme} {m n : Nat} (h : l.Starts n) (hm : m ≤ n) : l.Starts m := by
  unfold Lexeme.Starts at h ⊢
  split at h
  · trivial
  · trivial
  · trivial
  · trivial
  · trivial
  · exact Nat.le_trans hm h
  · exact Nat.le_trans hm h
  · exact h.elim
  · exact fun hs => Nat.le_trans hm (h hs)

namespace Parser

/-- An expression of a rank ends in front of the tokens. -/
def Ends (rank : Nat) (ts : List Token) : Prop := ∀ t ∈ ts.head?, t.lexeme.grip ≤ rank

/-- The rank of the operators of a level. -/
def Level.rank : Level → Nat
  | or => Rank.or
  | and => Rank.and
  | sum => Rank.sum
  | product => Rank.product

theorem Level.rank_le (level : Level) : level.rank ≤ 6 := by cases level <;> decide

variable {stop rank n b : Nat} {ts rest : List Token} {ls : List Lexeme} {l : Lexeme} {e : Expr}
  {level : Level} {p : Punct} {word : String}

theorem Ends.mono (h : Ends n ts) (hn : n ≤ rank) : Ends rank ts :=
  fun t ht => Nat.le_trans (h t ht) hn

theorem ends_nil : Ends n [] := nofun

theorem ends_cons {t : Token} : Ends n (t :: ts) ↔ t.lexeme.grip ≤ n :=
  ⟨fun h => h t rfl, fun h _ ht => by cases ht; exact h⟩

theorem Ends.ne {t : Token} (h : Ends n (t :: ts)) (l : Lexeme) (hl : n < l.grip) :
    t.lexeme ≠ l := by
  rintro rfl
  exact absurd (ends_cons.1 h) (Nat.not_le.2 hl)

theorem eat?_of_ne (h : ∀ t ∈ ts.head?, t.lexeme ≠ .punct p) : eat? p ts = none := by
  unfold eat?
  split
  · split
    · next hp => exact absurd (by rw [hp]) (h _ rfl)
    · rfl
  · rfl

theorem eatWord?_of_ne (h : ∀ t ∈ ts.head?, t.lexeme ≠ .name word) : eatWord? word ts = none := by
  unfold eatWord?
  split
  · split
    · next hs => exact absurd (by rw [hs]) (h _ rfl)
    · rfl
  · rfl

theorem Ends.eatWord? (h : Ends n ts) (hl : n < (Lexeme.name word).grip) :
    Parser.eatWord? word ts = none := by
  apply eatWord?_of_ne
  intro t ht
  cases ts with
  | nil => cases ht
  | cons t' rest =>
    cases ht
    exact h.ne _ hl

/-- In front of an end a chain does not go on. -/
theorem Ends.join? (h : Ends level.rank ts) : level.join? ts = none := by
  cases level with
  | or => exact congrArg (Option.map _) (h.eatWord? (by decide))
  | and => exact congrArg (Option.map _) (h.eatWord? (by decide))
  | sum =>
    unfold Level.join?
    split <;> first | rfl | contradiction | exact absurd rfl (h.ne (.punct _) (by decide))
  | product =>
    unfold Level.join?
    split <;> first | rfl | contradiction | exact absurd rfl (h.ne (.punct _) (by decide))

theorem Ends.compareOp? (h : Ends Rank.comparison ts) : Parser.compareOp? ts = none := by
  unfold Parser.compareOp?
  split
  iterate 6 exact absurd rfl (h.ne (.punct _) (by decide))
  rw [h.eatWord? (by decide), h.eatWord? (by decide)]

theorem Ends.adjacentStrings (h : Ends (Rank.access + 1) ts) :
    Parser.adjacentStrings ts = ("", ts) := by
  unfold Parser.adjacentStrings
  split
  · next s _ _ _ => exact absurd rfl (h.ne (.str s) (Nat.lt_succ_self 9))
  · rfl

/-- In front of an end nothing is taken of an expression. -/
theorem Ends.postfixRest (h : Ends Rank.access ts) :
    Parser.postfixRest stop (b + 1) e ts = pure (e, ts) := by
  rw [postfixRest.eq_def]
  dsimp only
  split
  case h_1 => contradiction
  case h_2 => exact absurd rfl (h.ne (.punct .dot) (by decide))
  case h_3 => exact absurd rfl (h.ne (.punct .openParen) (by decide))
  case h_4 => exact absurd rfl (h.ne (.punct .openBracket) (by decide))
  case h_5 => rfl

/-! ### Reading at a rank -/

/-- The function of the grammar that reads what binds at least as tightly as a rank. -/
def reader (stop : Nat) : Nat → Nat → List Token → Attempt (Expr × List Token)
  | 0, b, ts => expression stop b ts
  | 1, b, ts => chain stop b .or ts
  | 2, b, ts => chain stop b .and ts
  | 3, b, ts => negation stop b ts
  | 4, b, ts => comparison stop b ts
  | 5, b, ts => chain stop b .sum ts
  | 6, b, ts => chain stop b .product ts
  | 7, b, ts => signed stop b ts
  | _, b, ts => do
    let (e, ts) ← atom stop b ts
    postfixRest stop b e ts

theorem reader_rank : reader stop level.rank b ts = chain stop b level ts := by
  cases level <;> rfl

theorem operand_succ : operand stop (b + 1) level ts = reader stop (level.rank + 1) b ts := by
  cases level <;> rfl

/-- The lexemes are read as the expression by whatever reads at the rank. The tighter the rank, the
smaller a budget is enough. -/
def Reads (stop rank : Nat) (ls : List Lexeme) (e : Expr) : Prop :=
  ∀ ⦃ts : List Token⦄, ts.map Token.lexeme = ls → ∀ (rest : List Token) (b : Nat), Ends rank rest →
    16 * ls.length + 2 ≤ b + 2 * rank → reader stop rank b (ts ++ rest) = pure (e, rest)

/-- A chain that starts with the lexemes comes to go on with the expression at its left. -/
def Chains (stop : Nat) (level : Level) (ls : List Lexeme) (e : Expr) : Prop :=
  ∀ ⦃ts : List Token⦄, ts.map Token.lexeme = ls → ∀ (rest : List Token) (b : Nat),
    Ends (level.rank + 1) rest → 16 * ls.length + 2 ≤ b + 2 * level.rank →
      ∃ b', b ≤ b' + ls.length ∧
        chain stop b level (ts ++ rest) = chainRest stop b' level e rest

/-- Attributes, calls and items behind the lexemes come to be read with the expression as base. -/
def Carries (stop : Nat) (ls : List Lexeme) (e : Expr) : Prop :=
  ∀ ⦃ts : List Token⦄, ts.map Token.lexeme = ls → ∀ (rest : List Token) (b : Nat),
    Ends (Rank.access + 1) rest → 16 * ls.length + 2 ≤ b + 2 * Rank.access →
      ∃ b', b ≤ b' + ls.length ∧
        reader stop Rank.access b (ts ++ rest) = postfixRest stop b' e rest

/-- The first of the lexemes is one that can start at the rank. -/
def StartsAt (rank : Nat) (ls : List Lexeme) : Prop := ∃ l ls', ls = l :: ls' ∧ l.Starts rank

theorem StartsAt.length_pos (h : StartsAt n ls) : 0 < ls.length := by
  obtain ⟨l, ls', rfl, -⟩ := h
  exact Nat.succ_pos _

theorem StartsAt.mono (h : StartsAt n ls) (hn : rank ≤ n) : StartsAt rank ls := by
  obtain ⟨l, ls', hls, hl⟩ := h
  exact ⟨l, ls', hls, hl.mono hn⟩

theorem StartsAt.append (h : StartsAt n ls) (more : List Lexeme) : StartsAt n (ls ++ more) := by
  obtain ⟨l, ls', rfl, hl⟩ := h
  exact ⟨l, ls' ++ more, rfl, hl⟩

/-- Tokens with such lexemes start with a token of this kind. -/
theorem StartsAt.exists_token (h : StartsAt n ls) (hts : ts.map Token.lexeme = ls) :
    ∃ t ts', ts = t :: ts' ∧ t.lexeme.Starts n := by
  obtain ⟨l, ls', rfl, hl⟩ := h
  obtain ⟨t, ts', rfl, rfl, -⟩ := List.map_eq_cons_iff.1 hts
  exact ⟨t, ts', rfl, hl⟩

theorem Reads.expression_eq (h : Reads stop Rank.conditional ls e) (hts : ts.map Token.lexeme = ls)
    (rest : List Token) (b : Nat) (hrest : Ends Rank.conditional rest)
    (hb : 16 * ls.length + 2 ≤ b) : expression stop b (ts ++ rest) = pure (e, rest) :=
  h hts rest b hrest hb

theorem Reads.chain_eq (level : Level) (h : Reads stop level.rank ls e)
    (hts : ts.map Token.lexeme = ls) (rest : List Token) (b : Nat) (hrest : Ends level.rank rest)
    (hb : 16 * ls.length + 2 ≤ b + 2 * level.rank) :
    chain stop b level (ts ++ rest) = pure (e, rest) :=
  reader_rank.symm.trans (h hts rest b hrest hb)

theorem Chains.reads (h : Chains stop level ls e) (hls : 0 < ls.length) :
    Reads stop level.rank ls e := by
  intro ts hts rest b hrest hb
  obtain ⟨b', hb', hchain⟩ := h hts rest b (hrest.mono (Nat.le_succ _)) hb
  have hlevel := level.rank_le
  obtain ⟨b', rfl⟩ : ∃ n, b' = n + 1 := ⟨b' - 1, by omega⟩
  rw [reader_rank, hchain, chainRest, hrest.join?]

theorem Reads.chains (level : Level) (h : Reads stop (level.rank + 1) ls e)
    (hls : 0 < ls.length) :
    Chains stop level ls e := by
  intro ts hts rest b hrest hb
  have hlevel := level.rank_le
  obtain ⟨b, rfl⟩ : ∃ n, b = n + 2 := ⟨b - 2, by omega⟩
  refine ⟨b + 1, by omega, ?_⟩
  rw [chain, operand_succ, h hts rest b hrest (by omega), pure_bind]

theorem Carries.reads (h : Carries stop ls e) (hls : 0 < ls.length) :
    Reads stop Rank.access ls e := by
  intro ts hts rest b hrest hb
  obtain ⟨b', hb', hcarry⟩ := h hts rest b (hrest.mono (Nat.le_succ _)) hb
  have haccess : Rank.access = 8 := rfl
  obtain ⟨b', rfl⟩ : ∃ n, b' = n + 1 := ⟨b' - 1, by omega⟩
  rw [hcarry, hrest.postfixRest]

/-- What is read at a rank is read at the next looser one. -/
theorem Reads.down (h : Reads stop (n + 1) ls e) (hstarts : StartsAt (n + 1) ls)
    (hn : n < Rank.access) : Reads stop n ls e := by
  have hls := hstarts.length_pos
  match n, hn with
  | 0, _ =>
    -- No `if` follows.
    intro ts hts rest b hrest hb
    obtain ⟨b, rfl⟩ : ∃ n, b = n + 1 := ⟨b - 1, by omega⟩
    have hor : Level.or.rank = 1 := rfl
    have hread := h.chain_eq .or hts rest b (hrest.mono (Nat.le_succ _)) (by omega)
    rw [reader, expression, hread, pure_bind]
    dsimp only
    rw [hrest.eatWord? (by decide)]
  | 1, _ => exact (Reads.chains .or h hls).reads hls
  | 2, _ => exact (Reads.chains .and h hls).reads hls
  | 3, _ =>
    -- Nothing that binds tighter starts with `not`.
    intro ts hts rest b hrest hb
    obtain ⟨b, rfl⟩ : ∃ n, b = n + 1 := ⟨b - 1, by omega⟩
    obtain ⟨t, ts', rfl, ht⟩ := hstarts.exists_token hts
    have hnot : t.lexeme ≠ .name "not" := by
      intro hname
      rw [hname] at ht
      exact absurd (ht rfl) (by decide)
    have hread : comparison stop b (t :: ts' ++ rest) = pure (e, rest) :=
      h hts rest b (hrest.mono (Nat.le_succ _)) (by omega)
    rw [reader, negation, eatWord?_of_ne (by rintro _ ⟨⟩; exact hnot)]
    exact hread
  | 4, _ =>
    -- No comparison operator follows.
    intro ts hts rest b hrest hb
    obtain ⟨b, rfl⟩ : ∃ n, b = n + 2 := ⟨b - 2, by omega⟩
    have hsum : Level.sum.rank = 5 := rfl
    have hread := h.chain_eq .sum hts rest (b + 1) (hrest.mono (Nat.le_succ _)) (by omega)
    rw [reader, comparison, hread, pure_bind]
    dsimp only
    rw [links, hrest.compareOp?]
    rfl
  | 5, _ => exact (Reads.chains .sum h hls).reads hls
  | 6, _ => exact (Reads.chains .product h hls).reads hls
  | 7, _ =>
    -- Nothing that binds tighter starts with a sign.
    intro ts hts rest b hrest hb
    obtain ⟨b, rfl⟩ : ∃ n, b = n + 1 := ⟨b - 1, by omega⟩
    obtain ⟨t, ts', rfl, ht⟩ := hstarts.exists_token hts
    have hread := h hts rest b (hrest.mono (Nat.le_succ _)) (by omega)
    rw [reader, signed.eq_def]
    dsimp only
    split
    case h_1 => contradiction
    case h_2 =>
      next hcons =>
      cases hcons
      exact absurd (show 8 ≤ Rank.sign from ht) (by decide)
    case h_3 =>
      next hcons =>
      cases hcons
      exact absurd (show 8 ≤ Rank.sign from ht) (by decide)
    case h_4 =>
      next hsucc _ _ =>
      cases hsucc
      exact hread

/-! ### Being parsed -/

/-- Everything that is used about the lexemes of an expression of at least some rank. -/
structure Parsed (stop rank : Nat) (ls : List Lexeme) (e : Expr) : Prop where
  /-- They start as the rank allows. -/
  starts : StartsAt rank ls
  /-- They are read as the expression. -/
  reads : Reads stop rank ls e
  /-- They are the left part of longer chains. -/
  chains : ∀ level : Level, level.rank = rank → Chains stop level ls e
  /-- They are the base of attributes, calls and items. -/
  carries : rank = Rank.access → Carries stop ls e

theorem Level.rank_lt (level : Level) : level.rank < Rank.sign := by
  cases level <;> decide

namespace Parsed

/-- What stands at a position where nothing is joined from the left. -/
theorem ofReads (hstarts : StartsAt n ls) (hreads : Reads stop n ls e)
    (hlevel : ∀ level : Level, level.rank ≠ n) (hn : n ≠ Rank.access) : Parsed stop n ls e where
  starts := hstarts
  reads := hreads
  chains level h := absurd h (hlevel level)
  carries h := absurd h hn

theorem ofChains (hstarts : StartsAt level.rank ls) (hchains : Chains stop level ls e) :
    Parsed stop level.rank ls e where
  starts := hstarts
  reads := hchains.reads hstarts.length_pos
  chains level' h := by
    obtain rfl : level' = level := by
      revert h
      cases level <;> cases level' <;> decide
    exact hchains
  carries h := absurd h (Nat.ne_of_lt (Nat.lt_succ_of_lt level.rank_lt))

theorem ofCarries (hstarts : StartsAt Rank.access ls) (hcarries : Carries stop ls e) :
    Parsed stop Rank.access ls e where
  starts := hstarts
  reads := hcarries.reads hstarts.length_pos
  chains level h := absurd h (Nat.ne_of_lt (Nat.lt_succ_of_lt level.rank_lt))
  carries _ := hcarries

/-- What binds tightly enough for a position does so for the next looser one. -/
theorem down (h : Parsed stop (n + 1) ls e) (hn : n < Rank.access) : Parsed stop n ls e where
  starts := h.starts.mono (Nat.le_succ n)
  reads := h.reads.down h.starts hn
  chains level hlevel := by
    subst hlevel
    exact h.reads.chains level h.starts.length_pos
  carries heq := absurd heq (Nat.ne_of_lt hn)

theorem mono (h : Parsed stop n ls e) (hrank : rank ≤ n) (hn : n ≤ Rank.access) :
    Parsed stop rank ls e := by
  induction hrank with
  | refl => exact h
  | step _ ih => exact ih (h.down hn) (Nat.le_of_succ_le hn)

/-- An expression that is read by itself, whatever comes behind it. -/
theorem ofAtom (hstarts : StartsAt Rank.access ls)
    (h : ∀ ⦃ts : List Token⦄, ts.map Token.lexeme = ls → ∀ (rest : List Token) (b : Nat),
      Ends (Rank.access + 1) rest → 16 * ls.length ≤ b + 14 →
        atom stop b (ts ++ rest) = pure (e, rest)) : Parsed stop Rank.access ls e := by
  refine ofCarries hstarts fun ts hts rest b hrest hb => ⟨b, Nat.le_add_right b _, ?_⟩
  rw [reader, h hts rest b hrest (Nat.le_of_add_le_add_right hb), pure_bind]
  all_goals nofun

end Parsed

end Parser

end ReactiveView
