import ReactiveView.Proofs.Expr.Reading

/-!
This module contains that parsing inverts writing: for each construct of the language, that it is
read once its parts are, and from this the round trip.
-/

namespace ReactiveView

open ReactiveView.Parser

theorem Expr.rank_le (e : Expr) : e.rank ≤ Rank.access := by
  cases e with
  | unary op e => cases op <;> exact Nat.le_of_ble_eq_true rfl
  | binary op left right => cases op <;> exact Nat.le_of_ble_eq_true rfl
  | _ => exact Nat.le_of_ble_eq_true rfl

namespace Parser

variable {stop rank n b start stop' : Nat} {ts rest : List Token} {ls ls' ls'' : List Lexeme}
  {l : Lexeme} {e e' e'' : Expr} {es : List Expr} {links' : List (CompareOp × Expr)} {level : Level}
  {p : Punct} {s word : String}

/-! ### Passing over what is there -/

theorem eat?_cons : eat? p (⟨.punct p, start, stop'⟩ :: rest) = some rest := if_pos rfl

theorem eatWord?_cons : eatWord? word (⟨.name word, start, stop'⟩ :: rest) = some rest := if_pos rfl

theorem expect_cons : expect stop p (⟨.punct p, start, stop'⟩ :: rest) = pure rest := by
  rw [expect, eat?_cons]

theorem exists_token_cons (h : ts.map Token.lexeme = l :: ls) :
    ∃ start stop' ts', ts = ⟨l, start, stop'⟩ :: ts' ∧ ts'.map Token.lexeme = ls := by
  obtain ⟨t, ts', rfl, rfl, hts⟩ := List.map_eq_cons_iff.1 h
  exact ⟨t.start, t.stop, ts', rfl, hts⟩

/-- What starts with an expression does not start with a closing delimiter. -/
theorem StartsAt.eat? (h : StartsAt n ls) (hts : ts.map Token.lexeme = ls)
    (hp : ¬ (Lexeme.punct p).Starts n) : Parser.eat? p (ts ++ rest) = none := by
  obtain ⟨t, ts', rfl, ht⟩ := h.exists_token hts
  refine eat?_of_ne ?_
  rintro _ ⟨⟩ heq
  exact hp (heq ▸ ht)

/-! ### Expressions between commas -/

/-- The closing delimiters of expressions between commas. -/
def closings : List Punct := [.closeParen, .closeBracket]

theorem not_starts_of_mem_closings (h : p ∈ closings) : ¬ (Lexeme.punct p).Starts n := by
  simp only [closings, List.mem_cons, List.not_mem_nil, or_false] at h
  rcases h with rfl | rfl <;> exact id

theorem grip_of_mem_closings (h : p ∈ closings) : (Lexeme.punct p).grip = 0 := by
  simp only [closings, List.mem_cons, List.not_mem_nil, or_false] at h
  rcases h with rfl | rfl <;> rfl

/-- Expressions between commas are read up to the delimiter behind them. -/
theorem sequence_lexemes (hp : p ∈ closings)
    (h : ∀ e ∈ es, Parsed stop Rank.conditional e.lexemes e)
    (hts : ts.map Token.lexeme = Expr.sequenceLexemes es)
    (hb : 16 * (Expr.sequenceLexemes es).length + 3 ≤ b) :
    sequence stop b p (ts ++ ⟨.punct p, start, stop'⟩ :: rest)
      = pure ((es, decide (1 < es.length)), rest) := by
  induction es generalizing ts b with
  | nil =>
    obtain ⟨b, rfl⟩ : ∃ n, b = n + 1 := ⟨b - 1, by omega⟩
    obtain rfl := List.map_eq_nil_iff.1 hts
    rw [List.nil_append, sequence, eat?_cons]
    rfl
  | cons e es ih =>
    obtain ⟨he, hes⟩ := List.forall_mem_cons.1 h
    obtain ⟨b, rfl⟩ : ∃ n, b = n + 1 := ⟨b - 1, by omega⟩
    cases es with
    | nil =>
      rw [Expr.sequenceLexemes] at hts hb
      have hread := he.reads.expression_eq hts (⟨.punct p, start, stop'⟩ :: rest) b
        (ends_cons.2 (Nat.le_of_eq (grip_of_mem_closings hp))) (by omega)
      have hcomma : Parser.eat? .comma (⟨.punct p, start, stop'⟩ :: rest) = none := by
        refine eat?_of_ne ?_
        rintro _ ⟨⟩ heq
        cases heq
        exact absurd hp (by decide)
      rw [sequence, he.starts.eat? hts (not_starts_of_mem_closings hp)]
      dsimp only
      rw [hread, pure_bind]
      dsimp only
      rw [hcomma]
      dsimp only
      rw [expect_cons, pure_bind]
      rfl
    | cons e' es =>
      rw [Expr.sequenceLexemes_cons_cons] at hts hb
      obtain ⟨first, tail, rfl, hfirst, htail⟩ := List.map_eq_append_iff.1 hts
      obtain ⟨start', stop'', more, rfl, hmore⟩ := exists_token_cons htail
      rw [List.length_append, List.length_cons] at hb
      rw [List.append_assoc, List.cons_append]
      have hread := he.reads.expression_eq hfirst
        (⟨.punct .comma, start', stop''⟩ :: (more ++ ⟨.punct p, start, stop'⟩ :: rest)) b
        (ends_cons.2 (Nat.le_refl _)) (by omega)
      rw [sequence, he.starts.eat? hfirst (not_starts_of_mem_closings hp)]
      dsimp only
      rw [hread, pure_bind]
      dsimp only
      rw [eat?_cons]
      dsimp only
      rw [ih hes hmore (by omega), pure_bind]
      rfl

namespace Parsed

/-! ### Atoms -/

/-- An operand is read at its position, whether it needed parentheses or not. -/
theorem within (h : Parsed stop e.rank e.lexemes e) (hn : n ≤ Rank.access) :
    Parsed stop n (Expr.within n e e.lexemes) e := by
  unfold Expr.within
  split
  · -- Parentheses around a single expression without a comma stand for the expression.
    refine (ofAtom ⟨.punct .openParen, _, rfl, trivial⟩ ?_).mono hn (Nat.le_refl _)
    intro ts hts rest b _ hb
    obtain ⟨start, stop', tail, rfl, htail⟩ := exists_token_cons hts
    obtain ⟨inner, close, rfl, hinner, hclose⟩ := List.map_eq_append_iff.1 htail
    obtain ⟨start', stop'', none, rfl, hnone⟩ := exists_token_cons hclose
    obtain rfl := List.map_eq_nil_iff.1 hnone
    simp only [List.length_cons, List.length_append, List.length_nil] at hb
    obtain ⟨b, rfl⟩ : ∃ n, b = n + 1 := ⟨b - 1, by omega⟩
    have hread : sequence stop b .closeParen (inner ++ ⟨.punct .closeParen, start', stop''⟩ :: rest)
        = pure (([e], false), rest) := by
      refine sequence_lexemes (by decide) ?_ hinner ?_
      · exact List.forall_mem_singleton.2 (h.mono (Nat.zero_le _) e.rank_le)
      · rw [Expr.sequenceLexemes]
        omega
    rw [List.cons_append, List.append_assoc, atom]
    dsimp only
    rw [List.cons_append, List.nil_append, hread, pure_bind]
  · next hrank => exact h.mono (Nat.not_lt.1 hrank) e.rank_le

theorem literal {value : Literal} (h : value.Writable) :
    Parsed stop Rank.access [value.lexeme] (.literal value) := by
  refine ofAtom ⟨_, _, rfl, ?_⟩ ?_
  · cases h with
    | none => exact fun hs => absurd hs (by decide)
    | bool b => cases b <;> exact fun hs => absurd hs (by decide)
    | int => trivial
    | str => trivial
  · intro ts hts rest b hrest hb
    rw [List.length_singleton] at hb
    obtain ⟨b, rfl⟩ : ∃ n, b = n + 1 := ⟨b - 1, by omega⟩
    obtain ⟨start, stop', none, rfl, hnone⟩ := exists_token_cons hts
    obtain rfl := List.map_eq_nil_iff.1 hnone
    rw [List.cons_append, List.nil_append]
    cases h with
    | none => rfl
    | bool b => cases b <;> rfl
    | int hnonneg =>
      rw [Literal.lexeme, atom, Int.toNat_of_nonneg hnonneg]
    | str =>
      rw [Literal.lexeme, atom, hrest.adjacentStrings]
      dsimp only
      rw [String.append_empty]

theorem name (hkeyword : s ∉ keywords) (hconstant : s ∉ ["True", "False", "None"]) :
    Parsed stop Rank.access [.name s] (.name s) := by
  refine ofAtom ⟨_, _, rfl, ?_⟩ ?_
  · rintro rfl
    exact absurd (by decide) hkeyword
  · intro ts hts rest b hrest hb
    rw [List.length_singleton] at hb
    obtain ⟨b, rfl⟩ : ∃ n, b = n + 1 := ⟨b - 1, by omega⟩
    obtain ⟨start, stop', none, rfl, hnone⟩ := exists_token_cons hts
    obtain rfl := List.map_eq_nil_iff.1 hnone
    simp only [List.mem_cons, List.not_mem_nil, or_false, not_or] at hconstant
    rw [List.cons_append, List.nil_append, atom, if_neg hconstant.1, if_neg hconstant.2.1,
      if_neg hconstant.2.2, if_neg hkeyword]

theorem list (h : ∀ e ∈ es, Parsed stop Rank.conditional e.lexemes e) :
    Parsed stop Rank.access
      (.punct .openBracket :: (Expr.sequenceLexemes es ++ [.punct .closeBracket])) (.list es) := by
  refine ofAtom ⟨_, _, rfl, trivial⟩ ?_
  intro ts hts rest b _ hb
  obtain ⟨start, stop', tail, rfl, htail⟩ := exists_token_cons hts
  obtain ⟨items, close, rfl, hitems, hclose⟩ := List.map_eq_append_iff.1 htail
  obtain ⟨start', stop'', none, rfl, hnone⟩ := exists_token_cons hclose
  obtain rfl := List.map_eq_nil_iff.1 hnone
  simp only [List.length_cons, List.length_append, List.length_nil] at hb
  obtain ⟨b, rfl⟩ : ∃ n, b = n + 1 := ⟨b - 1, by omega⟩
  have hread : sequence stop b .closeBracket
      (items ++ ⟨.punct .closeBracket, start', stop''⟩ :: rest) = pure ((es, _), rest) :=
    sequence_lexemes (by decide) h hitems (by omega)
  rw [List.cons_append, List.append_assoc, atom]
  dsimp only
  rw [List.cons_append, List.nil_append, hread, pure_bind]

/-! ### Attributes, items and calls -/

theorem attr (h : Parsed stop Rank.access ls e) :
    Parsed stop Rank.access (ls ++ [.punct .dot, .name s]) (.attr e s) := by
  have haccess : Rank.access = 8 := rfl
  refine ofCarries (h.starts.append _) ?_
  intro ts hts rest b hrest hb
  obtain ⟨base, tail, rfl, hbase, htail⟩ := List.map_eq_append_iff.1 hts
  obtain ⟨start, stop', name, rfl, hname⟩ := exists_token_cons htail
  obtain ⟨start', stop'', none, rfl, hnone⟩ := exists_token_cons hname
  obtain rfl := List.map_eq_nil_iff.1 hnone
  simp only [List.length_cons, List.length_append, List.length_nil] at hb ⊢
  simp only [List.append_assoc, List.cons_append, List.nil_append]
  obtain ⟨b', hb', hread⟩ := h.carries rfl hbase
    (⟨.punct .dot, start, stop'⟩ :: ⟨.name s, start', stop''⟩ :: rest) b
    (ends_cons.2 (Nat.le_refl _)) (by omega)
  obtain ⟨b', rfl⟩ : ∃ n, b' = n + 1 := ⟨b' - 1, by omega⟩
  refine ⟨b', by omega, ?_⟩
  rw [hread, postfixRest]

theorem item (h : Parsed stop Rank.access ls e) (h' : Parsed stop Rank.conditional ls' e') :
    Parsed stop Rank.access (ls ++ .punct .openBracket :: (ls' ++ [.punct .closeBracket]))
      (.item e e') := by
  have haccess : Rank.access = 8 := rfl
  refine ofCarries (h.starts.append _) ?_
  intro ts hts rest b hrest hb
  obtain ⟨base, tail, rfl, hbase, htail⟩ := List.map_eq_append_iff.1 hts
  obtain ⟨start, stop', tail, rfl, hitem⟩ := exists_token_cons htail
  obtain ⟨index, close, rfl, hindex, hclose⟩ := List.map_eq_append_iff.1 hitem
  obtain ⟨start', stop'', none, rfl, hnone⟩ := exists_token_cons hclose
  obtain rfl := List.map_eq_nil_iff.1 hnone
  simp only [List.length_cons, List.length_append, List.length_nil] at hb ⊢
  simp only [List.append_assoc, List.cons_append, List.nil_append]
  obtain ⟨b', hb', hread⟩ := h.carries rfl hbase (⟨.punct .openBracket, start, stop'⟩
      :: (index ++ ⟨.punct .closeBracket, start', stop''⟩ :: rest)) b
    (ends_cons.2 (Nat.le_refl _)) (by omega)
  obtain ⟨b', rfl⟩ : ∃ n, b' = n + 1 := ⟨b' - 1, by omega⟩
  have hinner := h'.reads.expression_eq hindex (⟨.punct .closeBracket, start', stop''⟩ :: rest) b'
    (ends_cons.2 (Nat.le_refl _)) (by omega)
  refine ⟨b', by omega, ?_⟩
  rw [hread, postfixRest, hinner, pure_bind]
  dsimp only
  rw [expect_cons, pure_bind]

theorem call (h : Parsed stop Rank.access ls e)
    (hes : ∀ e ∈ es, Parsed stop Rank.conditional e.lexemes e) :
    Parsed stop Rank.access
      (ls ++ .punct .openParen :: (Expr.sequenceLexemes es ++ [.punct .closeParen]))
      (.call e es) := by
  have haccess : Rank.access = 8 := rfl
  refine ofCarries (h.starts.append _) ?_
  intro ts hts rest b hrest hb
  obtain ⟨base, tail, rfl, hbase, htail⟩ := List.map_eq_append_iff.1 hts
  obtain ⟨start, stop', tail, rfl, hcall⟩ := exists_token_cons htail
  obtain ⟨arguments, close, rfl, harguments, hclose⟩ := List.map_eq_append_iff.1 hcall
  obtain ⟨start', stop'', none, rfl, hnone⟩ := exists_token_cons hclose
  obtain rfl := List.map_eq_nil_iff.1 hnone
  simp only [List.length_cons, List.length_append, List.length_nil] at hb ⊢
  simp only [List.append_assoc, List.cons_append, List.nil_append]
  obtain ⟨b', hb', hread⟩ := h.carries rfl hbase (⟨.punct .openParen, start, stop'⟩
      :: (arguments ++ ⟨.punct .closeParen, start', stop''⟩ :: rest)) b
    (ends_cons.2 (Nat.le_refl _)) (by omega)
  obtain ⟨b', rfl⟩ : ∃ n, b' = n + 1 := ⟨b' - 1, by omega⟩
  have hinner : sequence stop b' .closeParen
      (arguments ++ ⟨.punct .closeParen, start', stop''⟩ :: rest) = pure ((es, _), rest) :=
    sequence_lexemes (by decide) hes harguments (by omega)
  refine ⟨b', by omega, ?_⟩
  rw [hread, postfixRest, hinner, pure_bind]

/-! ### Signs and negations -/

theorem unary {op : UnaryOp} (h : Parsed stop op.rank ls e) :
    Parsed stop op.rank (op.lexeme :: ls) (.unary op e) := by
  refine ofReads ⟨_, _, rfl, ?_⟩ ?_ (fun level => ?_) ?_
  · cases op
    · exact Nat.le_refl _
    · exact Nat.le_refl _
    · exact fun _ => Nat.le_refl _
  · intro ts hts rest b hrest hb
    obtain ⟨start, stop', ts, rfl, hoperand⟩ := exists_token_cons hts
    have hrank : op.rank ≤ Rank.sign := by cases op <;> decide
    have hsign : Rank.sign = 7 := rfl
    rw [List.length_cons] at hb
    obtain ⟨b, rfl⟩ : ∃ n, b = n + 1 := ⟨b - 1, by omega⟩
    have hread := h.reads hoperand rest b hrest (by omega)
    rw [List.cons_append]
    cases op with
    | neg =>
      change signed stop b (ts ++ rest) = _ at hread
      change signed stop (b + 1) (⟨.punct .minus, start, stop'⟩ :: (ts ++ rest)) = _
      rw [signed, hread, pure_bind]
    | pos =>
      change signed stop b (ts ++ rest) = _ at hread
      change signed stop (b + 1) (⟨.punct .plus, start, stop'⟩ :: (ts ++ rest)) = _
      rw [signed, hread, pure_bind]
    | not =>
      change negation stop b (ts ++ rest) = _ at hread
      change negation stop (b + 1) (⟨.name "not", start, stop'⟩ :: (ts ++ rest)) = _
      rw [negation, eatWord?_cons]
      dsimp only
      rw [hread, pure_bind]
  · cases op <;> cases level <;> decide
  · cases op <;> decide

/-! ### Operands joined from the left -/

/-- Two operands around an operator of a level are read as what the operator makes of them. -/
theorem join (level : Level) {f : Expr → Expr → Expr} (hleft : Parsed stop level.rank ls e)
    (hright : Parsed stop (level.rank + 1) ls' e') (hgrip : l.grip = level.rank + 1)
    (hjoin : ∀ start stop' rest, level.join? (⟨l, start, stop'⟩ :: rest) = some (f, rest)) :
    Parsed stop level.rank (ls ++ l :: ls') (f e e') := by
  refine ofChains (hleft.starts.append _) ?_
  intro ts hts rest b hrest hb
  obtain ⟨left, tail, rfl, hleftLexemes, htail⟩ := List.map_eq_append_iff.1 hts
  obtain ⟨start, stop', right, rfl, hrightLexemes⟩ := exists_token_cons htail
  have hlevel := level.rank_lt
  have hsign : Rank.sign = 7 := rfl
  rw [List.length_append, List.length_cons] at hb
  rw [List.append_assoc, List.cons_append]
  obtain ⟨b', hb', hchain⟩ := hleft.chains level rfl hleftLexemes
    (⟨l, start, stop'⟩ :: (right ++ rest)) b (ends_cons.2 (Nat.le_of_eq hgrip)) (by omega)
  obtain ⟨b', rfl⟩ : ∃ n, b' = n + 2 := ⟨b' - 2, by omega⟩
  -- The right operand is read with what the left one leaves of the budget.
  have hread := hright.reads hrightLexemes rest b' hrest (by omega)
  refine ⟨b' + 1, by rw [List.length_append, List.length_cons]; omega, ?_⟩
  rw [hchain, chainRest, hjoin]
  dsimp only
  rw [operand_succ, hread, pure_bind]

theorem binary {op : BinaryOp} (hleft : Parsed stop op.rank ls e)
    (hright : Parsed stop (op.rank + 1) ls' e') :
    Parsed stop op.rank (ls ++ .punct op.punct :: ls') (.binary op e e') := by
  cases op with
  | add => exact join .sum hleft hright rfl fun _ _ _ => rfl
  | sub => exact join .sum hleft hright rfl fun _ _ _ => rfl
  | mul => exact join .product hleft hright rfl fun _ _ _ => rfl
  | div => exact join .product hleft hright rfl fun _ _ _ => rfl
  | floorDiv => exact join .product hleft hright rfl fun _ _ _ => rfl
  | mod => exact join .product hleft hright rfl fun _ _ _ => rfl

/-! ### Comparisons -/

theorem compareOp?_lexemes {op : CompareOp} (hts : ts.map Token.lexeme = op.lexemes) :
    compareOp? (ts ++ rest) = some (op, rest) := by
  cases op
  case notIn =>
    obtain ⟨start, stop', tail, rfl, hin⟩ := exists_token_cons hts
    obtain ⟨start', stop'', none, rfl, hnone⟩ := exists_token_cons hin
    obtain rfl := List.map_eq_nil_iff.1 hnone
    rfl
  all_goals
    obtain ⟨start, stop', none, rfl, hnone⟩ := exists_token_cons hts
    obtain rfl := List.map_eq_nil_iff.1 hnone
    rfl

/-- A comparison operator goes on with comparisons. -/
theorem ends_compareOp {op : CompareOp} (hts : ts.map Token.lexeme = op.lexemes) :
    Ends Rank.sum (ts ++ rest) := by
  cases op <;>
    · obtain ⟨start, stop', ts, rfl, -⟩ := exists_token_cons hts
      exact ends_cons.2 (Nat.le_refl _)

theorem CompareOp.length_lexemes_pos (op : CompareOp) : 0 < op.lexemes.length := by
  cases op <;> exact Nat.succ_pos _

theorem links_lexemes
    (h : ∀ link ∈ links', Parsed stop Rank.sum (Expr.within Rank.sum link.2 link.2.lexemes) link.2)
    (hts : ts.map Token.lexeme = Expr.linkLexemes links') (hrest : Ends Rank.comparison rest)
    (hb : 16 * (Expr.linkLexemes links').length + 1 ≤ b) :
    links stop b (ts ++ rest) = pure (links', rest) := by
  have hsum : Level.sum.rank = 5 := rfl
  induction links' generalizing ts b with
  | nil =>
    obtain ⟨b, rfl⟩ : ∃ n, b = n + 1 := ⟨b - 1, by omega⟩
    obtain rfl := List.map_eq_nil_iff.1 hts
    rw [List.nil_append, links, hrest.compareOp?]
  | cons link more ih =>
    obtain ⟨op, e⟩ := link
    obtain ⟨he, hmore⟩ := List.forall_mem_cons.1 h
    obtain ⟨b, rfl⟩ : ∃ n, b = n + 1 := ⟨b - 1, by omega⟩
    rw [Expr.linkLexemes] at hts hb
    obtain ⟨ops, tail, rfl, hops, htail⟩ := List.map_eq_append_iff.1 hts
    obtain ⟨right, ts, rfl, hright, hlinks⟩ := List.map_eq_append_iff.1 htail
    have hop := CompareOp.length_lexemes_pos op
    rw [List.length_append, List.length_append] at hb
    -- Behind an operand comes another comparison operator or the end of the chain.
    have hends : Ends Rank.sum (ts ++ rest) := by
      cases more with
      | nil =>
        obtain rfl := List.map_eq_nil_iff.1 hlinks
        exact hrest.mono (Nat.le_succ _)
      | cons link more =>
        rw [Expr.linkLexemes] at hlinks
        obtain ⟨ops', ts, rfl, hops', -⟩ := List.map_eq_append_iff.1 hlinks
        rw [List.append_assoc]
        exact ends_compareOp hops'
    have hread := Reads.chain_eq .sum he.reads hright (ts ++ rest) b hends (by dsimp only; omega)
    rw [List.append_assoc, List.append_assoc, links, compareOp?_lexemes hops]
    dsimp only
    rw [hread, pure_bind]
    dsimp only
    rw [ih hmore hlinks (by omega), pure_bind]

theorem compare (hfirst : Parsed stop Rank.sum ls e) (hsome : links' ≠ [])
    (h : ∀ link ∈ links', Parsed stop Rank.sum (Expr.within Rank.sum link.2 link.2.lexemes) link.2) :
    Parsed stop Rank.comparison (ls ++ Expr.linkLexemes links') (.compare e links') := by
  refine ofReads ((hfirst.starts.mono (Nat.le_succ _)).append _) ?_
    (fun level => by cases level <;> decide) (by decide)
  intro ts hts rest b hrest hb
  obtain ⟨first, ts, rfl, hfirstLexemes, hlinks⟩ := List.map_eq_append_iff.1 hts
  have hls := hfirst.starts.length_pos
  have hsum : Level.sum.rank = 5 := rfl
  have hcomparison : Rank.comparison = 4 := rfl
  rw [List.length_append] at hb
  obtain ⟨b, rfl⟩ : ∃ n, b = n + 1 := ⟨b - 1, by omega⟩
  obtain ⟨link, more, rfl⟩ := List.exists_cons_of_ne_nil hsome
  have hends : Ends Rank.sum (ts ++ rest) := by
    have hlinks := hlinks
    rw [Expr.linkLexemes] at hlinks
    obtain ⟨ops, ts, rfl, hops, -⟩ := List.map_eq_append_iff.1 hlinks
    rw [List.append_assoc]
    exact ends_compareOp hops
  have hread := Reads.chain_eq .sum hfirst.reads hfirstLexemes (ts ++ rest) b hends (by omega)
  rw [List.append_assoc, reader, comparison, hread, pure_bind]
  dsimp only
  rw [links_lexemes h hlinks hrest (by omega), pure_bind]

/-! ### Conditionals -/

theorem ite (hbody : Parsed stop Rank.or ls e) (htest : Parsed stop Rank.or ls' e')
    (horelse : Parsed stop Rank.conditional ls'' e'') :
    Parsed stop Rank.conditional (ls ++ .name "if" :: (ls' ++ .name "else" :: ls''))
      (.ite e' e e'') := by
  refine ofReads ((hbody.starts.mono (Nat.zero_le _)).append _) ?_
    (fun level => by cases level <;> decide) (by decide)
  intro ts hts rest b hrest hb
  obtain ⟨body, tail, rfl, hbodyLexemes, hif⟩ := List.map_eq_append_iff.1 hts
  obtain ⟨start, stop', tail, rfl, htail⟩ := exists_token_cons hif
  obtain ⟨test, tail, rfl, htestLexemes, helse⟩ := List.map_eq_append_iff.1 htail
  obtain ⟨start', stop'', orelse, rfl, horelseLexemes⟩ := exists_token_cons helse
  have hor : Rank.or = 1 := rfl
  have hconditional : Rank.conditional = 0 := rfl
  simp only [List.length_append, List.length_cons] at hb
  simp only [List.append_assoc, List.cons_append]
  obtain ⟨b, rfl⟩ : ∃ n, b = n + 1 := ⟨b - 1, by omega⟩
  have hreadBody := Reads.chain_eq .or hbody.reads hbodyLexemes (⟨.name "if", start, stop'⟩
      :: (test ++ ⟨.name "else", start', stop''⟩ :: (orelse ++ rest))) b
    (ends_cons.2 (Nat.le_refl _)) (by omega)
  have hreadTest := Reads.chain_eq .or htest.reads htestLexemes
    (⟨.name "else", start', stop''⟩ :: (orelse ++ rest)) b (ends_cons.2 (Nat.zero_le _)) (by omega)
  have hreadOrelse := horelse.reads.expression_eq horelseLexemes rest b hrest (by omega)
  rw [reader, expression, hreadBody, pure_bind]
  dsimp only
  rw [eatWord?_cons]
  dsimp only
  rw [hreadTest, pure_bind]
  dsimp only
  rw [eatWord?_cons]
  dsimp only
  rw [hreadOrelse, pure_bind]

end Parsed

end Parser

namespace Expr

variable {e : Expr}

/-- What can be written is parsed where its construct stands. -/
theorem Writable.parsed (h : e.Writable) (stop : Nat) : Parsed stop e.rank e.lexemes e := by
  induction h with
  | literal h => exact .literal h
  | name _ hkeyword hconstant => exact .name hkeyword hconstant
  | attr _ _ ih => exact .attr (ih.within (Nat.le_refl _))
  | @item _ index _ _ ihobject ihindex =>
    exact .item (ihobject.within (Nat.le_refl _)) (ihindex.mono (Nat.zero_le _) index.rank_le)
  | call _ _ ihfunction iharguments =>
    exact .call (ihfunction.within (Nat.le_refl _))
      fun e he => (iharguments e he).mono (Nat.zero_le _) e.rank_le
  | list _ ih => exact .list fun e he => (ih e he).mono (Nat.zero_le _) e.rank_le
  | @unary op _ _ ih => exact .unary (ih.within (by cases op <;> decide))
  | @binary op _ _ _ _ ihleft ihright =>
    exact .binary (ihleft.within (by cases op <;> decide)) (ihright.within (by cases op <;> decide))
  | compare _ hsome _ ihfirst ihlinks =>
    exact .compare (ihfirst.within (by decide)) hsome
      fun link hlink => (ihlinks link hlink).within (by decide)
  | and _ _ ihleft ihright =>
    exact .join .and (ihleft.within (by decide)) (ihright.within (by decide)) rfl
      fun _ _ _ => rfl
  | or _ _ ihleft ihright =>
    exact .join .or (ihleft.within (by decide)) (ihright.within (by decide)) rfl
      fun _ _ _ => rfl
  | @ite _ _ orelse _ _ _ ihtest ihbody ihorelse =>
    exact .ite (ihbody.within (by decide)) (ihtest.within (by decide))
      (ihorelse.mono (Nat.zero_le _) orelse.rank_le)

/-- A source with the lexemes of an expression is parsed as this expression. -/
theorem Writable.parse_eq (h : e.Writable) {source : String} {ts : List Token}
    (hscan : Token.scan 0 0 source.toList = .ok ts) (hts : ts.map Token.lexeme = e.lexemes) :
    Expr.parse source = .ok e := by
  have hparsed := (h.parsed (Token.byteCount source.toList)).mono (Nat.zero_le _) e.rank_le
  have hlength : ts.length = e.lexemes.length := by rw [← hts, List.length_map]
  have hread := hparsed.reads.expression_eq hts [] (budget ts) ends_nil
    (by rw [budget, hlength]; omega)
  rw [List.append_nil] at hread
  unfold Expr.parse Tokens.ofSource
  rw [hscan]
  change settle (expression _ (budget ts) ts >>= _) = _
  rw [hread, pure_bind]
  rfl

/-- Parsing what was written of an expression gives the expression back. -/
theorem parse_render (h : e.Writable) : Expr.parse e.render = .ok e := by
  obtain ⟨ts, hscan, hts⟩ := Token.scan_spaced e.lexemes h.lexemes 0
  exact h.parse_eq hscan hts

/-- An expression with all kinds of operators, some of them at positions that need parentheses. -/
def mixed : Expr :=
  .ite
    (.and (.or (.name "p") (.name "q"))
      (.unary .not (.compare (.name "x")
        [(.notIn, .list [.literal .none, .literal (.bool true)]), (.lt, .literal (.int 2))])))
    (.binary .mul (.binary .add (.name "x") (.literal (.int 1)))
      (.unary .neg (.call (.attr (.name "f") "in")
        [.literal (.str "it's"), .item (.name "xs") (.literal (.int 0))])))
    (.ite (.name "p") (.literal (.int 1)) (.name "q"))

example : mixed.render = "( x + 1 ) * - f . in ( 'it\\'s' , xs [ 0 ] ) if ( p or q ) "
    ++ "and not x not in [ None , True ] < 2 else 1 if p else q" := by decide +kernel

theorem writable_mixed : mixed.Writable := by
  have hname {s : String} (hs : s ∈ ["p", "q", "x", "f", "xs"]) : (Expr.name s).Writable := by
    simp only [List.mem_cons, List.not_mem_nil, or_false] at hs
    rcases hs with rfl | rfl | rfl | rfl | rfl <;>
      exact .name (.of_toList (by decide)) (by decide) (by decide)
  have hint {i : Int} (hi : i ∈ [0, 1, 2]) : (Expr.literal (.int i)).Writable := by
    simp only [List.mem_cons, List.not_mem_nil, or_false] at hi
    rcases hi with rfl | rfl | rfl <;> exact .literal (.int (by decide) (by decide))
  have htest : (Expr.compare (.name "x")
      [(.notIn, .list [.literal .none, .literal (.bool true)]),
        (.lt, .literal (.int 2))]).Writable := by
    refine .compare (hname (by decide)) (List.cons_ne_nil _ _) ?_
    simp only [List.forall_mem_cons]
    refine ⟨.list ?_, hint (by decide), nofun⟩
    simp only [List.forall_mem_cons]
    exact ⟨.literal .none, .literal (.bool true), nofun⟩
  have hcall : (Expr.call (.attr (.name "f") "in")
      [.literal (.str "it's"), .item (.name "xs") (.literal (.int 0))]).Writable := by
    refine .call (.attr (hname (by decide)) (isIdentifier_word (by decide))) ?_
    simp only [List.forall_mem_cons]
    exact ⟨.literal (.str (by decide)), .item (hname (by decide)) (hint (by decide)), nofun⟩
  exact .ite (.and (.or (hname (by decide)) (hname (by decide))) (.unary htest))
    (.binary (.binary (hname (by decide)) (hint (by decide))) (.unary hcall))
    (.ite (hname (by decide)) (hint (by decide)) (hname (by decide)))

theorem parse_render_mixed : mixed.Writable ∧ Expr.parse mixed.render = .ok mixed :=
  ⟨writable_mixed, parse_render writable_mixed⟩

end Expr

end ReactiveView
