import ReactiveView.Proofs.Expr.Joining
import ReactiveView.Proofs.Expr.Positions

/-!
This module contains how the steps of a walk over positions compare to what is in front of the tokens
that are left, and the rules by which a walk follows a reading of these tokens.
-/

namespace ReactiveView

namespace Parser

/-! ### Readings by what is in front -/

theorem join?_sum (ts : List Token) :
    Level.sum.join? ts = ((eat? .plus ts).map fun ts => (Expr.binary .add, ts)).or
      (((eat? .minus ts).map fun ts => (Expr.binary .sub, ts)).or none) := by
  rcases ts with _ | ⟨⟨lexeme, start, stop⟩, ts⟩
  · rfl
  · cases lexeme with
    | punct p => cases p <;> rfl
    | _ => rfl

theorem join?_product (ts : List Token) :
    Level.product.join? ts = ((eat? .star ts).map fun ts => (Expr.binary .mul, ts)).or
      (((eat? .floorDiv ts).map fun ts => (Expr.binary .floorDiv, ts)).or
        (((eat? .slash ts).map fun ts => (Expr.binary .div, ts)).or
          (((eat? .percent ts).map fun ts => (Expr.binary .mod, ts)).or none))) := by
  rcases ts with _ | ⟨⟨lexeme, start, stop⟩, ts⟩
  · rfl
  · cases lexeme with
    | punct p => cases p <;> rfl
    | _ => rfl

theorem signed_succ (stop n : Nat) (ts : List Token) : signed stop (n + 1) ts =
    match eat? .minus ts with
    | some ts => do
      let (e, ts) ← signed stop n ts
      pure (.unary .neg e, ts)
    | none =>
      match eat? .plus ts with
      | some ts => do
        let (e, ts) ← signed stop n ts
        pure (.unary .pos e, ts)
      | none => atom stop n ts >>= fun (e, ts) => postfixRest stop n e ts := by
  rcases ts with _ | ⟨⟨lexeme, start, stop⟩, ts⟩
  · rfl
  · cases lexeme with
    | punct p => cases p <;> rfl
    | _ => rfl

theorem postfixRest_succ (stop n : Nat) (base : Expr) (ts : List Token) :
    postfixRest stop (n + 1) base ts =
    match eat? .dot ts with
    | some ts =>
      match ts with
      | ⟨.name s, _, _⟩ :: ts => postfixRest stop n (.attr base s) ts
      | ts => .refuse .expectedAttributeName (nextOffset stop ts)
    | none =>
      match eat? .openParen ts with
      | some ts => do
        let ((arguments, _), ts) ← sequence stop n .closeParen ts
        postfixRest stop n (.call base arguments) ts
      | none =>
        match eat? .openBracket ts with
        | some ts => do
          let (index, ts) ← expression stop n ts
          let ts ← expect stop .closeBracket ts
          postfixRest stop n (.item base index) ts
        | none => pure (base, ts) := by
  rcases ts with _ | ⟨⟨lexeme, start, stop⟩, ts⟩
  · rfl
  · cases lexeme with
    | punct p => cases p <;> rfl
    | _ => rfl

theorem dropSemicolons_of_eat?_eq_none {ts : List Token} (h : eat? .semicolon ts = none) :
    dropSemicolons ts = ts := by
  rcases ts with _ | ⟨⟨lexeme, start, stop⟩, ts⟩
  · rfl
  · cases lexeme with
    | punct p =>
      cases p with
      | semicolon => cases h
      | _ => rfl
    | _ => rfl

end Parser

namespace Walk

variable {α β : Type} {tokens : Tokens} {peek : Nat → Spot} {p q m least : Nat}

/-! ### What is there -/

/-- Something is seen where it is found in front of the tokens. -/
def Sees (tokens : Tokens) (p : Nat) (seen : Bool) (found : Option (List Token)) : Prop :=
  (seen = false ∧ found = none) ∨
    (seen = true ∧ p + 1 ≤ tokens.last ∧ found = some (tokens.list.drop (p + 1)))

/-- A walk tells whether something is found in front of the tokens, and passes over it. -/
def Passes (tokens : Tokens) (p : Nat) (w : Walk Bool) (found : Option (List Token)) : Prop :=
  (found = none ∧ w.outcome p = some (.ok false, p)) ∨
    (found = some (tokens.list.drop (p + 1)) ∧ p + 1 ≤ tokens.last ∧
      w.outcome p = some (.ok true, p + 1))

/-- A walk finds what is found in front of the tokens, if anything, and has passed over it then. -/
def Finds (tokens : Tokens) (p : Nat) (w : Walk (Option α)) (found : Option (α × List Token)) :
    Prop :=
  (found = none ∧ w.outcome p = some (.ok none, p)) ∨
    ∃ a q, found = some (a, tokens.list.drop q) ∧ w.outcome p = some (.ok (some a), q) ∧ p < q ∧
      q ≤ tokens.last

theorem Sees.passes {test : Spot → Bool} {found : Option (List Token)}
    (h : Sees tokens p (test (peek p)) found) : Passes tokens p (passIf peek test) found := by
  unfold Passes
  rw [outcome_passIf]
  rcases h with ⟨hseen, hfound⟩ | ⟨hseen, hlt, hfound⟩
  · rw [hseen]
    exact .inl ⟨hfound, rfl⟩
  · rw [hseen]
    exact .inr ⟨hfound, hlt, rfl⟩

/-- What is there is found, or else what is looked for next. -/
theorem Passes.finds {w : Walk Bool} {w' : Walk (Option α)} {found : Option (List Token)}
    {found' : Option (α × List Token)} (h : Passes tokens p w found) (a : α)
    (hnext : Finds tokens p w' found') :
    Finds tokens p (do if ← w then return some a else w')
      ((found.map fun rest => (a, rest)).or found') := by
  rcases h with ⟨rfl, hwalk⟩ | ⟨rfl, hlt, hwalk⟩
  · unfold Finds
    rw [outcome_bind_ok hwalk]
    exact hnext
  · refine .inr ⟨a, p + 1, rfl, ?_, Nat.lt_succ_self p, hlt⟩
    rw [outcome_bind_ok hwalk]
    rfl

theorem finds_none (tokens : Tokens) (p : Nat) : Finds tokens p (pure none : Walk (Option α)) none :=
  .inl ⟨rfl, rfl⟩

variable (hpeek : tokens.Shows peek) (hp : p ≤ tokens.last)
include hpeek hp

theorem sees_punct (punct : Punct) :
    Sees tokens p ((peek p).isPunct punct) (Parser.eat? punct (tokens.list.drop p)) := by
  rcases hpeek.front hp with ⟨hdrop, hend⟩ | ⟨⟨lexeme, start, stop⟩, hdrop, hlt, hfirst⟩
  · rw [hdrop, hend]
    exact .inl ⟨rfl, rfl⟩
  · rw [hdrop, hfirst]
    cases lexeme with
    | punct q =>
      by_cases hq : punct = q
      · exact .inr ⟨decide_eq_true hq, hlt, if_pos hq⟩
      · exact .inl ⟨decide_eq_false hq, if_neg hq⟩
    | _ => exact .inl ⟨rfl, rfl⟩

theorem sees_word (word : String) :
    Sees tokens p ((peek p).isWord word) (Parser.eatWord? word (tokens.list.drop p)) := by
  rcases hpeek.front hp with ⟨hdrop, hend⟩ | ⟨⟨lexeme, start, stop⟩, hdrop, hlt, hfirst⟩
  · rw [hdrop, hend]
    exact .inl ⟨rfl, rfl⟩
  · rw [hdrop, hfirst]
    cases lexeme with
    | name s =>
      by_cases hs : s = word
      · exact .inr ⟨decide_eq_true hs, hlt, if_pos hs⟩
      · exact .inl ⟨decide_eq_false hs, if_neg hs⟩
    | _ => exact .inl ⟨rfl, rfl⟩

theorem passes_eat (punct : Punct) :
    Passes tokens p (eat peek punct) (Parser.eat? punct (tokens.list.drop p)) :=
  (sees_punct hpeek hp punct).passes

theorem passes_eatWord (word : String) :
    Passes tokens p (eatWord peek word) (Parser.eatWord? word (tokens.list.drop p)) :=
  (sees_word hpeek hp word).passes

theorem finds_join (level : Parser.Level) :
    Finds tokens p (join peek level) (level.join? (tokens.list.drop p)) := by
  have hnone {α : Type} : Finds tokens p (pure none : Walk (Option α)) none := finds_none tokens p
  cases level with
  | or =>
    have hfinds := (passes_eatWord hpeek hp "or").finds Expr.or hnone
    rwa [Option.or_none] at hfinds
  | and =>
    have hfinds := (passes_eatWord hpeek hp "and").finds Expr.and hnone
    rwa [Option.or_none] at hfinds
  | sum =>
    rw [Parser.join?_sum]
    exact (passes_eat hpeek hp .plus).finds _ ((passes_eat hpeek hp .minus).finds _ hnone)
  | product =>
    rw [Parser.join?_product]
    exact (passes_eat hpeek hp .star).finds _ ((passes_eat hpeek hp .floorDiv).finds _
      ((passes_eat hpeek hp .slash).finds _ ((passes_eat hpeek hp .percent).finds _ hnone)))

/-- A comparison operator is of one token, or of two, and then both are there. -/
theorem finds_compareOp :
    Finds tokens p (compareOp peek) (Parser.compareOp? (tokens.list.drop p)) := by
  have hin := sees_word hpeek hp "in"
  have hnot := sees_word hpeek hp "not"
  unfold Finds compareOp
  rw [outcome_bind_ok (outcome_look peek 0 p), Nat.add_zero]
  rcases hpeek.front hp with ⟨hdrop, hend⟩ | ⟨⟨lexeme, start, stop⟩, hdrop, hlt, hfirst⟩
  · rw [hdrop, hend]
    exact .inl ⟨rfl, rfl⟩
  · rw [hdrop, hfirst] at hin hnot ⊢
    cases lexeme with
    | punct q =>
      cases q <;> first
        | exact .inl ⟨rfl, rfl⟩
        | exact .inr ⟨_, p + 1, rfl, rfl, Nat.lt_succ_self p, hlt⟩
    | name s =>
      unfold Parser.compareOp? Spot.compareOp?
      dsimp only
      rcases hin with ⟨hin, hnone⟩ | ⟨hin, -, hsome⟩
      · rw [hnone, if_neg (of_decide_eq_false hin)]
        dsimp only
        rcases hnot with ⟨hnot, hnone⟩ | ⟨hnot, -, hsome⟩
        · rw [hnone, hnot]
          exact .inl ⟨rfl, rfl⟩
        · -- The place behind is looked at where a token is here, so it is not beyond the end.
          rw [hsome, hnot, if_pos rfl, outcome_bind_ok (outcome_look peek 1 p)]
          dsimp only
          rcases sees_word hpeek hlt "in" with ⟨hin, hnone⟩ | ⟨hin, hlast, hsome⟩
          · rw [hnone, hin]
            exact .inl ⟨rfl, rfl⟩
          · rw [hsome, hin]
            exact .inr ⟨_, p + 2, rfl, rfl, Nat.lt_add_of_pos_right Nat.two_pos, hlast⟩
      · rw [hsome, if_pos (of_decide_eq_true hin)]
        exact .inr ⟨_, p + 1, rfl, rfl, Nat.lt_succ_self p, hlt⟩
    | _ => exact .inl ⟨rfl, rfl⟩

/-- The string literals in a row end before the source does. -/
theorem exists_adjacentStrings {n : Nat} (hn : tokens.last - p < n) :
    ∃ s q, p ≤ q ∧ q ≤ tokens.last ∧
      Parser.adjacentStrings (tokens.list.drop p) = (s, tokens.list.drop q) ∧
      (adjacentStrings peek n).outcome p = some (.ok s, q) := by
  induction n generalizing p with
  | zero => exact absurd hn (Nat.not_lt_zero _)
  | succ n ih =>
    rw [adjacentStrings, outcome_bind_ok (outcome_look peek 0 p), Nat.add_zero]
    rcases hpeek.front hp with ⟨hdrop, hend⟩ | ⟨⟨lexeme, start, stop⟩, hdrop, hlt, hfirst⟩
    · rw [hend]
      refine ⟨"", p, Nat.le_refl p, hp, ?_, rfl⟩
      rw [hdrop]
      rfl
    · rw [hfirst]
      cases lexeme with
      | str s =>
        obtain ⟨more, q, hq, hlast, hread, hwalk⟩ := ih hlt (by omega)
        refine ⟨s ++ more, q, Nat.le_of_succ_le hq, hlast, ?_, ?_⟩
        · rw [hdrop, Parser.adjacentStrings, hread]
        · exact (outcome_bind_ok (outcome_skip 1 p)).trans (outcome_bind_ok hwalk)
      | _ =>
        refine ⟨"", p, Nat.le_refl p, hp, ?_, rfl⟩
        rw [hdrop]
        rfl

/-- The semicolons in a row end before the source does. -/
theorem exists_skipSemicolons {n : Nat} (hn : tokens.last - p < n) : ∃ q, p ≤ q ∧ q ≤ tokens.last ∧
    Parser.dropSemicolons (tokens.list.drop p) = tokens.list.drop q ∧
    (skipSemicolons peek n).outcome p = some (.ok (), q) := by
  induction n generalizing p with
  | zero => exact absurd hn (Nat.not_lt_zero _)
  | succ n ih =>
    rw [skipSemicolons]
    rcases passes_eat hpeek hp .semicolon with ⟨hnone, hwalk⟩ | ⟨hsome, hlt, hwalk⟩
    · exact ⟨p, Nat.le_refl p, hp, Parser.dropSemicolons_of_eat?_eq_none hnone, outcome_bind_ok hwalk⟩
    · obtain ⟨q, hq, hlast, hread, hwalk'⟩ := ih hlt (by omega)
      exact ⟨q, Nat.le_of_succ_le hq, hlast, (Parser.dropSemicolons_of_eat? hsome).trans hread,
        (outcome_bind_ok hwalk).trans hwalk'⟩

omit hpeek hp

/-! ### Walks that follow a reading -/

/--
A walk that starts at a position up to the end does what reading the tokens from there on does. Both
find the same, and the walk stops at the first of the tokens that are left, which is the place `least`
or lies behind it; or both refuse the source, at a token or at the end, and the walk has not gone back.
In neither case it has gone beyond the end.
-/
inductive Tracks (tokens : Tokens) (p least : Nat) (w : Walk α)
    (reading : Attempt (α × List Token)) : Prop
  | found (a : α) (q : Nat) (hread : reading = pure (a, tokens.list.drop q))
      (hwalk : w.outcome p = some (.ok a, q)) (hleast : least ≤ q) (hlast : q ≤ tokens.last)
  | refused (e : SyntaxError) (q : Nat) (hread : reading = .refuse e.fault e.offset)
      (hwalk : w.outcome p = some (.error e, q)) (hp : p ≤ q) (hlast : q ≤ tokens.last)
      (hmarks : tokens.Marks e.offset)

namespace Tracks

variable {w : Walk α} {x : Attempt (α × List Token)} {g : α → Walk β}
  {f : α × List Token → Attempt (β × List Token)} {y : Attempt (β × List Token)} {a : α}

theorem mono (h : Tracks tokens p m w x) (hm : least ≤ m) : Tracks tokens p least w x := by
  cases h with
  | found a q hread hwalk hleast hlast => exact .found a q hread hwalk (Nat.le_trans hm hleast) hlast
  | refused e q hread hwalk hp hlast hmarks => exact .refused e q hread hwalk hp hlast hmarks

/-- What is known to be found is passed over. -/
theorem step (hwalk : w.outcome p = some (.ok a, q)) (hpq : p ≤ q)
    (h : Tracks tokens q least (g a) y) : Tracks tokens p least (w >>= g) y := by
  cases h with
  | found b r hread hwalk' hleast hlast =>
    exact .found b r hread ((outcome_bind_ok hwalk).trans hwalk') hleast hlast
  | refused e r hread hwalk' hq hlast hmarks =>
    exact .refused e r hread ((outcome_bind_ok hwalk).trans hwalk') (Nat.le_trans hpq hq) hlast hmarks

protected theorem bind (h : Tracks tokens p m w x) (hpm : p ≤ m)
    (hg : ∀ a q, m ≤ q → q ≤ tokens.last →
      Tracks tokens q least (g a) (f (a, tokens.list.drop q))) :
    Tracks tokens p least (w >>= g) (x >>= f) := by
  cases h with
  | found a q hread hwalk hleast hlast =>
    rw [hread, pure_bind]
    exact step hwalk (Nat.le_trans hpm hleast) (hg a q hleast hlast)
  | refused e q hread hwalk hp hlast hmarks =>
    rw [hread]
    exact .refused e q rfl (outcome_bind_error hwalk) hp hlast hmarks

protected theorem pure (hleast : least ≤ q) (hlast : q ≤ tokens.last) (a : α) :
    Tracks tokens q least (pure a) (pure (a, tokens.list.drop q)) :=
  .found a q rfl rfl hleast hlast

protected theorem throw (hlast : q ≤ tokens.last) {spot : Spot} (hspot : spot ∈ tokens.spots)
    (fault : SyntaxFault) :
    Tracks tokens q least (throw ⟨fault, spot.offset⟩ : Walk α) (.refuse fault spot.offset) :=
  .refused ⟨fault, spot.offset⟩ q rfl rfl (Nat.le_refl q) hlast ⟨spot, hspot, rfl⟩

protected theorem fail (hpeek : tokens.Shows peek) (hlast : q ≤ tokens.last) (fault : SyntaxFault) :
    Tracks tokens q least (fail peek fault : Walk α)
      (.refuse fault (Parser.nextOffset tokens.stop (tokens.list.drop q))) := by
  rw [hpeek.nextOffset hlast]
  exact .step (outcome_look peek 0 q) (Nat.le_refl q) (.throw hlast (hpeek.mem_spots hlast) fault)

protected theorem expect (hpeek : tokens.Shows peek) (hlast : q ≤ tokens.last) (punct : Punct)
    {g : Unit → Walk β} {f : List Token → Attempt (β × List Token)}
    (h : q + 1 ≤ tokens.last →
      Tracks tokens (q + 1) least (g ()) (f (tokens.list.drop (q + 1)))) :
    Tracks tokens q least (expect peek punct >>= g)
      (Parser.expect tokens.stop punct (tokens.list.drop q) >>= f) := by
  unfold Parser.expect
  rcases passes_eat hpeek hlast punct with ⟨hnone, hwalk⟩ | ⟨hsome, hlt, hwalk⟩
  · have hfail : (expect peek punct).outcome q =
        some (.error ⟨.expectedOperator punct.text, (peek q).offset⟩, q) := outcome_bind_ok hwalk
    rw [hnone, hpeek.nextOffset hlast]
    exact .refused _ q rfl (outcome_bind_error hfail) (Nat.le_refl q) hlast
      ⟨peek q, hpeek.mem_spots hlast, rfl⟩
  · have hpass : (expect peek punct).outcome q = some (.ok (), q + 1) := outcome_bind_ok hwalk
    rw [hsome]
    exact .step hpass (Nat.le_succ q) (h hlt)

end Tracks

end Walk

end ReactiveView
