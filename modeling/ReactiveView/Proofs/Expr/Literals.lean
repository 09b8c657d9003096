import ReactiveView.Expr.Eval
import ReactiveView.Proofs.Expr.RoundTrip

/-!
This module contains for which values the text that a list shows of them is a source of the value:
for all that are built from `None`, truth values, integers and texts, except those with a text of
several lines or with the least integer somewhere inside. Of these the text is refused by the
scanner.

The text of a value has its own spacing, which is not that of written expressions, so that scanning
is looked at piece by piece.
-/

namespace ReactiveView

namespace Token

variable {rest cs cs' : List Char} {ls ls' : List Lexeme} {l : Lexeme}

/-! ### Scanning piece by piece -/

/-- In front of a rest, a text is scanned as lexemes, and scanning goes on with the rest. -/
def Scans (rest cs : List Char) (ls : List Lexeme) : Prop :=
  ∀ offset, ∃ offset' ts, ts.map lexeme = ls ∧
    scan 0 offset (cs ++ rest) = (scan 0 offset' rest).map (ts ++ ·)

/-- In front of a rest, a text is refused. -/
def Refuses (rest cs : List Char) : Prop := ∀ offset, ∃ e, scan 0 offset (cs ++ rest) = .error e

theorem scans_nil : Scans rest [] [] := fun offset =>
  ⟨offset, [], rfl, by rw [List.nil_append]; cases scan 0 offset rest <;> rfl⟩

theorem scans_space : Scans rest [' '] [] := fun offset =>
  ⟨offset + 1, [], rfl, by
    rw [List.singleton_append, scan_space]
    cases scan 0 (offset + 1) rest <;> rfl⟩

theorem scans_text (h : l.Writable) (hrest : Parts rest l) : Scans rest l.text.toList [l] := by
  intro offset
  obtain ⟨offset', start, stop, hscan⟩ := scan_text h hrest offset
  exact ⟨offset', [⟨l, start, stop⟩], rfl, hscan⟩

theorem scans_punct (q : Punct) (halone : isAlone q = true) :
    Scans rest q.text.toList [.punct q] :=
  scans_text (l := .punct q) trivial (.inl halone)

theorem Scans.append (h : Scans (cs' ++ rest) cs ls) (h' : Scans rest cs' ls') :
    Scans rest (cs ++ cs') (ls ++ ls') := by
  intro offset
  obtain ⟨offset', ts, hts, hscan⟩ := h offset
  obtain ⟨offset'', ts', hts', hscan'⟩ := h' offset'
  refine ⟨offset'', ts ++ ts', by rw [List.map_append, hts, hts'], ?_⟩
  rw [List.append_assoc, hscan, hscan']
  rcases scan 0 offset'' rest with _ | more
  · rfl
  · exact congrArg Except.ok (List.append_assoc ts ts' more).symm

theorem Scans.refuses (h : Scans (cs' ++ rest) cs ls) (h' : Refuses rest cs') :
    Refuses rest (cs ++ cs') := by
  intro offset
  obtain ⟨offset', ts, -, hscan⟩ := h offset
  obtain ⟨e, he⟩ := h' offset'
  exact ⟨e, by rw [List.append_assoc, hscan, he]; rfl⟩

theorem Refuses.append (h : Refuses (cs' ++ rest) cs) : Refuses rest (cs ++ cs') := by
  intro offset
  rw [List.append_assoc]
  exact h offset

theorem refuses_of_readLexeme {c : Char} {fault : SyntaxFault}
    (h : readLexeme c (cs ++ rest) = .error fault) : Refuses rest (c :: cs) := fun offset =>
  ⟨⟨fault, offset⟩, by rw [List.cons_append, scan, h]⟩

/-- A quoted text of several lines is refused at its first line. -/
theorem refuses_single {s : List Char} (hline : '\n' ∈ s) (rest : List Char) :
    Refuses rest (Quoted.single s) := by
  have hread : readLexeme '\'' ((Quoted.escape s ++ ['\'']) ++ rest)
      = .error .unterminatedString := by
    rw [readLexeme_quote, List.append_assoc, readString_escape_eq_none hline]
  exact refuses_of_readLexeme hread

/-- Digits of a number that is too large are refused. -/
theorem refuses_toDigits {n : Nat} (hlarge : Word.fits n = false) (hrest : Ended rest) :
    Refuses rest (Nat.toDigits 10 n) := by
  obtain ⟨c, cs, hdigits, hc⟩ := exists_toDigits_eq_cons n
  have hread := readNumber_toDigits n hrest
  rw [hlarge, if_neg Bool.false_ne_true, hdigits, List.cons_append] at hread
  rw [hdigits]
  exact refuses_of_readLexeme ((readLexeme_digit hc).trans (congrArg (Except.map _) hread))

end Token

namespace Value

/-! ### Values and their literals -/

/-- Values that are built from `None`, truth values, 64-bit integers and texts by nesting lists. -/
inductive Plain : Value → Prop
  | none : Plain .none
  | bool (b : Bool) : Plain (.bool b)
  | int {i : Int} (hfits : Word.fits i = true) : Plain (.int i)
  | str (s : String) : Plain (.str s)
  | list {items : List Value} (hitems : ∀ v ∈ items, Plain v) : Plain (.list items)

/-- A value is part of itself and of each list that has it somewhere inside. -/
inductive Part (v : Value) : Value → Prop
  | self : Part v v
  | item {w : Value} {items : List Value} (hmem : w ∈ items) (h : Part v w) : Part v (.list items)

/-- Values without a text of several lines and without the least integer. -/
structure Readable (v : Value) : Prop where
  lines : ∀ s, Part (.str s) v → '\n' ∉ s.toList
  least : ¬ Part (.int Word.least) v

mutual

/-- The expression that the text of a value is a source of. A negative integer has a sign. -/
def literal : Value → Expr
  | bool b => .literal (.bool b)
  | int (.ofNat n) => .literal (.int n)
  | int (.negSucc n) => .unary .neg (.literal (.int (n + 1)))
  | str s => .literal (.str s)
  | list items => .list (literals items)
  | _ => .literal .none

/-- The expressions of several values. -/
def literals : List Value → List Expr
  | [] => []
  | v :: rest => literal v :: literals rest

end

variable {v w : Value} {items : List Value}

theorem literals_eq_map (items : List Value) : literals items = items.map literal := by
  induction items with
  | nil => rfl
  | cons v rest ih => rw [literals, ih, List.map_cons]

theorem readable_list_iff : Readable (.list items) ↔ ∀ v ∈ items, Readable v := by
  constructor
  · intro h v hv
    exact ⟨fun s hs => h.lines s (.item hv hs), fun hleast => h.least (.item hv hleast)⟩
  · intro h
    refine ⟨fun s hs => ?_, fun hleast => ?_⟩
    · cases hs with
      | item hv hs => exact (h _ hv).lines s hs
    · cases hleast with
      | item hv hleast => exact (h _ hv).least hleast

theorem readable_str_iff {s : String} : Readable (.str s) ↔ '\n' ∉ s.toList := by
  refine ⟨fun h => h.lines s .self, fun h => ⟨fun t ht => ?_, nofun⟩⟩
  cases ht
  exact h

theorem readable_int_iff {i : Int} : Readable (.int i) ↔ i ≠ Word.least := by
  refine ⟨?_, fun h => ⟨nofun, fun hleast => ?_⟩⟩
  · rintro h rfl
    exact h.least .self
  · cases hleast
    exact h rfl

/-- An integer in range other than the least one has a magnitude in range. -/
theorem fits_succ_iff {n : Nat} (h : Word.fits (.negSucc n) = true) :
    Word.fits ((n + 1 : Nat) : Int) = true ↔ Int.negSucc n ≠ Word.least := by
  have hleast : Word.least = -9223372036854775808 := rfl
  have hgreatest : Word.greatest = 9223372036854775807 := rfl
  have hrange := of_decide_eq_true h
  rw [hleast] at hrange ⊢
  unfold Word.fits
  rw [hleast, hgreatest, decide_eq_true_iff]
  omega

/-! ### The literal of a readable value -/

theorem Plain.writable (h : v.Plain) (hread : v.Readable) : v.literal.Writable := by
  induction h with
  | none => exact .literal .none
  | bool b => exact .literal (.bool b)
  | @int i hfits =>
    cases i with
    | ofNat n => exact .literal (.int (Int.natCast_nonneg n) hfits)
    | negSucc n =>
      have hfits' := (fits_succ_iff hfits).2 (readable_int_iff.1 hread)
      exact .unary (.literal (.int (Int.natCast_nonneg (n + 1)) hfits'))
  | str s => exact .literal (.str (readable_str_iff.1 hread))
  | @list items _ ih =>
    rw [literal, literals_eq_map]
    refine .list fun e he => ?_
    obtain ⟨v, hv, rfl⟩ := List.mem_map.1 he
    exact ih v hv (readable_list_iff.1 hread v hv)

theorem evalAll_literals (store : Store) (scope : Scope)
    (h : ∀ v ∈ items, v.literal.eval store scope = pure v) :
    evalAll store scope (literals items) = pure items := by
  induction items with
  | nil => rfl
  | cons v rest ih =>
    obtain ⟨hv, hrest⟩ := List.forall_mem_cons.1 h
    rw [literals, evalAll, hv, pure_bind, ih hrest, pure_bind]

/-- The literal of a value evaluates to the value. -/
theorem Plain.eval (h : v.Plain) (store : Store) (scope : Scope) :
    v.literal.eval store scope = pure v := by
  induction h with
  | none => rfl
  | bool b => rfl
  | @int i hfits =>
    cases i with
    | ofNat n => rfl
    | negSucc n =>
      have hneg : Operators.checkedInt (.negSucc n) = .ok (.int (.negSucc n)) := by
        unfold Operators.checkedInt
        rw [if_pos hfits]
      rw [literal, Expr.eval, Expr.eval, pure_bind]
      exact congrArg (fun r => ExceptT.mk (pure r)) hneg
  | str s => rfl
  | list _ ih => rw [literal, Expr.eval, evalAll_literals store scope ih, pure_bind]

theorem equalItems_self (h : ∀ v ∈ items, v.equal v = true) : equalItems items items = true := by
  induction items with
  | nil => rfl
  | cons v rest ih =>
    obtain ⟨hv, hrest⟩ := List.forall_mem_cons.1 h
    rw [equalItems, hv, Bool.true_and, ih hrest]

theorem Plain.equal_self (h : v.Plain) : v.equal v = true := by
  induction h with
  | none => rfl
  | bool b => exact beq_self_eq_true b
  | int => exact beq_self_eq_true _
  | str s => exact beq_self_eq_true s
  | list _ ih => exact equalItems_self ih

/-! ### The text of a value -/

open Token

variable {rest : List Char}

theorem ended_reprTail (items : List Value) (hrest : Ended rest) :
    Ended (reprTail items ++ rest) := by
  cases items with
  | nil => exact hrest
  | cons v more =>
    intro c hc
    cases hc
    decide

theorem ended_closeBracket (rest : List Char) : Ended (']' :: rest) := by
  intro c hc
  cases hc
  decide

/-- The lexemes of the items behind the first one. -/
def tailLexemes (items : List Value) : List Lexeme :=
  items.flatMap fun v => .punct .comma :: v.literal.lexemes

theorem sequenceLexemes_literals (v : Value) (items : List Value) :
    Expr.sequenceLexemes (literals (v :: items)) = v.literal.lexemes ++ tailLexemes items := by
  induction items generalizing v with
  | nil => exact (List.append_nil _).symm
  | cons w more ih =>
    rw [literals, literals, Expr.sequenceLexemes_cons_cons, ← literals, ih w]
    rfl

theorem lexemes_list_cons (v : Value) (items : List Value) :
    (literal (.list (v :: items))).lexemes
      = .punct .openBracket :: (v.literal.lexemes ++ tailLexemes items
        ++ [.punct .closeBracket]) := by
  rw [literal, Expr.lexemes, sequenceLexemes_literals]

theorem scans_intText {i : Int} (hfits : Word.fits i = true) (hleast : i ≠ Word.least)
    (hrest : Ended rest) : Scans rest (intText i) (literal (.int i)).lexemes := by
  have hdigits (n : Nat) (h : Word.fits n = true) :
      Scans rest (Nat.toDigits 10 n) [.int n] := by
    have hscans := scans_text (l := .int n) h hrest
    rwa [show (Lexeme.int n).text.toList = Nat.toDigits 10 n from Nat.toList_repr] at hscans
  cases i with
  | ofNat n => exact hdigits n hfits
  | negSucc n =>
    exact (scans_punct .minus rfl).append (hdigits (n + 1) ((fits_succ_iff hfits).2 hleast))

/-- Behind the first item each comes with a comma and a space in front of it. -/
theorem scans_reprTail
    (h : ∀ v ∈ items, ∀ rest, Ended rest → Scans rest v.reprChars v.literal.lexemes)
    (hrest : Ended rest) : Scans rest (reprTail items) (tailLexemes items) := by
  induction items with
  | nil => exact scans_nil
  | cons v more ih =>
    obtain ⟨hv, hmore⟩ := List.forall_mem_cons.1 h
    exact (scans_punct .comma rfl).append (scans_space.append
      ((hv _ (ended_reprTail more hrest)).append (ih hmore)))

/-- The text of a readable value has the lexemes of its literal. -/
theorem Plain.scans (h : v.Plain) (hread : v.Readable) (hrest : Ended rest) :
    Scans rest v.reprChars v.literal.lexemes := by
  induction h generalizing rest with
  | none => exact scans_text (l := .name "None") (isIdentifier_word (by decide)) hrest
  | bool b =>
    cases b
    · exact scans_text (l := .name "False") (isIdentifier_word (by decide)) hrest
    · exact scans_text (l := .name "True") (isIdentifier_word (by decide)) hrest
  | int hfits => exact scans_intText hfits (readable_int_iff.1 hread) hrest
  | str s =>
    have hscans : Scans rest (Lexeme.str s).text.toList [.str s] :=
      scans_text (readable_str_iff.1 hread) trivial
    rwa [show (Lexeme.str s).text.toList = Quoted.single s.toList from String.toList_ofList]
      at hscans
  | @list items _ ih =>
    cases items with
    | nil => exact (scans_punct .openBracket rfl).append (scans_punct .closeBracket rfl)
    | cons v more =>
      obtain ⟨hv, hmore⟩ := List.forall_mem_cons.1 (readable_list_iff.1 hread)
      have hclose := ended_closeBracket rest
      have hhead := ih v List.mem_cons_self hv (ended_reprTail more hclose)
      have htail := scans_reprTail
        (fun w hw _ hrest => ih w (List.mem_cons_of_mem v hw) (hmore w hw) hrest) hclose
      rw [lexemes_list_cons]
      exact (scans_punct .openBracket rfl).append ((hhead.append htail).append
        (scans_punct .closeBracket rfl))

/-- An item is refused by itself, or else what comes behind it is. -/
theorem refuses_item {cs : List Char} (h : v.Plain)
    (hhead : ¬ v.Readable → Refuses (cs ++ rest) v.reprChars)
    (htail : v.Readable → Refuses rest cs) (hended : Ended (cs ++ rest)) :
    Refuses rest (v.reprChars ++ cs) := by
  by_cases hv : v.Readable
  · exact (h.scans hv hended).refuses (htail hv)
  · exact (hhead hv).append

theorem refuses_reprTail (hitems : ∀ v ∈ items, v.Plain)
    (h : ∀ v ∈ items, ¬ v.Readable → ∀ rest, Ended rest → Refuses rest v.reprChars)
    (hunreadable : ¬ ∀ v ∈ items, v.Readable) (hrest : Ended rest) :
    Refuses rest (reprTail items) := by
  induction items with
  | nil => exact absurd nofun hunreadable
  | cons v more ih =>
    obtain ⟨hv, hmore⟩ := List.forall_mem_cons.1 hitems
    obtain ⟨hhead, htail⟩ := List.forall_mem_cons.1 h
    have hended := ended_reprTail more hrest
    have hitem : Refuses rest (v.reprChars ++ reprTail more) :=
      refuses_item hv (fun hread => hhead hread _ hended)
        (fun hread => ih hmore htail fun hall =>
          hunreadable (List.forall_mem_cons.2 ⟨hread, hall⟩)) hended
    exact (scans_punct .comma rfl).refuses (scans_space.refuses hitem)

/-- The text of a value that is not readable is refused. -/
theorem Plain.refuses (h : v.Plain) (hread : ¬ v.Readable) (hrest : Ended rest) :
    Refuses rest v.reprChars := by
  induction h generalizing rest with
  | none => exact absurd ⟨nofun, nofun⟩ hread
  | bool b => exact absurd ⟨nofun, nofun⟩ hread
  | @int i hfits =>
    have hleast : i = Word.least := Decidable.not_not.1 fun h => hread (readable_int_iff.2 h)
    subst hleast
    have hlarge : Word.fits ((2 ^ 63 : Nat) : Int) = false := by decide
    exact (scans_punct .minus rfl).refuses (refuses_toDigits hlarge hrest)
  | str s => exact refuses_single (Decidable.not_not.1 fun h => hread (readable_str_iff.2 h)) rest
  | @list items hitems ih =>
    cases items with
    | nil => exact absurd (readable_list_iff.2 fun _ hv => absurd hv List.not_mem_nil) hread
    | cons v more =>
      obtain ⟨hv, hmore⟩ := List.forall_mem_cons.1 hitems
      have hclose := ended_closeBracket rest
      have hended := ended_reprTail more hclose
      have hunreadable := fun hall => hread (readable_list_iff.2 hall)
      have hitem : Refuses (']' :: rest) (v.reprChars ++ reprTail more) :=
        refuses_item hv (fun hv => ih v List.mem_cons_self hv hended)
          (fun hv => refuses_reprTail hmore
            (fun w hw hw' _ => ih w (List.mem_cons_of_mem v hw) hw')
            (fun hall => hunreadable (List.forall_mem_cons.2 ⟨hv, hall⟩)) hclose) hended
      exact (scans_punct .openBracket rfl).refuses (Refuses.append hitem)

/-! ### Reading the text back -/

/-- The text of a value is a source, of an expression that in any scope has an equal value. -/
def ReadsBack (v : Value) : Prop :=
  ∃ e, Expr.parse v.repr = .ok e ∧ ∀ store scope fresh, ∃ w,
    (e.run store scope fresh).1 = .ok w ∧ w.equal v = true

theorem Plain.readsBack (h : v.Plain) (hread : v.Readable) : v.ReadsBack := by
  obtain ⟨offset, ts, hts, hscan⟩ := h.scans hread (show Ended [] from nofun) 0
  have hchars : v.repr.toList = v.reprChars ++ [] :=
    String.toList_ofList.trans (List.append_nil _).symm
  have hscan : scan 0 0 v.repr.toList = .ok (ts ++ []) := by
    rw [hchars, hscan]
    rfl
  refine ⟨v.literal, (h.writable hread).parse_eq hscan (by rw [List.append_nil, hts]), ?_⟩
  intro store scope fresh
  refine ⟨v, ?_, h.equal_self⟩
  unfold Expr.run
  rw [h.eval store scope]
  rfl

theorem Plain.parse_eq_error (h : v.Plain) (hread : ¬ v.Readable) :
    ∃ e, Expr.parse v.repr = .error e := by
  obtain ⟨e, he⟩ := h.refuses hread (show Ended [] from nofun) 0
  refine ⟨e, ?_⟩
  have hchars : v.repr.toList = v.reprChars ++ [] :=
    String.toList_ofList.trans (List.append_nil _).symm
  unfold Expr.parse Tokens.ofSource
  rw [hchars, he]
  rfl

/-- The text of a value built from `None`, truth values, integers and texts by nesting lists is a
source of an equal value just if no text in it has several lines and no integer is the least one;
else it is no source at all. -/
theorem parse_repr (h : v.Plain) :
    (v.ReadsBack ↔ v.Readable) ∧ (¬ v.Readable → ∃ e, Expr.parse v.repr = .error e) := by
  refine ⟨⟨fun hback => Classical.byContradiction fun hread => ?_, h.readsBack⟩, h.parse_eq_error⟩
  obtain ⟨e, he⟩ := h.parse_eq_error hread
  obtain ⟨e', he', -⟩ := hback
  cases he.symm.trans he'

/-- A list with a negative integer and a text with a quote inside. -/
def nested : Value := .list [.none, .int (-5), .list [.str "it's", .bool true]]

example : nested.repr = "[None, -5, ['it\\'s', True]]" := by decide +kernel

theorem plain_nested : nested.Plain := by
  refine .list ?_
  simp only [List.forall_mem_cons]
  refine ⟨.none, .int (by decide), .list ?_, nofun⟩
  simp only [List.forall_mem_cons]
  exact ⟨.str _, .bool true, nofun⟩

theorem readable_nested : nested.Readable := by
  refine readable_list_iff.2 ?_
  simp only [List.forall_mem_cons]
  refine ⟨⟨nofun, nofun⟩, readable_int_iff.2 (by decide), readable_list_iff.2 ?_, nofun⟩
  simp only [List.forall_mem_cons]
  exact ⟨readable_str_iff.2 (by decide), ⟨nofun, nofun⟩, nofun⟩

theorem parse_repr_nested : nested.Plain ∧ nested.ReadsBack :=
  ⟨plain_nested, (parse_repr plain_nested).1.2 readable_nested⟩

end Value

end ReactiveView
