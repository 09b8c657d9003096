import Mathlib.Data.List.TakeWhile
import ReactiveView.Proofs.Expr.Scanning

/-!
This module contains how far a lexeme reaches: it has a character, it ends within the text, and what
comes behind a line feed does not change it.
-/

namespace ReactiveView

namespace Token

variable {c quote letter : Char} {cs cs' rest more whole tail expo sign digits x s : List Char}
  {p : Char → Bool} {l : Lexeme} {r : Option Lexeme} {n skip offset : Nat} {e : Int}

/-! ### Counts of bytes -/

theorem byteCount_cons (c : Char) (cs : List Char) :
    byteCount (c :: cs) = c.utf8Size + byteCount cs := rfl

theorem byteCount_append (cs cs' : List Char) :
    byteCount (cs ++ cs') = byteCount cs + byteCount cs' := by
  induction cs with
  | nil => exact (Nat.zero_add _).symm
  | cons c cs ih => rw [List.cons_append, byteCount_cons, byteCount_cons, ih, Nat.add_assoc]

theorem length_le_byteCount (cs : List Char) : cs.length ≤ byteCount cs := by
  induction cs with
  | nil => exact Nat.le_refl _
  | cons c cs ih =>
    have hc := c.utf8Size_pos
    rw [byteCount_cons, List.length_cons]
    omega

theorem utf8Size_of_isDigit (h : c.isDigit = true) : c.utf8Size = 1 := by
  obtain ⟨-, hhigh⟩ := Bool.and_eq_true_iff.1 h
  rw [Char.utf8Size_eq_one_iff]
  exact UInt32.le_trans (of_decide_eq_true hhigh) (by decide)

/-! ### Numbers -/

/-- The point of a number and its places, if there are any. -/
def IsFraction (tail : List Char) : Prop :=
  tail = [] ∨ ∃ places, tail = '.' :: places ∧ ∀ c ∈ places, c.isDigit = true

/-- Where the digits of a number are over. -/
structure EndsDigits (tail x : List Char) : Prop where
  digit : ∀ c ∈ x.head?, c.isDigit = false
  point : tail = [] → ∀ c ∈ x.head?, c ≠ '.'

theorem head?_dropWhile (p : Char → Bool) (cs : List Char) :
    ∀ c ∈ (cs.dropWhile p).head?, p c = false := by
  intro c hc
  have h := List.head?_dropWhile_not p cs
  rw [Option.mem_def.1 hc] at h
  simpa using h

/-- Each text is split into the digits of the number at its front, the places, and what follows. -/
theorem exists_digits (cs : List Char) :
    ∃ whole tail x, cs = whole ++ (tail ++ x) ∧ (∀ c ∈ whole, c.isDigit = true) ∧
      IsFraction tail ∧ EndsDigits tail x := by
  have hwhole : ∀ c ∈ cs.takeWhile Char.isDigit, c.isDigit = true := fun _ => List.mem_takeWhile_imp
  have hhead := head?_dropWhile Char.isDigit cs
  have hcs := (List.takeWhile_append_dropWhile (p := Char.isDigit) (l := cs)).symm
  generalize cs.dropWhile Char.isDigit = after at hhead hcs
  by_cases hpoint : ∃ rest, after = '.' :: rest
  · obtain ⟨rest, rfl⟩ := hpoint
    refine ⟨_, '.' :: rest.takeWhile Char.isDigit, rest.dropWhile Char.isDigit, ?_, hwhole,
      .inr ⟨_, rfl, fun _ => List.mem_takeWhile_imp⟩, head?_dropWhile _ rest, nofun⟩
    rw [List.cons_append, List.takeWhile_append_dropWhile]
    exact hcs
  · refine ⟨_, [], after, hcs, hwhole, .inl rfl, hhead, ?_⟩
    rintro - c hc rfl
    obtain ⟨rest, hrest⟩ := List.head?_eq_some_iff.1 (Option.mem_def.1 hc)
    exact hpoint ⟨rest, hrest⟩

/-- The value of a number that was split, by its exponent. -/
def numberOf (whole tail : List Char) : Option (Int × Nat) → Except SyntaxFault (Lexeme × Nat)
  | some (e, n) =>
    .ok (.float (Decimal.nearestFloat (Nat.ofDigitChars 10 (whole ++ tail.tail) 0)
      (e - tail.tail.length)), whole.length + tail.length + n)
  | none =>
    if tail = [] then
      if Word.fits (Nat.ofDigitChars 10 whole 0 : Nat) then
        .ok (.int (Nat.ofDigitChars 10 whole 0), whole.length)
      else .error (.integerTooLarge (String.ofList whole))
    else .ok (.float (Decimal.nearestFloat (Nat.ofDigitChars 10 (whole ++ tail.tail) 0)
      (-(tail.tail.length : Int))), whole.length + tail.length)

theorem readNumber_eq (hwhole : ∀ c ∈ whole, c.isDigit = true) (htail : IsFraction tail)
    (hx : EndsDigits tail x) :
    readNumber (whole ++ (tail ++ x)) = numberOf whole tail (readExponent x) := by
  rcases htail with rfl | ⟨places, rfl, hplaces⟩
  · unfold readNumber Decimal.spanDigits
    dsimp only
    rw [List.nil_append, takeWhile_of_stop hwhole hx.digit, dropWhile_of_stop hwhole hx.digit]
    cases x with
    | nil => simp [readExponent, numberOf]
    | cons d x =>
      have hd : d ≠ '.' := hx.point rfl d rfl
      cases hexponent : readExponent (d :: x) with
      | none => simp [hd, hexponent, numberOf]
      | some found => simp [hd, hexponent, numberOf]
  · have hdot : ∀ c ∈ ('.' :: (places ++ x)).head?, c.isDigit = false := by
      rintro c ⟨⟩
      rfl
    unfold readNumber Decimal.spanDigits
    dsimp only
    simp only [List.cons_append, takeWhile_of_stop hwhole hdot, dropWhile_of_stop hwhole hdot,
      takeWhile_of_stop hplaces hx.digit, dropWhile_of_stop hplaces hx.digit]
    cases hexponent : readExponent x with
    | none => simp [numberOf, Nat.add_assoc]
    | some found => simp [numberOf, Nat.add_assoc]

/-- The exponent of a number, with its letter, its sign and its digits. -/
structure IsExponent (expo : List Char) (letter : Char) (sign digits : List Char) : Prop where
  eq : expo = letter :: (sign ++ digits)
  letter : letter = 'e' ∨ letter = 'E'
  sign : sign = [] ∨ sign = ['-'] ∨ sign = ['+']
  digit : ∀ c ∈ digits, c.isDigit = true
  digits : digits ≠ []

theorem spanSign_append (hsign : sign = [] ∨ sign = ['-'] ∨ sign = ['+'])
    (hdigits : ∀ c ∈ digits, c.isDigit = true) (hne : digits ≠ []) (rest : List Char) :
    Decimal.spanSign (sign ++ (digits ++ rest)) = (decide (sign = ['-']), digits ++ rest) := by
  rcases hsign with rfl | rfl | rfl
  · obtain ⟨d, ds, rfl⟩ := List.exists_cons_of_ne_nil hne
    have hd := hdigits d List.mem_cons_self
    have hminus : d ≠ '-' := by
      rintro rfl
      exact absurd hd (by decide)
    have hplus : d ≠ '+' := by
      rintro rfl
      exact absurd hd (by decide)
    simp [Decimal.spanSign, hminus, hplus]
  · rfl
  · rfl

theorem readExponent_eq (h : IsExponent expo letter sign digits)
    (hrest : ∀ c ∈ rest.head?, c.isDigit = false) :
    readExponent (expo ++ rest) = some (if sign = ['-'] then -(Nat.ofDigitChars 10 digits 0 : Int)
      else Nat.ofDigitChars 10 digits 0, expo.length) := by
  obtain ⟨rfl, hletter, hsign, hdigits, hne⟩ := h
  have hletter : (decide (letter = 'e') || decide (letter = 'E')) = true := by simpa using hletter
  unfold readExponent
  rw [List.cons_append, List.append_assoc]
  dsimp only
  rw [if_pos hletter, spanSign_append hsign hdigits hne, takeWhile_of_stop hdigits hrest,
    if_neg (by simpa using hne)]
  simp
  omega

/-- An exponent that is read is there. -/
theorem exists_exponent (h : readExponent x = some (e, n)) :
    ∃ expo rest letter sign digits, x = expo ++ rest ∧ n = expo.length ∧
      IsExponent expo letter sign digits ∧ ∀ c ∈ rest.head?, c.isDigit = false := by
  cases x with
  | nil => cases h
  | cons letter after =>
    have hsplit : ∃ sign, (sign = [] ∨ sign = ['-'] ∨ sign = ['+']) ∧
        after = sign ++ (Decimal.spanSign after).2 := by
      unfold Decimal.spanSign
      split
      · exact ⟨['-'], .inr (.inl rfl), rfl⟩
      · exact ⟨['+'], .inr (.inr rfl), rfl⟩
      · exact ⟨[], .inl rfl, rfl⟩
    obtain ⟨sign, hsign, hafter⟩ := hsplit
    unfold readExponent at h
    dsimp only at h
    split at h
    · next hletter =>
      split at h
      · cases h
      · next hne =>
        simp only [Option.some.injEq, Prod.mk.injEq] at h
        generalize (Decimal.spanSign after).2 = body at hafter hne h
        refine ⟨letter :: (sign ++ body.takeWhile Char.isDigit), body.dropWhile Char.isDigit, letter,
          sign, body.takeWhile Char.isDigit, ?_, ?_, ⟨rfl, by simpa using hletter, hsign,
            fun _ => List.mem_takeWhile_imp, by simpa using hne⟩, head?_dropWhile _ body⟩
        · rw [List.cons_append, List.append_assoc, List.takeWhile_append_dropWhile, ← hafter]
        · rw [← h.2, hafter]
          simp
          omega
    · cases h

/-- The number at the front of a text, and what follows. -/
structure Splits (cs whole tail expo rest : List Char) : Prop where
  eq : cs = whole ++ (tail ++ (expo ++ rest))
  digit : ∀ c ∈ whole, c.isDigit = true
  fraction : IsFraction tail
  ends : EndsDigits tail (expo ++ rest)
  exponent : (expo = [] ∧ readExponent rest = none) ∨
    ((∃ letter sign digits, IsExponent expo letter sign digits) ∧ ∀ c ∈ rest.head?, c.isDigit = false)

theorem exists_splits (cs : List Char) : ∃ whole tail expo rest, Splits cs whole tail expo rest := by
  obtain ⟨whole, tail, x, hcs, hwhole, htail, hx⟩ := exists_digits cs
  cases hexponent : readExponent x with
  | none => exact ⟨whole, tail, [], x, hcs, hwhole, htail, hx, .inl ⟨rfl, hexponent⟩⟩
  | some found =>
    obtain ⟨expo, rest, letter, sign, digits, rfl, -, hexpo, hrest⟩ := exists_exponent hexponent
    exact ⟨whole, tail, expo, rest, hcs, hwhole, htail, hx, .inr ⟨⟨_, _, _, hexpo⟩, hrest⟩⟩

namespace Splits

theorem readExponent (h : Splits cs whole tail expo rest) :
    (Token.readExponent (expo ++ rest) = none ∧ expo = []) ∨
      ∃ e, Token.readExponent (expo ++ rest) = some (e, expo.length) ∧
        Token.readExponent expo = some (e, expo.length) := by
  rcases h.exponent with ⟨rfl, hnone⟩ | ⟨⟨_, _, _, hexpo⟩, hrest⟩
  · exact .inl ⟨hnone, rfl⟩
  · have hnil : ∀ c ∈ ([] : List Char).head?, c.isDigit = false := nofun
    have hself := readExponent_eq hexpo hnil
    rw [List.append_nil] at hself
    exact .inr ⟨_, readExponent_eq hexpo hrest, hself⟩

/-- A number is read alone as it is read in its text. -/
theorem readNumber_text (h : Splits cs whole tail expo rest) :
    readNumber (whole ++ (tail ++ expo)) = readNumber cs := by
  have hends : EndsDigits tail expo := by
    constructor
    · intro c hc
      refine h.ends.digit c ?_
      rw [List.head?_append, Option.mem_def.1 hc]
      rfl
    · intro htail c hc
      refine h.ends.point htail c ?_
      rw [List.head?_append, Option.mem_def.1 hc]
      rfl
  rw [h.eq, readNumber_eq h.digit h.fraction hends, readNumber_eq h.digit h.fraction h.ends]
  rcases h.readExponent with ⟨hnone, rfl⟩ | ⟨e, hsome, hself⟩
  · rw [hnone]
    rfl
  · rw [hsome, hself]

theorem length_eq (h : Splits cs whole tail expo rest) (hread : readNumber cs = .ok (l, n)) :
    n = (whole ++ (tail ++ expo)).length := by
  rw [h.eq, readNumber_eq h.digit h.fraction h.ends] at hread
  rcases h.readExponent with ⟨hnone, rfl⟩ | ⟨e, hsome, -⟩
  · rw [hnone] at hread
    unfold numberOf at hread
    dsimp only at hread
    split at hread
    · next htail =>
      split at hread
      · cases hread
        rw [htail]
        simp
      · cases hread
    · cases hread
      simp
  · rw [hsome] at hread
    cases hread
    simp [Nat.add_assoc]

/-- What starts like a number is not empty. -/
theorem ne_nil (h : Splits (c :: cs) whole tail expo rest) (hc : c.isDigit = true ∨ c = '.') :
    whole ++ (tail ++ expo) ≠ [] := by
  intro hnil
  simp only [List.append_eq_nil_iff] at hnil
  obtain ⟨rfl, rfl, rfl⟩ := hnil
  obtain rfl : c :: cs = rest := h.eq
  rcases hc with hdigit | hpoint
  · rw [h.ends.digit c rfl] at hdigit
    cases hdigit
  · exact h.ends.point rfl c rfl hpoint

end Splits

theorem readNumber_length (hc : c.isDigit = true ∨ c = '.') (hread : readNumber (c :: cs) = .ok (l, n)) :
    1 ≤ n ∧ n ≤ (c :: cs).length := by
  obtain ⟨whole, tail, expo, rest, h⟩ := exists_splits (c :: cs)
  have hpos := List.length_pos_iff.2 (h.ne_nil hc)
  rw [h.length_eq hread, h.eq]
  simp only [List.length_append] at hpos ⊢
  omega

theorem spanSign_line (cs more : List Char) : Decimal.spanSign (cs ++ '\n' :: more)
    = ((Decimal.spanSign cs).1, (Decimal.spanSign cs).2 ++ '\n' :: more) := by
  cases cs with
  | nil => rfl
  | cons c cs =>
    by_cases hminus : c = '-'
    · subst hminus
      rfl
    · by_cases hplus : c = '+'
      · subst hplus
        rfl
      · simp [Decimal.spanSign, hminus, hplus]

theorem takeWhile_line (hline : p '\n' = false) (cs more : List Char) :
    (cs ++ '\n' :: more).takeWhile p = cs.takeWhile p := by
  have hall : ∀ c ∈ cs.takeWhile p, p c = true := fun _ => List.mem_takeWhile_imp
  have hstop : ∀ c ∈ (cs.dropWhile p ++ '\n' :: more).head?, p c = false := by
    intro c hc
    cases hrest : cs.dropWhile p with
    | nil =>
      rw [hrest] at hc
      cases hc
      exact hline
    | cons d rest =>
      apply head?_dropWhile p cs
      rw [hrest] at hc ⊢
      exact hc
  have htake := takeWhile_of_stop hall hstop
  rwa [← List.append_assoc, List.takeWhile_append_dropWhile] at htake

theorem readExponent_line (x more : List Char) :
    readExponent (x ++ '\n' :: more) = readExponent x := by
  cases x with
  | nil => rfl
  | cons letter after =>
    unfold readExponent
    rw [List.cons_append]
    dsimp only
    rw [spanSign_line, takeWhile_line rfl]
    simp only [List.length_append]
    rw [Nat.add_sub_add_right]

theorem readNumber_line (cs more : List Char) :
    readNumber (cs ++ '\n' :: more) = readNumber cs := by
  obtain ⟨whole, tail, x, rfl, hwhole, htail, hx⟩ := exists_digits cs
  have hx' : EndsDigits tail (x ++ '\n' :: more) := by
    cases x with
    | nil =>
      constructor
      · rintro c ⟨⟩
        rfl
      · rintro - c ⟨⟩
        decide
    | cons d x => exact ⟨hx.digit, hx.point⟩
  rw [List.append_assoc, List.append_assoc, readNumber_eq hwhole htail hx',
    readNumber_eq hwhole htail hx, readExponent_line]

/-! ### Quoted texts -/

theorem readString_length (h : readString quote cs = some (s, n)) : 1 ≤ n ∧ n ≤ cs.length := by
  fun_induction readString quote cs generalizing s n with
  | case1 => cases h
  | case2 =>
    cases h
    simp
  | case3 => cases h
  | case4 => cases h
  | case5 e rest _ _ ih =>
    obtain ⟨⟨s', n'⟩, hread, heq⟩ := Option.map_eq_some_iff.1 h
    cases heq
    have hlength := ih hread
    simp only [List.length_cons]
    omega
  | case6 c rest _ _ _ ih =>
    obtain ⟨⟨s', n'⟩, hread, heq⟩ := Option.map_eq_some_iff.1 h
    cases heq
    have hlength := ih hread
    simp only [List.length_cons]
    omega

theorem readString_append (h : readString quote cs = some (s, n)) (more : List Char) :
    readString quote (cs ++ more) = some (s, n) := by
  fun_induction readString quote cs generalizing s n with
  | case1 => cases h
  | case2 rest =>
    rw [List.cons_append, readString.eq_def]
    exact (if_pos rfl).trans h
  | case3 => cases h
  | case4 => cases h
  | case5 e rest hquote hline ih =>
    obtain ⟨⟨s', n'⟩, hread, heq⟩ := Option.map_eq_some_iff.1 h
    rw [List.cons_append, List.cons_append, readString.eq_def]
    dsimp only
    rw [if_neg hquote, if_neg hline, if_pos rfl, ih hread, Option.map_some, ← heq]
  | case6 c rest hquote hline hescape ih =>
    obtain ⟨⟨s', n'⟩, hread, heq⟩ := Option.map_eq_some_iff.1 h
    rw [List.cons_append, readString.eq_def]
    dsimp only
    rw [if_neg hquote, if_neg hline, if_neg hescape, ih hread, Option.map_some, ← heq]

/-! ### Operators -/

theorem scan?_eq (cs : List Char) {q : Punct} (h : Punct.scan? cs = some (q, n)) :
    ∃ rest, cs = q.text.toList ++ rest ∧ n = q.text.toList.length := by
  unfold Punct.scan? at h
  split at h
  all_goals first
    | (cases h; exact ⟨_, rfl, rfl⟩)
    | cases h

theorem scan?_line {found : Punct × Nat} (h : Punct.scan? cs = some found) (more : List Char) :
    Punct.scan? (cs ++ '\n' :: more) = some found := by
  unfold Punct.scan? at h
  split at h <;> first
    | exact h
    | (next rest _ => cases rest with
      | nil => exact h
      | cons d rest => simp_all [Punct.scan?])
    | cases h

/-! ### Lexemes -/

/-- What is read at the front of a text, kind by kind. -/
inductive Found (c : Char) (rest : List Char) : Option Lexeme → Nat → Prop
  | blank (hc : isBlank c = true) : Found c rest none 1
  | comment (hc : c = '#') : Found c rest none (1 + (rest.takeWhile (· != '\n')).length)
  | number {l : Lexeme} {n : Nat} (hc : c.isDigit = true ∨ c = '.')
      (hread : readNumber (c :: rest) = .ok (l, n)) : Found c rest (some l) n
  | name (hc : startsName c = true) :
      Found c rest (some (.name (String.ofList (c :: rest.takeWhile inName))))
        (c :: rest.takeWhile inName).length
  | text {s : List Char} {n : Nat} (hread : readString c rest = some (s, n)) :
      Found c rest (some (.str (String.ofList s))) (n + 1)
  | punct {q : Punct} {n : Nat} (hread : Punct.scan? (c :: rest) = some (q, n)) :
      Found c rest (some (.punct q)) n

theorem found_of_readLexeme (h : readLexeme c rest = .ok (r, n)) : Found c rest r n := by
  unfold readLexeme at h
  split at h
  · next hblank =>
    cases h
    exact .blank hblank
  · split at h
    · next hhash =>
      cases h
      exact .comment hhash
    · split at h
      · next hnumber =>
        have hc : c.isDigit = true ∨ c = '.' := by
          simp only [Bool.or_eq_true, Bool.and_eq_true, decide_eq_true_eq] at hnumber
          exact hnumber.imp_right And.left
        cases hread : readNumber (c :: rest) with
        | error fault =>
          rw [hread] at h
          cases h
        | ok found =>
          rw [hread] at h
          cases h
          exact .number hc hread
      · split at h
        · next hname =>
          cases h
          exact .name hname
        · split at h
          · split at h
            · next s n' hread =>
              cases h
              exact .text hread
            · cases h
          · split at h
            · next q n' hread =>
              cases h
              exact .punct hread
            · cases h

/-- A lexeme has a character and ends within the text. -/
theorem readLexeme_length (h : readLexeme c rest = .ok (r, n)) : 1 ≤ n ∧ n ≤ rest.length + 1 := by
  have hprefix (p : Char → Bool) : (rest.takeWhile p).length ≤ rest.length :=
    (List.takeWhile_prefix p).length_le
  cases found_of_readLexeme h with
  | blank => omega
  | comment =>
    have := hprefix (· != '\n')
    omega
  | number hc hread => exact readNumber_length hc hread
  | name =>
    have := hprefix inName
    rw [List.length_cons]
    omega
  | text hread =>
    have := readString_length hread
    omega
  | @punct q n hread =>
    obtain ⟨more, heq, rfl⟩ := scan?_eq _ hread
    have hlength := congrArg List.length heq
    have hpos : 1 ≤ q.text.toList.length := by cases q <;> decide
    rw [List.length_cons, List.length_append] at hlength
    omega

/-- What is skipped is a blank or the rest of a line. -/
theorem readLexeme_none (h : readLexeme c rest = .ok (none, n)) :
    (isBlank c = true ∧ n = 1) ∨ (c = '#' ∧ n = 1 + (rest.takeWhile (· != '\n')).length) := by
  cases found_of_readLexeme h with
  | blank hc => exact .inl ⟨hc, rfl⟩
  | comment hc => exact .inr ⟨hc, rfl⟩

/-- A lexeme does not reach over a line feed that it was read without. -/
theorem readLexeme_line (h : readLexeme c rest = .ok (r, n)) (more : List Char) :
    readLexeme c (rest ++ '\n' :: more) = .ok (r, n) := by
  have hhead : ((rest ++ '\n' :: more).head?.map Char.isDigit).getD false
      = (rest.head?.map Char.isDigit).getD false := by
    cases rest with
    | nil => rfl
    | cons d rest => rfl
  unfold readLexeme at h ⊢
  rw [hhead, takeWhile_line rfl, takeWhile_line rfl, ← List.cons_append, readNumber_line]
  split at h
  · next hblank =>
    rw [if_pos hblank]
    exact h
  · next hblank =>
    rw [if_neg hblank]
    split at h
    · next hhash =>
      rw [if_pos hhash]
      exact h
    · next hhash =>
      rw [if_neg hhash]
      split at h
      · next hnumber =>
        rw [if_pos hnumber]
        exact h
      · next hnumber =>
        rw [if_neg hnumber]
        split at h
        · next hname =>
          rw [if_pos hname]
          exact h
        · next hname =>
          rw [if_neg hname]
          split at h
          · next hquote =>
            rw [if_pos hquote]
            split at h
            · next s n' hread =>
              rw [readString_append hread]
              exact h
            · cases h
          · next hquote =>
            rw [if_neg hquote]
            split at h
            · next q n' hread =>
              rw [scan?_line hread]
              exact h
            · cases h

/-! ### Texts -/

theorem scan_drop (h : n ≤ cs.length) (offset : Nat) :
    scan n offset cs = scan 0 (offset + byteCount (cs.take n)) (cs.drop n) := by
  induction n generalizing cs offset with
  | zero => rfl
  | succ n ih =>
    cases cs with
    | nil => cases h
    | cons c cs =>
      rw [scan, ih (Nat.le_of_succ_le_succ h), List.take_succ_cons, List.drop_succ_cons,
        byteCount_cons, Nat.add_assoc]

/-- How a text is read lexeme by lexeme, its first byte being at an offset. -/
inductive Lexes : Nat → List Char → Except SyntaxError (List Token) → Prop
  | done {offset : Nat} : Lexes offset [] (.ok [])
  | refused {offset : Nat} {c : Char} {rest : List Char} {fault : SyntaxFault}
      (hread : readLexeme c rest = .error fault) : Lexes offset (c :: rest) (.error ⟨fault, offset⟩)
  | gap {offset n : Nat} {c : Char} {rest : List Char} {result : Except SyntaxError (List Token)}
      (hread : readLexeme c rest = .ok (none, n))
      (h : Lexes (offset + byteCount ((c :: rest).take n)) ((c :: rest).drop n) result) :
      Lexes offset (c :: rest) result
  | token {offset n : Nat} {c : Char} {rest : List Char} {l : Lexeme}
      {result : Except SyntaxError (List Token)} (hread : readLexeme c rest = .ok (some l, n))
      (h : Lexes (offset + byteCount ((c :: rest).take n)) ((c :: rest).drop n) result) :
      Lexes offset (c :: rest)
        (result.map (⟨l, offset, offset + byteCount ((c :: rest).take n)⟩ :: ·))

/-- What follows a lexeme is shorter. -/
theorem length_drop_le (h : readLexeme c rest = .ok (r, n)) :
    ((c :: rest).drop n).length ≤ rest.length := by
  have hpos := (readLexeme_length h).1
  rw [List.length_drop, List.length_cons]
  omega

/-- Scanning goes on behind a lexeme. -/
theorem scan_behind (h : readLexeme c rest = .ok (r, n)) (offset : Nat) :
    scan (n - 1) (offset + c.utf8Size) rest
      = scan 0 (offset + byteCount ((c :: rest).take n)) ((c :: rest).drop n) := by
  obtain ⟨hpos, hn⟩ := readLexeme_length h
  obtain ⟨n, rfl⟩ := Nat.exists_eq_succ_of_ne_zero (Nat.ne_of_gt hpos)
  have hn : n + 1 ≤ (c :: rest).length := hn
  exact scan_drop hn offset

theorem lexes_scan (offset : Nat) (cs : List Char) : Lexes offset cs (scan 0 offset cs) := by
  induction hlength : cs.length using Nat.strong_induction_on generalizing cs offset with
  | h length ih =>
    subst hlength
    cases cs with
    | nil => exact .done
    | cons c rest =>
      rw [scan]
      cases hread : readLexeme c rest with
      | error fault => exact .refused hread
      | ok found =>
        obtain ⟨r, n⟩ := found
        have hmore := Nat.lt_succ_of_le (length_drop_le hread)
        have hlexes := ih _ hmore (offset + byteCount ((c :: rest).take n)) _ rfl
        cases r with
        | none =>
          dsimp only
          rw [scan_behind hread]
          exact .gap hread hlexes
        | some l =>
          have htoken := Lexes.token hread hlexes
          dsimp only
          rw [scan_behind hread]
          generalize scan 0 (offset + byteCount ((c :: rest).take n)) ((c :: rest).drop n) = result
            at htoken ⊢
          cases result <;> exact htoken

end Token

end ReactiveView
