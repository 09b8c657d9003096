import ReactiveView.Proofs.Expr.Printing

/-!
This module contains that the scanner finds the lexemes of a text again that was written with spaces
between them. What follows a lexeme there is a space or nothing, and neither prolongs it.
-/

namespace ReactiveView

/-- Lexemes that can be written so that they are read as they are. -/
def Lexeme.Writable : Lexeme → Prop
  | int n => Word.fits n = true
  | float _ => False
  | str s => '\n' ∉ s.toList
  | name s => IsIdentifier s
  | punct _ => True

namespace Token

/-- What can follow a lexeme: a space or nothing. -/
def Separated (rest : List Char) : Prop := ∀ c ∈ rest.head?, c = ' '

/-- What prolongs neither a name nor a number. -/
def Ended (rest : List Char) : Prop := ∀ c ∈ rest.head?, inName c = false ∧ c ≠ '.'

/-- Whether an operator is read whatever comes behind it: nothing longer starts with it. -/
def isAlone : Punct → Bool
  | .slash | .less | .greater | .assign | .dot => false
  | _ => true

/-- A lexeme ends in front of the rest of a text. -/
def Parts (rest : List Char) : Lexeme → Prop
  | .str _ => True
  | .punct q => isAlone q = true ∨ Separated rest
  | _ => Ended rest

variable {c quote : Char} {cs rest s : List Char} {p : Char → Bool} {l : Lexeme} {n : Nat}

/-! ### Runs of characters -/

theorem takeWhile_of_stop (hall : ∀ c ∈ cs, p c = true) (hstop : ∀ c ∈ rest.head?, p c = false) :
    (cs ++ rest).takeWhile p = cs := by
  rw [List.takeWhile_append_of_pos hall]
  cases rest with
  | nil => rw [List.takeWhile_nil, List.append_nil]
  | cons d rest =>
    rw [List.takeWhile_cons_of_neg (by rw [hstop d rfl]; exact Bool.false_ne_true),
      List.append_nil]

theorem dropWhile_of_stop (hall : ∀ c ∈ cs, p c = true) (hstop : ∀ c ∈ rest.head?, p c = false) :
    (cs ++ rest).dropWhile p = rest := by
  rw [List.dropWhile_append_of_pos hall]
  cases rest with
  | nil => rfl
  | cons d rest =>
    rw [List.dropWhile_cons_of_neg (by rw [hstop d rfl]; exact Bool.false_ne_true)]

/-! ### Kinds of characters -/

theorem isBlank_eq_false (h : inName c = true) : isBlank c = false := by
  refine Bool.of_not_eq_true fun hblank => ?_
  simp only [isBlank, Bool.or_eq_true, decide_eq_true_eq] at hblank
  rcases hblank with (((rfl | rfl) | rfl) | rfl) | rfl <;> revert h <;> decide

theorem inName_of_startsName (h : startsName c = true) : inName c = true := by
  unfold startsName at h
  unfold inName Char.isAlphanum
  simp only [Bool.or_eq_true] at h ⊢
  exact h.imp_right .inl

theorem inName_of_isDigit (h : c.isDigit = true) : inName c = true := by
  unfold inName Char.isAlphanum
  simp only [Bool.or_eq_true]
  exact .inr (.inr h)

theorem isDigit_eq_false (h : startsName c = true) : c.isDigit = false := by
  refine Bool.of_not_eq_true fun hdigit => ?_
  obtain ⟨-, hhigh⟩ := Bool.and_eq_true_iff.1 hdigit
  have hhigh : c.val ≤ 57 := of_decide_eq_true hhigh
  rcases Bool.or_eq_true_iff.1 h with hline | halpha
  · obtain rfl : c = '_' := of_decide_eq_true hline
    revert hhigh
    decide
  · rcases Bool.or_eq_true_iff.1 (show (c.isUpper || c.isLower) = true from halpha) with h | h
    · have hlow : 65 ≤ c.val := (of_decide_eq_true h).1
      exact absurd (UInt32.le_trans hlow hhigh) (by decide)
    · have hlow : 97 ≤ c.val := of_decide_eq_true (Bool.and_eq_true_iff.1 h).1
      exact absurd (UInt32.le_trans hlow hhigh) (by decide)

theorem isDigit_eq_false_of_inName (h : inName c = false) : c.isDigit = false :=
  Bool.of_not_eq_true fun hdigit => by
    rw [inName_of_isDigit hdigit] at h
    cases h

theorem Separated.ended (h : Separated rest) : Ended rest := by
  intro c hc
  rw [h c hc]
  decide

theorem Separated.parts (h : Separated rest) (l : Lexeme) : Parts rest l := by
  cases l with
  | str s => trivial
  | punct q => exact .inr h
  | _ => exact h.ended

/-! ### One lexeme -/

theorem readLexeme_name (hc : startsName c = true) (hcs : ∀ d ∈ cs, inName d = true)
    (hrest : Ended rest) : readLexeme c (cs ++ rest)
      = .ok (some (.name (String.ofList (c :: cs))), (c :: cs).length) := by
  have hin := inName_of_startsName hc
  have hhash : c ≠ '#' := by
    rintro rfl
    revert hin
    decide
  have hdot : c ≠ '.' := by
    rintro rfl
    revert hin
    decide
  unfold readLexeme
  rw [if_neg (by rw [isBlank_eq_false hin]; exact Bool.false_ne_true), if_neg hhash,
    if_neg (by simp [isDigit_eq_false hc, hdot]), if_pos hc,
    takeWhile_of_stop hcs fun d hd => (hrest d hd).1]

theorem readExponent_of_ended (hrest : Ended rest) : readExponent rest = none := by
  cases rest with
  | nil => rfl
  | cons d rest =>
    unfold readExponent
    dsimp only
    refine if_neg fun hd => ?_
    have hin := (hrest d rfl).1
    rcases Bool.or_eq_true_iff.1 hd with h | h <;>
      · rw [of_decide_eq_true h] at hin
        revert hin
        decide

/-- Digits are read as their number, unless it is too large. -/
theorem readNumber_toDigits (n : Nat) (hrest : Ended rest) :
    readNumber (Nat.toDigits 10 n ++ rest)
      = if Word.fits n then .ok (.int n, (Nat.toDigits 10 n).length)
        else .error (.integerTooLarge (String.ofList (Nat.toDigits 10 n))) := by
  have hdigits : ∀ c ∈ Nat.toDigits 10 n, c.isDigit = true :=
    fun c hc => Nat.isDigit_of_mem_toDigits (by decide) (by decide) hc
  have hvalue : Nat.ofDigitChars 10 (Nat.toDigits 10 n) 0 = n :=
    Nat.ofDigitChars_toDigits (by decide) (by decide)
  have hstop : ∀ c ∈ rest.head?, c.isDigit = false :=
    fun c hc => isDigit_eq_false_of_inName (hrest c hc).1
  unfold readNumber Decimal.spanDigits
  dsimp only
  rw [takeWhile_of_stop hdigits hstop, dropWhile_of_stop hdigits hstop]
  cases rest with
  | nil => simp [readExponent, hvalue]
  | cons d rest => simp [(hrest d rfl).2, readExponent_of_ended hrest, hvalue]

theorem readString_escape (hline : '\n' ∉ s) (rest : List Char) :
    readString '\'' (Quoted.escape s ++ '\'' :: rest)
      = some (s, (Quoted.escape s ++ ['\'']).length) := by
  induction s with
  | nil =>
    rw [Quoted.escape, List.nil_append, readString.eq_def]
    exact if_pos rfl
  | cons c s ih =>
    obtain ⟨hc, hs⟩ := not_or.1 (fun h => hline (List.mem_cons.2 h))
    have ih := ih hs
    unfold Quoted.escape
    split
    · next hescaped =>
      -- A backslash and the character behind it stand for that character.
      have hunescape : unescape c = [c] := by
        simp only [Bool.or_eq_true, decide_eq_true_eq] at hescaped
        rcases hescaped with rfl | rfl <;> rfl
      rw [List.cons_append, List.cons_append, readString.eq_def]
      dsimp only
      rw [if_neg (by decide), if_neg (by decide), if_pos rfl, ih, Option.map_some, hunescape]
      simp
    · next hplain =>
      simp only [Bool.or_eq_true, decide_eq_true_eq, not_or] at hplain
      rw [List.cons_append, readString.eq_def]
      dsimp only
      rw [if_neg hplain.2, if_neg (Ne.symm hc), if_neg hplain.1, ih, Option.map_some]
      simp

/-- A text of several lines cannot be read. -/
theorem readString_escape_eq_none (hline : '\n' ∈ s) (rest : List Char) :
    readString '\'' (Quoted.escape s ++ rest) = none := by
  induction s with
  | nil => exact absurd hline List.not_mem_nil
  | cons c s ih =>
    unfold Quoted.escape
    split
    · next hescaped =>
      have hc : '\n' ≠ c := by
        rintro rfl
        revert hescaped
        decide
      rw [List.cons_append, List.cons_append, readString.eq_def]
      dsimp only
      rw [if_neg (by decide), if_neg (by decide), if_pos rfl,
        ih ((List.mem_cons.1 hline).resolve_left hc), Option.map_none]
    · next hplain =>
      simp only [Bool.or_eq_true, decide_eq_true_eq, not_or] at hplain
      rw [List.cons_append, readString.eq_def]
      dsimp only
      rw [if_neg hplain.2]
      split
      · rfl
      · next hc =>
        rw [if_neg hplain.1, ih ((List.mem_cons.1 hline).resolve_left (Ne.symm hc)),
          Option.map_none]

theorem readLexeme_punct (q : Punct) (hrest : isAlone q = true ∨ Separated rest) :
    ∃ c cs, q.text.toList = c :: cs ∧
      readLexeme c (cs ++ rest) = .ok (some (.punct q), (c :: cs).length) := by
  rcases hrest with halone | hspace
  · cases q <;> first | exact ⟨_, _, rfl, rfl⟩ | cases halone
  · cases rest with
    | nil => cases q <;> exact ⟨_, _, rfl, rfl⟩
    | cons d rest =>
      obtain rfl := hspace d (Option.mem_def.2 rfl)
      cases q <;> exact ⟨_, _, rfl, rfl⟩

/-- A digit at the front of a text starts a number. -/
theorem readLexeme_digit (hc : c.isDigit = true) :
    readLexeme c cs = (readNumber (c :: cs)).map fun p => (some p.1, p.2) := by
  have hin := inName_of_isDigit hc
  have hhash : c ≠ '#' := by
    rintro rfl
    revert hin
    decide
  unfold readLexeme
  rw [if_neg (by rw [isBlank_eq_false hin]; exact Bool.false_ne_true), if_neg hhash,
    if_pos (by rw [hc, Bool.true_or])]
  cases readNumber (c :: cs) <;> rfl

/-- A quote at the front of a text starts a quoted one. -/
theorem readLexeme_quote (cs : List Char) :
    readLexeme '\'' cs = match readString '\'' cs with
      | some (s, n) => .ok (some (.str (String.ofList s)), n + 1)
      | none => .error .unterminatedString := by
  unfold readLexeme
  rw [if_neg (by decide), if_neg (by decide), if_neg (by simp), if_neg (by decide)]
  exact if_pos (by decide)

/-- The digits of a number, the first of them apart. -/
theorem exists_toDigits_eq_cons (n : Nat) :
    ∃ c cs, Nat.toDigits 10 n = c :: cs ∧ c.isDigit = true := by
  obtain ⟨c, cs, hdigits⟩ := List.exists_cons_of_ne_nil (Nat.toDigits_ne_nil (n := n) (b := 10))
  exact ⟨c, cs, hdigits, Nat.isDigit_of_mem_toDigits (b := 10) (n := n) (by decide) (by decide)
    (by rw [hdigits]; exact List.mem_cons_self)⟩

/-- At its front a text has the lexeme that was written there. -/
theorem readLexeme_text (h : l.Writable) (hrest : Parts rest l) :
    ∃ c cs, l.text.toList = c :: cs ∧
      readLexeme c (cs ++ rest) = .ok (some l, (c :: cs).length) := by
  cases l with
  | int n =>
    obtain ⟨c, cs, hdigits, hc⟩ := exists_toDigits_eq_cons n
    have hread := readNumber_toDigits n hrest
    rw [if_pos (show Word.fits n = true from h), hdigits, List.cons_append] at hread
    refine ⟨c, cs, Nat.toList_repr.trans hdigits, ?_⟩
    rw [readLexeme_digit hc, hread]
    rfl
  | float x => exact h.elim
  | str s =>
    refine ⟨'\'', Quoted.escape s.toList ++ ['\''], String.toList_ofList, ?_⟩
    have hread := readString_escape h rest
    rw [List.append_assoc, List.cons_append, List.nil_append, readLexeme_quote, hread]
    simp
  | name s =>
    obtain ⟨c, cs, hs, hc, hcs⟩ := h
    refine ⟨c, cs, hs, ?_⟩
    rw [readLexeme_name hc hcs hrest, ← hs, String.ofList_toList]
  | punct q => exact readLexeme_punct q hrest

/-! ### All lexemes -/

/-- The characters of a lexeme that was read are passed over. -/
theorem scan_skip (cs rest : List Char) (offset : Nat) :
    ∃ offset', scan cs.length offset (cs ++ rest) = scan 0 offset' rest := by
  induction cs generalizing offset with
  | nil => exact ⟨offset, rfl⟩
  | cons c cs ih => exact ih (offset + c.utf8Size)

theorem scan_space (rest : List Char) (offset : Nat) :
    scan 0 offset (' ' :: rest) = scan 0 (offset + 1) rest := rfl

theorem scan_text (h : l.Writable) (hrest : Parts rest l) (offset : Nat) :
    ∃ offset' start stop, scan 0 offset (l.text.toList ++ rest)
      = (scan 0 offset' rest).map fun ts => ⟨l, start, stop⟩ :: ts := by
  obtain ⟨c, cs, htext, hread⟩ := readLexeme_text h hrest
  obtain ⟨offset', hskip⟩ := scan_skip cs rest (offset + c.utf8Size)
  refine ⟨offset', offset, offset + byteCount ((c :: (cs ++ rest)).take (c :: cs).length), ?_⟩
  rw [htext, List.cons_append, scan, hread]
  dsimp only
  rw [List.length_cons, Nat.add_sub_cancel, hskip]
  rcases scan 0 offset' rest with _ | _ <;> rfl

/-- A text that was written with spaces between its lexemes is read as these lexemes. -/
theorem scan_spaced (ls : List Lexeme) (h : ∀ l ∈ ls, l.Writable) (offset : Nat) :
    ∃ ts, scan 0 offset (Lexeme.spaced ls).toList = .ok ts ∧ ts.map lexeme = ls := by
  induction ls generalizing offset with
  | nil => exact ⟨[], rfl, rfl⟩
  | cons l rest ih =>
    obtain ⟨hl, hrest⟩ := List.forall_mem_cons.1 h
    cases rest with
    | nil =>
      obtain ⟨offset', start, stop, hscan⟩ := scan_text hl ((show Separated [] from nofun).parts l) offset
      have htext : (Lexeme.spaced [l]).toList = l.text.toList ++ [] := by
        simp [Lexeme.spaced]
      rw [htext, hscan]
      exact ⟨_, rfl, rfl⟩
    | cons l' rest =>
      have htext : (Lexeme.spaced (l :: l' :: rest)).toList
          = l.text.toList ++ ' ' :: (Lexeme.spaced (l' :: rest)).toList := by
        unfold Lexeme.spaced
        rw [List.map_cons, List.map_cons, String.intercalate_cons_cons, String.toList_append,
          String.toList_append, List.append_assoc]
        rfl
      have hspace : Separated (' ' :: (Lexeme.spaced (l' :: rest)).toList) :=
        fun c hc => (Option.mem_some.1 hc).symm
      obtain ⟨offset', start, stop, hscan⟩ := scan_text hl (hspace.parts l) offset
      obtain ⟨ts, hts, hlexemes⟩ := ih hrest (offset' + 1)
      rw [htext, hscan, scan_space, hts]
      exact ⟨_, rfl, by rw [List.map_cons, hlexemes]⟩

end Token

/-! ### The lexemes of an expression -/

/-- Whether the characters of a text can be those of a name. -/
def isIdentifier : List Char → Bool
  | [] => false
  | c :: rest => Token.startsName c && rest.all Token.inName

theorem IsIdentifier.of_toList {s : String} (h : isIdentifier s.toList = true) : IsIdentifier s := by
  unfold isIdentifier at h
  split at h
  · exact nomatch h
  · next c rest hs =>
    obtain ⟨hc, hrest⟩ := Bool.and_eq_true_iff.1 h
    exact ⟨c, rest, hs, hc, List.all_eq_true.1 hrest⟩

theorem isIdentifier_word {s : String} (h : s ∈ ["None", "True", "False", "and", "or", "not", "if",
    "else", "in"]) : IsIdentifier s := by
  simp only [List.mem_cons, List.not_mem_nil, or_false] at h
  rcases h with rfl | rfl | rfl | rfl | rfl | rfl | rfl | rfl | rfl <;> exact .of_toList (by decide)

theorem Literal.Writable.lexeme {value : Literal} (h : value.Writable) : value.lexeme.Writable := by
  cases h with
  | none => exact isIdentifier_word (by decide)
  | bool b => cases b <;> exact isIdentifier_word (by decide)
  | int hnonneg hfits =>
    change Word.fits ((Int.toNat _ : Nat) : Int) = true
    rwa [Int.toNat_of_nonneg hnonneg]
  | str hline => exact hline

theorem CompareOp.writable_lexemes (op : CompareOp) : ∀ l ∈ op.lexemes, l.Writable := by
  intro l hl
  cases op <;> simp only [lexemes, List.mem_cons, List.not_mem_nil, or_false] at hl
  case isIn =>
    subst hl
    exact isIdentifier_word (by decide)
  case notIn => rcases hl with rfl | rfl <;> exact isIdentifier_word (by decide)
  all_goals
    subst hl
    trivial

namespace Expr

variable {e : Expr} {es : List Expr} {links : List (CompareOp × Expr)} {ls : List Lexeme} {n : Nat}

theorem writable_within (h : ∀ l ∈ ls, l.Writable) : ∀ l ∈ within n e ls, l.Writable := by
  unfold within
  split
  · simp only [List.forall_mem_cons, List.forall_mem_append]
    exact ⟨trivial, h, trivial, nofun⟩
  · exact h

theorem sequenceLexemes_cons_cons (e e' : Expr) (rest : List Expr) :
    sequenceLexemes (e :: e' :: rest)
      = e.lexemes ++ .punct .comma :: sequenceLexemes (e' :: rest) := by
  rw [sequenceLexemes]
  exact nofun

theorem writable_sequenceLexemes (h : ∀ e ∈ es, ∀ l ∈ e.lexemes, l.Writable) :
    ∀ l ∈ sequenceLexemes es, l.Writable := by
  induction es with
  | nil => exact nofun
  | cons e rest ih =>
    obtain ⟨he, hrest⟩ := List.forall_mem_cons.1 h
    cases rest with
    | nil => exact he
    | cons e' rest =>
      rw [sequenceLexemes_cons_cons]
      simp only [List.forall_mem_append, List.forall_mem_cons]
      exact ⟨he, trivial, ih hrest⟩

theorem writable_linkLexemes (h : ∀ link ∈ links, ∀ l ∈ link.2.lexemes, l.Writable) :
    ∀ l ∈ linkLexemes links, l.Writable := by
  induction links with
  | nil => exact nofun
  | cons link rest ih =>
    obtain ⟨hlink, hrest⟩ := List.forall_mem_cons.1 h
    rw [linkLexemes]
    simp only [List.forall_mem_append]
    exact ⟨link.1.writable_lexemes, writable_within hlink, ih hrest⟩

/-- What can be written is written in lexemes that can be read. -/
theorem Writable.lexemes (h : e.Writable) : ∀ l ∈ e.lexemes, l.Writable := by
  have hword (word : String) (hword : word ∈ ["None", "True", "False", "and", "or", "not", "if",
      "else", "in"]) : (Lexeme.name word).Writable := isIdentifier_word hword
  induction h with
  | literal h =>
    rw [Expr.lexemes]
    exact List.forall_mem_singleton.2 h.lexeme
  | name h =>
    rw [Expr.lexemes]
    exact List.forall_mem_singleton.2 h
  | attr _ h ih =>
    rw [Expr.lexemes]
    simp only [List.forall_mem_append, List.forall_mem_cons]
    exact ⟨writable_within ih, trivial, h, nofun⟩
  | item _ _ ihobject ihindex =>
    rw [Expr.lexemes]
    simp only [List.forall_mem_append, List.forall_mem_cons]
    exact ⟨writable_within ihobject, trivial, ihindex, trivial, nofun⟩
  | call _ _ ihfunction iharguments =>
    rw [Expr.lexemes]
    simp only [List.forall_mem_append, List.forall_mem_cons]
    exact ⟨writable_within ihfunction, trivial, writable_sequenceLexemes iharguments, trivial, nofun⟩
  | list _ ih =>
    rw [Expr.lexemes]
    simp only [List.forall_mem_append, List.forall_mem_cons]
    exact ⟨trivial, writable_sequenceLexemes ih, trivial, nofun⟩
  | @unary op _ _ ih =>
    rw [Expr.lexemes]
    refine List.forall_mem_cons.2 ⟨?_, writable_within ih⟩
    cases op
    · trivial
    · trivial
    · exact hword _ (by decide)
  | binary _ _ ihleft ihright =>
    rw [Expr.lexemes]
    simp only [List.forall_mem_append, List.forall_mem_cons]
    exact ⟨writable_within ihleft, trivial, writable_within ihright⟩
  | compare _ _ _ ihfirst ihlinks =>
    rw [Expr.lexemes]
    simp only [List.forall_mem_append]
    exact ⟨writable_within ihfirst, writable_linkLexemes ihlinks⟩
  | and _ _ ihleft ihright =>
    rw [Expr.lexemes]
    simp only [List.forall_mem_append, List.forall_mem_cons]
    exact ⟨writable_within ihleft, hword _ (by decide), writable_within ihright⟩
  | or _ _ ihleft ihright =>
    rw [Expr.lexemes]
    simp only [List.forall_mem_append, List.forall_mem_cons]
    exact ⟨writable_within ihleft, hword _ (by decide), writable_within ihright⟩
  | ite _ _ _ ihtest ihbody ihorelse =>
    rw [Expr.lexemes]
    simp only [List.forall_mem_append, List.forall_mem_cons]
    exact ⟨writable_within ihbody, hword _ (by decide), writable_within ihtest,
      hword _ (by decide), ihorelse⟩

end Expr

end ReactiveView
