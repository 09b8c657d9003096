import ReactiveView.Proofs.Expr.Extents

/-!
This module contains that scanning a source byte by byte comes to the tokens of the source, never takes
a text out of it that begins or ends inside a character, and leaves out nothing but blanks and
comments.

A byte-wise scanner looks at single bytes, also where the source has characters of several bytes. It
finds what a scanner of characters finds because no byte of such a character is one of ASCII.
-/

namespace ReactiveView

open String (utf8EncodeChar)

namespace Token

variable {c quote : Char} {cs rest more pre text : List Char} {p : UInt8 → Bool} {q : Char → Bool}
  {l : Lexeme} {r : Option Lexeme} {n pos offset i : Nat} {bytes : List UInt8} {ts : List Token}

/-! ### Bytes -/

/-- The bytes of a text. -/
def encode (cs : List Char) : List UInt8 := cs.flatMap utf8EncodeChar

theorem encode_cons (c : Char) (cs : List Char) : encode (c :: cs) = utf8EncodeChar c ++ encode cs :=
  rfl

theorem encode_append (cs cs' : List Char) : encode (cs ++ cs') = encode cs ++ encode cs' :=
  List.flatMap_append

theorem length_encode (cs : List Char) : (encode cs).length = byteCount cs := by
  induction cs with
  | nil => rfl
  | cons c cs ih =>
    rw [encode_cons, List.length_append, String.length_utf8EncodeChar, ih, byteCount_cons]

theorem encode_toList (source : String) : encode source.toList = source.toByteArray.data.toList := by
  rw [← String.utf8Encode_toList]
  exact List.toList_data_toByteArray.symm

theorem utf8ByteSize_eq_byteCount (source : String) :
    source.utf8ByteSize = byteCount source.toList := by
  rw [← length_encode, encode_toList]
  rfl

/-- A byte of ASCII of which `q` holds. -/
def holds (q : Char → Bool) (b : UInt8) : Bool := b < 128 && q (Char.ofUInt8 b)

/-- Each byte of a character looks like the character. -/
def Mirrors (p : UInt8 → Bool) (q : Char → Bool) : Prop := ∀ c, ∀ b ∈ utf8EncodeChar c, p b = q c

theorem exists_utf8EncodeChar (c : Char) : ∃ b bs, utf8EncodeChar c = b :: bs := by
  apply List.exists_cons_of_length_pos
  rw [String.length_utf8EncodeChar]
  exact c.utf8Size_pos

theorem utf8EncodeChar_ascii (hc : c.utf8Size = 1) : utf8EncodeChar c = [c.toUInt8] :=
  String.utf8EncodeChar_eq_singleton hc

/-- No byte of a character of several bytes is one of ASCII. -/
theorem le_of_mem_utf8EncodeChar (hc : c.utf8Size ≠ 1) : ∀ b ∈ utf8EncodeChar c, 128 ≤ b := by
  have hor (x y : UInt8) (hy : 128 ≤ y) : 128 ≤ x ||| y := by
    rw [UInt8.le_iff_toNat_le] at hy ⊢
    rw [UInt8.toNat_or]
    exact Nat.le_trans hy Nat.right_le_or
  rcases c.utf8Size_eq with h | h | h | h
  · exact absurd h hc
  · rw [String.utf8EncodeChar_eq_cons_cons h]
    simp only [List.forall_mem_cons]
    exact ⟨hor _ _ (by decide), hor _ _ (by decide), nofun⟩
  · rw [String.utf8EncodeChar_eq_cons_cons_cons h]
    simp only [List.forall_mem_cons]
    exact ⟨hor _ _ (by decide), hor _ _ (by decide), hor _ _ (by decide), nofun⟩
  · rw [String.utf8EncodeChar_eq_cons_cons_cons_cons h]
    simp only [List.forall_mem_cons]
    exact ⟨hor _ _ (by decide), hor _ _ (by decide), hor _ _ (by decide), hor _ _ (by decide), nofun⟩

theorem toUInt8_of_ascii (hc : c.utf8Size = 1) : c.toUInt8 < 128 ∧ Char.ofUInt8 c.toUInt8 = c := by
  rw [Char.utf8Size_eq_one_iff, UInt32.le_iff_toNat_le] at hc
  have hnat : c.toUInt8.toNat = c.val.toNat := by
    rw [← Char.toUInt8_val, UInt32.toNat_toUInt8]
    exact Nat.mod_eq_of_lt (Nat.lt_of_le_of_lt hc (by decide))
  constructor
  · rw [UInt8.lt_iff_toNat_lt, hnat]
    exact Nat.lt_succ_of_le hc
  · apply Char.ext
    rw [← UInt32.toNat_inj]
    exact (UInt8.toNat_toUInt32 _).trans hnat

/-- What holds of ASCII only. -/
theorem mirrors_holds (hq : ∀ c, q c = true → c.utf8Size = 1) : Mirrors (holds q) q := by
  intro c b hb
  unfold holds
  by_cases hc : c.utf8Size = 1
  · rw [utf8EncodeChar_ascii hc, List.mem_singleton] at hb
    obtain ⟨hlt, heq⟩ := toUInt8_of_ascii hc
    rw [hb, heq, decide_eq_true hlt, Bool.true_and]
  · have hle := le_of_mem_utf8EncodeChar hc b hb
    rw [decide_eq_false (UInt8.not_lt.2 hle), Bool.false_and]
    exact (Bool.eq_false_iff.2 fun h => hc (hq c h)).symm

theorem Mirrors.not (h : Mirrors p q) : Mirrors (fun b => !p b) fun c => !q c :=
  fun c b hb => congrArg (! ·) (h c b hb)

theorem mirrors_char (d : Char) (hd : d.utf8Size = 1) : Mirrors (holds (· == d)) (· == d) := by
  apply mirrors_holds
  intro c hc
  rw [beq_iff_eq.1 hc]
  exact hd

/-! ### Scanning bytes -/

/-- The text behind the first `n` bytes, none where these end inside a character or there are fewer. -/
def dropBytes? : Nat → List Char → Option (List Char)
  | 0, cs => some cs
  | _ + 1, [] => none
  | n + 1, c :: cs => if c.utf8Size ≤ n + 1 then dropBytes? (n + 1 - c.utf8Size) cs else none

/-- The text of the first `n` bytes, none where these end inside a character or there are fewer. -/
def takeBytes? : Nat → List Char → Option (List Char)
  | 0, _ => some []
  | _ + 1, [] => none
  | n + 1, c :: cs =>
    if c.utf8Size ≤ n + 1 then (takeBytes? (n + 1 - c.utf8Size) cs).map (c :: ·) else none

/-- The text of the bytes from `start` to `stop`, none where one of them is no border of characters. -/
def slice? (cs : List Char) (start stop : Nat) : Option (List Char) :=
  if start ≤ stop then (dropBytes? start cs).bind (takeBytes? (stop - start)) else none

/-- Whether there is a byte and it is one of ASCII of which `q` holds. -/
def sees (bytes : List UInt8) (pos : Nat) (q : Char → Bool) : Bool :=
  (bytes[pos]?.map (holds q)).getD false

/-- Where a run of bytes ends. -/
def runEnd (bytes : List UInt8) (p : UInt8 → Bool) (pos : Nat) : Nat :=
  pos + ((bytes.drop pos).takeWhile p).length

/-- Where the digits of a number end, those behind its point included. -/
def digitsEnd (bytes : List UInt8) (pos : Nat) : Nat :=
  let pos := runEnd bytes (holds Char.isDigit) pos
  if sees bytes pos (· == '.') then runEnd bytes (holds Char.isDigit) (pos + 1) else pos

/-- Where an optional sign ends. -/
def signEnd (bytes : List UInt8) (pos : Nat) : Nat :=
  if sees bytes pos fun c => c == '-' || c == '+' then pos + 1 else pos

/-- Where an optional exponent ends. Without digits there is none. -/
def exponentEnd (bytes : List UInt8) (pos : Nat) : Nat :=
  if (sees bytes pos fun c => c == 'e' || c == 'E') &&
      sees bytes (signEnd bytes (pos + 1)) Char.isDigit then
    runEnd bytes (holds Char.isDigit) (signEnd bytes (pos + 1))
  else pos

/-- Where the number that starts at a byte ends. -/
def numberEnd (bytes : List UInt8) (pos : Nat) : Nat := exponentEnd bytes (digitsEnd bytes pos)

/-- The rest of a quoted text that goes on at byte `pos`: what it stands for, and where it ends. -/
def readQuoted (quote : Char) : Nat → List Char → Option (List Char × Nat)
  | _, [] => none
  | pos, c :: rest =>
    if c = quote then some ([], pos + c.utf8Size)
    else if c = '\n' then none
    else if c = '\\' then
      match rest with
      | [] => none
      | e :: rest =>
        (readQuoted quote (pos + c.utf8Size + e.utf8Size) rest).map fun (s, stop) =>
          (unescape e ++ s, stop)
    else (readQuoted quote (pos + c.utf8Size) rest).map fun (s, stop) => (c :: s, stop)

/-- The lexeme that starts at a byte, and where it ends; none where a text cannot be taken. -/
def lexemeAt? (cs : List Char) (bytes : List UInt8) (pos : Nat) :
    Option (Except SyntaxFault (Lexeme × Nat)) :=
  if sees bytes pos Char.isDigit || (sees bytes pos (· == '.') && sees bytes (pos + 1) Char.isDigit) then
    (slice? cs pos (numberEnd bytes pos)).map fun text =>
      (readNumber text).map fun (l, _) => (l, numberEnd bytes pos)
  else if sees bytes pos startsName then
    (slice? cs pos (runEnd bytes (holds inName) pos)).map fun text =>
      .ok (.name (String.ofList text), runEnd bytes (holds inName) pos)
  else
    (dropBytes? pos cs).map fun text =>
      if sees bytes pos fun c => c == '\'' || c == '"' then
        match text with
        | [] => .error .unterminatedString
        | quote :: rest =>
          match readQuoted quote (pos + quote.utf8Size) rest with
          | some (s, stop) => .ok (.str (String.ofList s), stop)
          | none => .error .unterminatedString
      else
        match Punct.scan? text with
        | some (q, _) => .ok (.punct q, pos + q.text.utf8ByteSize)
        | none => .error (.unexpectedCharacter (text.head?.getD '?'))

/-- The tokens from a byte on, found in at most as many rounds as given; none where these are too few
or a text cannot be taken. -/
def tokensFrom? (cs : List Char) (bytes : List UInt8) :
    Nat → Nat → Option (Except SyntaxError (List Token))
  | 0, _ => none
  | rounds + 1, pos =>
    if pos < bytes.length then
      if sees bytes pos isBlank then tokensFrom? cs bytes rounds (pos + 1)
      else if sees bytes pos (· == '#') then
        tokensFrom? cs bytes rounds (runEnd bytes (fun b => !holds (· == '\n') b) pos)
      else
        match lexemeAt? cs bytes pos with
        | none => none
        | some (.error fault) => some (.error ⟨fault, pos⟩)
        | some (.ok (l, stop)) =>
          (tokensFrom? cs bytes rounds stop).map fun found => found.map (⟨l, pos, stop⟩ :: ·)
    else some (.ok [])

/-- The tokens of a source by its bytes, in no more rounds than it has bytes and one. -/
def tokenize? (source : String) : Option (Except SyntaxError Tokens) :=
  let bytes := source.toByteArray.data.toList
  (tokensFrom? source.toList bytes (bytes.length + 1) 0).map fun found =>
    found.map fun ts => { list := ts, stop := bytes.length }

/-! ### Borders of characters -/

theorem exists_byteCount_cons (c : Char) (cs : List Char) :
    ∃ n, c.utf8Size + byteCount cs = n + 1 :=
  Nat.exists_eq_succ_of_ne_zero (Nat.ne_of_gt (Nat.add_pos_left c.utf8Size_pos _))

theorem dropBytes?_byteCount (pre rest : List Char) :
    dropBytes? (byteCount pre) (pre ++ rest) = some rest := by
  induction pre with
  | nil => cases rest <;> rfl
  | cons c pre ih =>
    obtain ⟨n, hn⟩ := exists_byteCount_cons c pre
    have hrest : n + 1 - c.utf8Size = byteCount pre := by omega
    rw [byteCount_cons, hn, List.cons_append, dropBytes?, if_pos (by omega), hrest, ih]

theorem takeBytes?_byteCount (text rest : List Char) :
    takeBytes? (byteCount text) (text ++ rest) = some text := by
  induction text with
  | nil => cases rest <;> rfl
  | cons c text ih =>
    obtain ⟨n, hn⟩ := exists_byteCount_cons c text
    have hrest : n + 1 - c.utf8Size = byteCount text := by omega
    rw [byteCount_cons, hn, List.cons_append, takeBytes?, if_pos (by omega), hrest, ih,
      Option.map_some]

theorem slice?_byteCount (pre text rest : List Char) :
    slice? (pre ++ (text ++ rest)) (byteCount pre) (byteCount pre + byteCount text) = some text := by
  unfold slice?
  rw [if_pos (Nat.le_add_right ..), dropBytes?_byteCount, Option.bind_some, Nat.add_sub_cancel_left,
    takeBytes?_byteCount]

/-- From a byte on, bytes are those of a text. -/
def Goes (bytes : List UInt8) (pos : Nat) (cs : List Char) : Prop := bytes.drop pos = encode cs

theorem goes_byteCount (pre rest : List Char) : Goes (encode (pre ++ rest)) (byteCount pre) rest := by
  unfold Goes
  rw [encode_append, ← length_encode, List.drop_left]

theorem Goes.append (h : Goes bytes pos (text ++ rest)) : Goes bytes (pos + byteCount text) rest := by
  unfold Goes at h ⊢
  rw [← List.drop_drop, h, encode_append, ← length_encode, List.drop_left]

theorem Goes.behind (h : Goes bytes pos (c :: rest)) : Goes bytes (pos + c.utf8Size) rest :=
  Goes.append (show Goes bytes pos ([c] ++ rest) from h)

theorem takeWhile_encode (h : Mirrors p q) (cs : List Char) :
    (encode cs).takeWhile p = encode (cs.takeWhile q) := by
  induction cs with
  | nil => rfl
  | cons c cs ih =>
    rw [encode_cons]
    cases hq : q c with
    | true =>
      rw [List.takeWhile_append_of_pos fun b hb => (h c b hb).trans hq, ih,
        List.takeWhile_cons_of_pos hq]
      rfl
    | false =>
      rw [List.takeWhile_cons_of_neg (by simp [hq])]
      obtain ⟨b, bs, hbytes⟩ := exists_utf8EncodeChar c
      have hb : p b = false := (h c b (by rw [hbytes]; exact List.mem_cons_self)).trans hq
      rw [hbytes, List.cons_append, List.takeWhile_cons_of_neg (by simp [hb])]
      rfl

theorem Goes.runEnd (h : Goes bytes pos cs) (hp : Mirrors p q) :
    Token.runEnd bytes p pos = pos + byteCount (cs.takeWhile q) := by
  unfold Token.runEnd
  rw [h, takeWhile_encode hp, length_encode]

theorem Goes.sees (h : Goes bytes pos cs) (hq : ∀ c, q c = true → c.utf8Size = 1) :
    Token.sees bytes pos q = (cs.head?.map q).getD false := by
  have hbyte : bytes[pos]? = (encode cs).head? := by
    rw [← h, List.head?_drop]
  unfold Token.sees
  rw [hbyte]
  cases cs with
  | nil => rfl
  | cons c cs =>
    obtain ⟨b, bs, hbytes⟩ := exists_utf8EncodeChar c
    rw [encode_cons, hbytes]
    exact mirrors_holds hq c b (by rw [hbytes]; exact List.mem_cons_self)

/-! ### One lexeme -/

theorem utf8Size_of_inName (h : inName c = true) : c.utf8Size = 1 := by
  rw [Char.utf8Size_eq_one_iff]
  rcases Bool.or_eq_true_iff.1 h with hline | halphanum
  · rw [of_decide_eq_true hline]
    decide
  · rcases Bool.or_eq_true_iff.1 halphanum with halpha | hdigit
    · rcases Bool.or_eq_true_iff.1 halpha with hupper | hlower
      · exact UInt32.le_trans (of_decide_eq_true hupper).2 (by decide)
      · exact UInt32.le_trans (of_decide_eq_true (Bool.and_eq_true_iff.1 hlower).2) (by decide)
    · exact UInt32.le_trans (of_decide_eq_true (Bool.and_eq_true_iff.1 hdigit).2) (by decide)

theorem utf8Size_of_isBlank (h : isBlank c = true) : c.utf8Size = 1 := by
  simp only [isBlank, Bool.or_eq_true, decide_eq_true_eq] at h
  rcases h with (((rfl | rfl) | rfl) | rfl) | rfl <;> rfl

theorem Goes.sees_cons (h : Goes bytes pos (c :: cs)) (hq : ∀ c, q c = true → c.utf8Size = 1) :
    Token.sees bytes pos q = q c := h.sees hq

theorem Goes.sees_char (h : Goes bytes pos cs) {d : Char} (hd : d.utf8Size = 1) :
    Token.sees bytes pos (· == d) = true ↔ cs.head? = some d := by
  rw [h.sees fun c hc => by rw [beq_iff_eq.1 hc]; exact hd]
  cases cs <;> simp

variable {whole tail expo sign digits : List Char} {letter : Char}

/-- A run of digits and where it ends. -/
theorem Goes.digits_runEnd (h : Goes bytes pos (digits ++ rest))
    (hdigits : ∀ c ∈ digits, c.isDigit = true) (hrest : ∀ c ∈ rest.head?, c.isDigit = false) :
    Token.runEnd bytes (holds Char.isDigit) pos = pos + byteCount digits := by
  rw [h.runEnd (mirrors_holds fun _ => utf8Size_of_isDigit), takeWhile_of_stop hdigits hrest]

theorem Goes.digitsEnd (h : Goes bytes pos (whole ++ (tail ++ rest)))
    (hwhole : ∀ c ∈ whole, c.isDigit = true) (htail : IsFraction tail) (hrest : EndsDigits tail rest) :
    Token.digitsEnd bytes pos = pos + byteCount (whole ++ tail) := by
  have hpoint := h.append.sees_char (d := '.') rfl
  unfold Token.digitsEnd
  dsimp only
  rcases htail with rfl | ⟨places, rfl, hplaces⟩
  · rw [h.digits_runEnd hwhole hrest.digit, if_neg, List.append_nil]
    rw [hpoint]
    exact fun hdot => hrest.point rfl _ hdot rfl
  · have hend := h.digits_runEnd hwhole (by rintro c ⟨⟩; rfl)
    rw [hend, if_pos (hpoint.2 rfl)]
    have hplaces := h.append.behind.digits_runEnd hplaces hrest.digit
    have hdot : '.'.utf8Size = 1 := rfl
    rw [byteCount_append, byteCount_cons, hdot, ← Nat.add_assoc, ← Nat.add_assoc]
    exact hplaces

theorem Goes.signEnd (h : Goes bytes pos cs) :
    ∃ sign, cs = sign ++ (Decimal.spanSign cs).2 ∧ Token.signEnd bytes pos = pos + byteCount sign := by
  have hsees := h.sees (q := fun c => c == '-' || c == '+') fun c hc => by
    simp only [Bool.or_eq_true, beq_iff_eq] at hc
    rcases hc with rfl | rfl <;> rfl
  unfold Token.signEnd Decimal.spanSign
  rw [hsees]
  split
  · exact ⟨['-'], rfl, rfl⟩
  · exact ⟨['+'], rfl, rfl⟩
  · refine ⟨[], rfl, ?_⟩
    cases cs with
    | nil => rfl
    | cons d cs =>
      refine if_neg ?_
      simp_all

theorem Goes.sees_letter (h : Goes bytes pos (letter :: rest)) :
    (Token.sees bytes pos fun c => c == 'e' || c == 'E') = true ↔ letter = 'e' ∨ letter = 'E' := by
  rw [h.sees fun c hc => by
    simp only [Bool.or_eq_true, beq_iff_eq] at hc
    rcases hc with rfl | rfl <;> rfl]
  simp

theorem Goes.sees_digit (h : Goes bytes pos cs) :
    Token.sees bytes pos Char.isDigit = true ↔ ∃ d ∈ cs.head?, d.isDigit = true := by
  rw [h.sees fun _ => utf8Size_of_isDigit]
  cases cs <;> simp

theorem Goes.exponentEnd_of_none (h : Goes bytes pos cs) (hnone : readExponent cs = none) :
    Token.exponentEnd bytes pos = pos := by
  unfold Token.exponentEnd
  refine if_neg fun hsees => ?_
  obtain ⟨hletter, hdigit⟩ := Bool.and_eq_true_iff.1 hsees
  cases cs with
  | nil =>
    rw [h.sees fun c hc => by
      simp only [Bool.or_eq_true, beq_iff_eq] at hc
      rcases hc with rfl | rfl <;> rfl] at hletter
    cases hletter
  | cons letter after =>
    have hletter := h.sees_letter.1 hletter
    have hafter : Goes bytes (pos + 1) after := by
      have hsize : byteCount [letter] = 1 := by rcases hletter with rfl | rfl <;> rfl
      rw [← hsize]
      exact h.behind
    obtain ⟨sign, hsplit, hsign⟩ := hafter.signEnd
    rw [hsplit] at hafter
    rw [hsign, hafter.append.sees_digit] at hdigit
    obtain ⟨d, hd, hdigit⟩ := hdigit
    unfold readExponent at hnone
    dsimp only at hnone
    rw [if_pos (by simpa using hletter)] at hnone
    split at hnone
    · next hempty =>
      obtain ⟨ds, hds⟩ := List.head?_eq_some_iff.1 (Option.mem_def.1 hd)
      rw [hds, List.takeWhile_cons_of_pos hdigit] at hempty
      cases hempty
    · cases hnone

theorem Goes.exponentEnd_of_exponent (h : Goes bytes pos (expo ++ rest))
    (hexpo : IsExponent expo letter sign digits) (hrest : ∀ c ∈ rest.head?, c.isDigit = false) :
    Token.exponentEnd bytes pos = pos + byteCount expo := by
  obtain ⟨rfl, hletter, hsign, hdigit, hne⟩ := hexpo
  have hsize : letter.utf8Size = 1 := by rcases hletter with rfl | rfl <;> rfl
  have hafter : Goes bytes (pos + 1) (sign ++ (digits ++ rest)) := by
    rw [← hsize, ← List.append_assoc]
    exact h.behind
  obtain ⟨sign', hsplit, hend⟩ := hafter.signEnd
  rw [spanSign_append hsign hdigit hne] at hsplit
  obtain rfl := List.append_cancel_right hsplit
  have hdigits := hafter.append
  have hhead : ∃ d ∈ (digits ++ rest).head?, d.isDigit = true := by
    obtain ⟨d, ds, rfl⟩ := List.exists_cons_of_ne_nil hne
    exact ⟨d, rfl, hdigit d List.mem_cons_self⟩
  unfold Token.exponentEnd
  rw [hend, if_pos (Bool.and_eq_true_iff.2 ⟨h.sees_letter.2 hletter, hdigits.sees_digit.2 hhead⟩),
    hdigits.digits_runEnd hdigit hrest, byteCount_cons, hsize, byteCount_append]
  omega

theorem Splits.numberEnd (h : Splits cs whole tail expo rest) (hgoes : Goes bytes pos cs) :
    Token.numberEnd bytes pos = pos + byteCount (whole ++ (tail ++ expo)) := by
  have hcount : byteCount (whole ++ (tail ++ expo)) = byteCount (whole ++ tail) + byteCount expo := by
    rw [← List.append_assoc, byteCount_append]
  rw [h.eq] at hgoes
  unfold Token.numberEnd
  rw [hgoes.digitsEnd h.digit h.fraction h.ends, hcount]
  rw [← List.append_assoc] at hgoes
  rcases h.exponent with ⟨rfl, hnone⟩ | ⟨⟨letter, sign, digits, hexpo⟩, hend⟩
  · exact hgoes.append.exponentEnd_of_none hnone
  · rw [hgoes.append.exponentEnd_of_exponent hexpo hend, Nat.add_assoc]

theorem readQuoted_eq (quote : Char) (pos : Nat) (cs : List Char) :
    readQuoted quote pos cs = (readString quote cs).map fun (s, n) =>
      (s, pos + byteCount (cs.take n)) := by
  fun_induction readString quote cs generalizing pos with
  | case1 => rfl
  | case2 rest =>
    rw [readQuoted.eq_def]
    exact if_pos rfl
  | case3 rest hquote =>
    rw [readQuoted.eq_def]
    dsimp only
    rw [if_neg hquote, if_pos rfl]
    rfl
  | case4 hquote hline =>
    rw [readQuoted.eq_def]
    dsimp only
    rw [if_neg hquote, if_neg hline, if_pos rfl]
    rfl
  | case5 e rest hquote hline ih =>
    rw [readQuoted.eq_def]
    dsimp only
    rw [if_neg hquote, if_neg hline, if_pos rfl, ih]
    cases readString quote rest with
    | none => rfl
    | some found => simp [byteCount_cons, Nat.add_assoc]
  | case6 c rest hquote hline hescape ih =>
    rw [readQuoted.eq_def]
    dsimp only
    rw [if_neg hquote, if_neg hline, if_neg hescape, ih]
    cases readString quote rest with
    | none => rfl
    | some found => simp [byteCount_cons, Nat.add_assoc]

/-- What a scanner of bytes makes of a lexeme. -/
def placed (pos : Nat) (text : List Char) :
    Except SyntaxFault (Option Lexeme × Nat) → Option (Except SyntaxFault (Lexeme × Nat))
  | .error fault => some (.error fault)
  | .ok (none, _) => none
  | .ok (some l, n) => some (.ok (l, pos + byteCount (text.take n)))

theorem Goes.sees_number (h : Goes bytes pos (c :: rest)) :
    (Token.sees bytes pos Char.isDigit ||
        (Token.sees bytes pos (· == '.') && Token.sees bytes (pos + 1) Char.isDigit))
      = (c.isDigit || (c = '.' && (rest.head?.map Char.isDigit).getD false)) := by
  rw [h.sees fun _ => utf8Size_of_isDigit]
  cases hdot : decide (c = '.') with
  | true =>
    obtain rfl := of_decide_eq_true hdot
    have hrest : Goes bytes (pos + 1) rest := h.behind
    rw [(h.sees_char rfl).2 rfl, hrest.sees fun _ => utf8Size_of_isDigit]
    rfl
  | false =>
    have hc : Token.sees bytes pos (· == '.') = false := by
      rw [← Bool.not_eq_true, h.sees_char rfl]
      simpa using hdot
    rw [hc]
    rfl

/-- The number that the bytes delimit is the one that the characters do. -/
theorem Goes.readNumber (pre : List Char) (h : Goes bytes (byteCount pre) cs) :
    (slice? (pre ++ cs) (byteCount pre) (numberEnd bytes (byteCount pre))).map (fun text =>
        (Token.readNumber text).map fun (l, _) => (l, numberEnd bytes (byteCount pre)))
      = some ((Token.readNumber cs).map fun (l, n) => (l, byteCount pre + byteCount (cs.take n))) := by
  obtain ⟨whole, tail, expo, more, hsplits⟩ := exists_splits cs
  have heq : whole ++ (tail ++ expo) ++ more = cs := by
    rw [hsplits.eq, List.append_assoc, List.append_assoc]
  have hslice := slice?_byteCount pre (whole ++ (tail ++ expo)) more
  rw [heq] at hslice
  rw [hsplits.numberEnd h, hslice, Option.map_some, hsplits.readNumber_text]
  cases hread : Token.readNumber cs with
  | error fault => rfl
  | ok found =>
    obtain ⟨l, n⟩ := found
    have htake : cs.take n = whole ++ (tail ++ expo) := by
      rw [hsplits.length_eq hread, ← heq, List.take_left]
    change some (Except.ok (l, byteCount pre + byteCount _)) = some (Except.ok (l, _))
    rw [htake]

/-- A name ends where its run of letters and digits does. -/
theorem Goes.readName (pre : List Char) (h : Goes bytes (byteCount pre) (c :: rest))
    (hc : startsName c = true) :
    (slice? (pre ++ c :: rest) (byteCount pre) (Token.runEnd bytes (holds inName) (byteCount pre))).map
        (fun text => (.ok (.name (String.ofList text), Token.runEnd bytes (holds inName) (byteCount pre)) :
          Except SyntaxFault (Lexeme × Nat)))
      = some (.ok (.name (String.ofList (c :: rest.takeWhile inName)),
          byteCount pre + byteCount ((c :: rest).take (c :: rest.takeWhile inName).length))) := by
  have hslice := slice?_byteCount pre (c :: rest.takeWhile inName) (rest.dropWhile inName)
  have hprefix : c :: rest.takeWhile inName <+: c :: rest :=
    List.cons_prefix_cons.2 ⟨rfl, List.takeWhile_prefix _⟩
  rw [List.cons_append, List.takeWhile_append_dropWhile] at hslice
  rw [h.runEnd (mirrors_holds fun _ => utf8Size_of_inName),
    List.takeWhile_cons_of_pos (inName_of_startsName hc), hslice, Option.map_some,
    ← List.prefix_iff_eq_take.1 hprefix]

theorem lexemeAt?_eq (pre : List Char) (hblank : isBlank c = false) (hhash : c ≠ '#') :
    lexemeAt? (pre ++ c :: rest) (encode (pre ++ c :: rest)) (byteCount pre)
      = placed (byteCount pre) (c :: rest) (readLexeme c rest) := by
  have hgoes := goes_byteCount pre (c :: rest)
  generalize encode (pre ++ c :: rest) = bytes at hgoes
  have hname : sees bytes (byteCount pre) startsName = startsName c :=
    hgoes.sees fun _ h => utf8Size_of_inName (inName_of_startsName h)
  have hquote : (sees bytes (byteCount pre) fun c => c == '\'' || c == '"')
      = (decide (c = '\'') || decide (c = '"')) := by
    rw [hgoes.sees fun c hc => by
      simp only [Bool.or_eq_true, beq_iff_eq] at hc
      rcases hc with rfl | rfl <;> rfl]
    simp [beq_eq_decide]
  unfold lexemeAt? readLexeme
  rw [hgoes.sees_number, hname, hquote, if_neg (Bool.eq_false_iff.1 hblank), if_neg hhash]
  by_cases hc : (c.isDigit || (c = '.' && (rest.head?.map Char.isDigit).getD false)) = true
  · rw [if_pos hc, if_pos hc, hgoes.readNumber pre]
    cases readNumber (c :: rest) <;> rfl
  rw [if_neg hc, if_neg hc]
  by_cases hc : startsName c = true
  · rw [if_pos hc, if_pos hc, hgoes.readName pre hc]
    rfl
  rw [if_neg hc, if_neg hc, dropBytes?_byteCount, Option.map_some]
  dsimp only
  by_cases hc : (decide (c = '\'') || decide (c = '"')) = true
  · rw [if_pos hc, if_pos hc, readQuoted_eq]
    cases readString c rest with
    | none => rfl
    | some found =>
      change some (Except.ok _) = some (Except.ok _)
      rw [List.take_succ_cons, byteCount_cons, Nat.add_assoc]
  · rw [if_neg hc, if_neg hc]
    cases hread : Punct.scan? (c :: rest) with
    | none => rfl
    | some found =>
      obtain ⟨q, n⟩ := found
      obtain ⟨more, heq, rfl⟩ := scan?_eq _ hread
      change some (Except.ok _) = some (Except.ok _)
      rw [heq, List.take_left, utf8ByteSize_eq_byteCount]

/-! ### All lexemes -/

/-- Only blanks and comments are skipped. -/
theorem solid_of_readLexeme (h : ∀ n, readLexeme c rest ≠ .ok (none, n)) :
    isBlank c = false ∧ c ≠ '#' := by
  unfold readLexeme at h
  constructor
  · rw [← Bool.not_eq_true]
    intro hblank
    exact h 1 (if_pos hblank)
  · rintro rfl
    exact h _ rfl

theorem lt_length_encode (pre rest : List Char) (c : Char) :
    byteCount pre < (encode (pre ++ c :: rest)).length := by
  have hc := c.utf8Size_pos
  rw [length_encode, byteCount_append, byteCount_cons]
  omega

theorem take_comment (rest : List Char) :
    ('#' :: rest).take (1 + (rest.takeWhile (· != '\n')).length)
      = '#' :: rest.takeWhile (· != '\n') := by
  have hprefix := List.prefix_iff_eq_take.1 (List.takeWhile_prefix (l := rest) (· != '\n'))
  rw [Nat.add_comm, List.take_succ_cons, ← hprefix]

/-- What is skipped is found by the looks of its bytes. -/
theorem tokensFrom?_gap (pre : List Char) (hread : readLexeme c rest = .ok (none, n)) (rounds : Nat) :
    tokensFrom? (pre ++ c :: rest) (encode (pre ++ c :: rest)) (rounds + 1) (byteCount pre)
      = tokensFrom? (pre ++ c :: rest) (encode (pre ++ c :: rest)) rounds
        (byteCount pre + byteCount ((c :: rest).take n)) := by
  have hgoes := goes_byteCount pre (c :: rest)
  rw [tokensFrom?, if_pos (lt_length_encode ..), hgoes.sees_cons fun _ => utf8Size_of_isBlank]
  rcases readLexeme_none hread with ⟨hblank, rfl⟩ | ⟨rfl, rfl⟩
  · rw [if_pos hblank, List.take_succ_cons, List.take_zero, byteCount_cons,
      utf8Size_of_isBlank hblank]
    rfl
  · rw [if_neg (by decide), if_pos ((hgoes.sees_char rfl).2 rfl),
      hgoes.runEnd (mirrors_char '\n' rfl).not, take_comment]
    rfl

theorem tokensFrom?_solid (pre : List Char) (h : isBlank c = false ∧ c ≠ '#') (rounds : Nat) :
    tokensFrom? (pre ++ c :: rest) (encode (pre ++ c :: rest)) (rounds + 1) (byteCount pre)
      = match placed (byteCount pre) (c :: rest) (readLexeme c rest) with
        | none => none
        | some (.error fault) => some (.error ⟨fault, byteCount pre⟩)
        | some (.ok (l, stop)) =>
          (tokensFrom? (pre ++ c :: rest) (encode (pre ++ c :: rest)) rounds stop).map fun found =>
            found.map (⟨l, byteCount pre, stop⟩ :: ·) := by
  have hgoes := goes_byteCount pre (c :: rest)
  have hhash : ¬ sees (encode (pre ++ c :: rest)) (byteCount pre) (· == '#') = true := by
    rw [hgoes.sees_char rfl]
    exact fun hc => h.2 (Option.some.inj hc)
  rw [tokensFrom?, if_pos (lt_length_encode ..), hgoes.sees_cons fun _ => utf8Size_of_isBlank, h.1,
    if_neg Bool.false_ne_true, if_neg hhash, lexemeAt?_eq pre h.1 h.2]

/-- Scanning bytes comes to what the lexemes of the text are, each found in a round of its own. -/
theorem Lexes.tokensFrom? {result : Except SyntaxError (List Token)} (h : Lexes offset cs result)
    (pre : List Char) (hoffset : offset = byteCount pre) {rounds : Nat} (hrounds : cs.length ≤ rounds) :
    Token.tokensFrom? (pre ++ cs) (encode (pre ++ cs)) (rounds + 1) offset = some result := by
  induction h generalizing pre rounds with
  | done =>
    rw [Token.tokensFrom?, if_neg]
    rw [length_encode, List.append_nil, hoffset]
    exact Nat.lt_irrefl _
  | refused hread =>
    rw [hoffset, tokensFrom?_solid pre (solid_of_readLexeme (by rw [hread]; exact nofun)), hread]
    rfl
  | @gap _ n c rest _ hread _ ih =>
    obtain ⟨rounds, rfl⟩ := Nat.exists_eq_add_of_lt hrounds
    have hih := ih (pre ++ (c :: rest).take n) (by rw [byteCount_append, hoffset])
      (Nat.le_trans (length_drop_le hread) (Nat.le_add_right _ rounds))
    rw [List.append_assoc, List.take_append_drop, hoffset] at hih
    rw [hoffset, tokensFrom?_gap pre hread]
    exact hih
  | @token _ n c rest l _ hread _ ih =>
    obtain ⟨rounds, rfl⟩ := Nat.exists_eq_add_of_lt hrounds
    have hih := ih (pre ++ (c :: rest).take n) (by rw [byteCount_append, hoffset])
      (Nat.le_trans (length_drop_le hread) (Nat.le_add_right _ rounds))
    rw [List.append_assoc, List.take_append_drop, hoffset] at hih
    rw [hoffset, tokensFrom?_solid pre (solid_of_readLexeme (by rw [hread]; exact nofun)), hread]
    dsimp only [placed]
    rw [hih, Option.map_some]

theorem tokenize?_eq (source : String) : tokenize? source = some (Tokens.ofSource source) := by
  have hscan := (lexes_scan 0 source.toList).tokensFrom? [] rfl (length_le_byteCount source.toList)
  unfold tokenize? Tokens.ofSource
  dsimp only
  rw [← encode_toList, length_encode, List.nil_append] at *
  rw [hscan, Option.map_some]
  cases scan 0 0 source.toList <;> rfl

/-! ### Tiling -/

/-- The bytes of a source. -/
def bytesOf (source : String) : List UInt8 := source.toByteArray.data.toList

/-- No token covers a byte. -/
def Uncovered (ts : List Token) (i : Nat) : Prop := ∀ t ∈ ts, i < t.start ∨ t.stop ≤ i

/-- A comment starts at a hash sign and runs to the end of its line. -/
structure IsComment (bytes : List UInt8) (start stop : Nat) : Prop where
  hash : bytes[start]? = some '#'.toUInt8
  line : ∀ i, start ≤ i → i < stop → bytes[i]? ≠ some '\n'.toUInt8
  stop : stop = bytes.length ∨ bytes[stop]? = some '\n'.toUInt8

/-- A byte is a blank, or it is in a comment that starts at an offset or behind and that no token
reaches into. -/
def Skipped (bytes : List UInt8) (ts : List Token) (offset i : Nat) : Prop :=
  (∃ b, bytes[i]? = some b ∧ holds isBlank b = true) ∨
    ∃ start stop, offset ≤ start ∧ start ≤ i ∧ i < stop ∧ IsComment bytes start stop ∧
      ∀ j, start ≤ j → j < stop → Uncovered ts j

/-- From an offset on, tokens are apart, in order and not empty, they begin and end between characters,
and what they leave out are blanks and comments. -/
structure Tiles (source : String) (offset : Nat) (ts : List Token) : Prop where
  covers : ∀ t ∈ ts, offset ≤ t.start ∧ t.start < t.stop ∧ t.stop ≤ source.utf8ByteSize
  borders : ∀ t ∈ ts, String.Pos.Raw.IsValid source ⟨t.start⟩ ∧ String.Pos.Raw.IsValid source ⟨t.stop⟩
  ordered : ts.Pairwise fun t u => t.stop ≤ u.start
  rest : ∀ i, offset ≤ i → i < source.utf8ByteSize → Uncovered ts i →
    Skipped (bytesOf source) ts offset i

variable {source : String} {k : Nat} {result : Except SyntaxError (List Token)}

theorem Tiles.nil (h : source.utf8ByteSize ≤ offset) : Tiles source offset [] where
  covers := nofun
  borders := nofun
  ordered := .nil
  rest _ hoffset hi _ := absurd (Nat.le_trans h hoffset) (Nat.not_le.2 hi)

theorem Tiles.uncovered (h : Tiles source offset ts) (hi : i < offset) : Uncovered ts i :=
  fun t ht => .inl (Nat.lt_of_lt_of_le hi (h.covers t ht).1)

theorem Tiles.gap (h : Tiles source (offset + k) ts)
    (hgap : (∀ i, offset ≤ i → i < offset + k →
        ∃ b, (bytesOf source)[i]? = some b ∧ holds isBlank b = true) ∨
      IsComment (bytesOf source) offset (offset + k)) : Tiles source offset ts where
  covers t ht := ⟨Nat.le_of_add_right_le (h.covers t ht).1, (h.covers t ht).2⟩
  borders := h.borders
  ordered := h.ordered
  rest i hoffset hi hfree := by
    rcases Nat.lt_or_ge i (offset + k) with hlt | hge
    · rcases hgap with hblank | hcomment
      · exact .inl (hblank i hoffset hlt)
      · exact .inr ⟨offset, offset + k, Nat.le_refl _, hoffset, hlt, hcomment,
          fun j _ hj => h.uncovered hj⟩
    · refine (h.rest i hge hi hfree).imp_right ?_
      rintro ⟨start, stop, hstart, hcomment⟩
      exact ⟨start, stop, Nat.le_of_add_right_le hstart, hcomment⟩

theorem Tiles.token (h : Tiles source (offset + k) ts) (hk : 0 < k)
    (hsize : offset + k ≤ source.utf8ByteSize) (hstart : String.Pos.Raw.IsValid source ⟨offset⟩)
    (hstop : String.Pos.Raw.IsValid source ⟨offset + k⟩) (l : Lexeme) :
    Tiles source offset (⟨l, offset, offset + k⟩ :: ts) where
  covers := List.forall_mem_cons.2 ⟨⟨Nat.le_refl _, Nat.lt_add_of_pos_right hk, hsize⟩,
    fun t ht => ⟨Nat.le_of_add_right_le (h.covers t ht).1, (h.covers t ht).2⟩⟩
  borders := List.forall_mem_cons.2 ⟨⟨hstart, hstop⟩, h.borders⟩
  ordered := .cons (fun t ht => (h.covers t ht).1) h.ordered
  rest i hoffset hi hfree := by
    obtain ⟨hhead, hrest⟩ := List.forall_mem_cons.1 hfree
    have hge : offset + k ≤ i := hhead.resolve_left (Nat.not_lt.2 hoffset)
    refine (h.rest i hge hi hrest).imp_right ?_
    rintro ⟨start, stop, hstart, hle, hlt, hcomment, hapart⟩
    refine ⟨start, stop, Nat.le_of_add_right_le hstart, hle, hlt, hcomment, fun j hj hj' => ?_⟩
    exact List.forall_mem_cons.2 ⟨.inr (Nat.le_trans hstart hj), hapart j hj hj'⟩

/-- What is right of the tokens of a source from an offset on, or of its refusal. -/
def Tiled (source : String) (offset : Nat) : Except SyntaxError (List Token) → Prop
  | .ok ts => Tiles source offset ts
  | .error e => String.Pos.Raw.IsValid source ⟨e.offset⟩ ∧ e.offset < source.utf8ByteSize

theorem isValid_byteCount (hsource : source.toList = pre ++ rest) :
    String.Pos.Raw.IsValid source ⟨byteCount pre⟩ := by
  rw [String.Pos.Raw.isValid_iff_exists_append]
  refine ⟨String.ofList pre, String.ofList rest, ?_, ?_⟩
  · rw [← String.ofList_append, ← hsource, String.ofList_toList]
  · have hsize := utf8ByteSize_eq_byteCount (String.ofList pre)
    rw [String.toList_ofList] at hsize
    rw [← hsize]
    rfl

/-- The bytes of a piece of text. -/
theorem Goes.exists_byte (h : Goes bytes offset (text ++ more)) (hle : offset ≤ i)
    (hlt : i < offset + byteCount text) : ∃ c ∈ text, ∃ b ∈ utf8EncodeChar c, bytes[i]? = some b := by
  have hindex : i - offset < (encode text).length := by
    rw [length_encode]
    omega
  have hbyte : bytes[i]? = (encode text)[i - offset]? := by
    rw [← List.getElem?_append_left hindex, ← encode_append, ← h, List.getElem?_drop,
      Nat.add_sub_cancel' hle]
  obtain ⟨c, hc, hb⟩ := List.mem_flatMap.1 (List.getElem_mem hindex)
  exact ⟨c, hc, _, hb, hbyte.trans (List.getElem?_eq_getElem hindex)⟩

theorem Goes.head? (h : Goes bytes pos (c :: rest)) (hc : c.utf8Size = 1) :
    bytes[pos]? = some c.toUInt8 := by
  rw [← List.head?_drop, h, encode_cons, utf8EncodeChar_ascii hc]
  rfl

/-- A comment and the bytes it has. -/
theorem Goes.isComment (h : Goes bytes offset ('#' :: rest)) :
    IsComment bytes offset (offset + byteCount ('#' :: rest.takeWhile (· != '\n'))) := by
  have hhash := h.head? rfl
  have hgoes : Goes bytes offset
      ('#' :: rest.takeWhile (· != '\n') ++ rest.dropWhile (· != '\n')) := by
    rw [List.cons_append, List.takeWhile_append_dropWhile]
    exact h
  refine ⟨hhash, fun i hle hlt hline => ?_, ?_⟩
  · obtain ⟨d, hd, b, hb, hbyte⟩ := hgoes.exists_byte hle hlt
    obtain rfl : b = '\n'.toUInt8 := Option.some.inj (hbyte.symm.trans hline)
    have hd' : (d == '\n') = true := (mirrors_char '\n' rfl d _ hb).symm
    rw [beq_iff_eq.1 hd'] at hd
    rcases List.mem_cons.1 hd with heq | hmem
    · exact absurd heq (by decide)
    · exact absurd (List.mem_takeWhile_imp hmem) (by decide)
  · have hhead := head?_dropWhile (· != '\n') rest
    cases hrest : rest.dropWhile (· != '\n') with
    | nil =>
      rw [hrest, List.append_nil] at hgoes
      obtain ⟨hlt, -⟩ := List.getElem?_eq_some_iff.1 hhash
      have hlength := congrArg List.length hgoes
      rw [List.length_drop, length_encode] at hlength
      left
      omega
    | cons d more =>
      rw [hrest] at hgoes hhead
      obtain rfl : d = '\n' := by simpa using hhead d rfl
      exact .inr (hgoes.append.head? rfl)

/-- What is skipped at one go is a blank or a comment. -/
theorem Goes.gap (h : Goes bytes offset (c :: rest)) (hread : readLexeme c rest = .ok (none, n)) :
    (∀ i, offset ≤ i → i < offset + byteCount ((c :: rest).take n) →
        ∃ b, bytes[i]? = some b ∧ holds isBlank b = true) ∨
      IsComment bytes offset (offset + byteCount ((c :: rest).take n)) := by
  rcases readLexeme_none hread with ⟨hblank, rfl⟩ | ⟨rfl, rfl⟩
  · refine .inl fun i hle hlt => ?_
    obtain ⟨d, hd, b, hb, hbyte⟩ := (show Goes bytes offset ([c] ++ rest) from h).exists_byte hle hlt
    obtain rfl := List.mem_singleton.1 hd
    exact ⟨b, hbyte, (mirrors_holds (fun _ => utf8Size_of_isBlank) _ b hb).trans hblank⟩
  · have hcomment := h.isComment
    rw [← take_comment] at hcomment
    exact .inr hcomment

theorem goes_bytesOf (hsource : source.toList = pre ++ rest) :
    Goes (bytesOf source) (byteCount pre) rest := by
  have hgoes := goes_byteCount pre rest
  rw [← hsource, encode_toList] at hgoes
  exact hgoes

theorem utf8ByteSize_of_split (hsource : source.toList = pre ++ rest) :
    source.utf8ByteSize = byteCount pre + byteCount rest := by
  rw [utf8ByteSize_eq_byteCount, hsource, byteCount_append]

/-- The lexemes of a text tile it, from its end to its front. -/
theorem Lexes.tiled (h : Lexes offset cs result) (pre : List Char)
    (hsource : source.toList = pre ++ cs) (hoffset : offset = byteCount pre) :
    Tiled source offset result := by
  induction h generalizing pre with
  | done =>
    rw [hoffset]
    exact Tiles.nil (Nat.le_of_eq (utf8ByteSize_of_split hsource))
  | @refused offset c rest fault hread =>
    have hsize := utf8ByteSize_of_split hsource
    have hpos := c.utf8Size_pos
    rw [byteCount_cons] at hsize
    subst hoffset
    exact ⟨isValid_byteCount hsource, by dsimp only; omega⟩
  | @gap offset n c rest result hread _ ih =>
    have hih := ih (pre ++ (c :: rest).take n)
      (by rw [List.append_assoc, List.take_append_drop, hsource]) (by rw [byteCount_append, hoffset])
    subst hoffset
    cases result with
    | error e => exact hih
    | ok ts => exact Tiles.gap hih ((goes_bytesOf hsource).gap hread)
  | @token offset n c rest l result hread _ ih =>
    have hsplit : source.toList = (pre ++ (c :: rest).take n) ++ (c :: rest).drop n := by
      rw [List.append_assoc, List.take_append_drop, hsource]
    have hih := ih (pre ++ (c :: rest).take n) hsplit (by rw [byteCount_append, hoffset])
    have hstop := isValid_byteCount hsplit
    have hsize := utf8ByteSize_of_split hsplit
    rw [byteCount_append] at hstop hsize
    have hpos : 0 < byteCount ((c :: rest).take n) := by
      obtain ⟨n, rfl⟩ := Nat.exists_eq_succ_of_ne_zero (Nat.ne_of_gt (readLexeme_length hread).1)
      exact Nat.add_pos_left c.utf8Size_pos _
    subst hoffset
    cases result with
    | error e => exact hih
    | ok ts => exact Tiles.token hih hpos (by omega) (isValid_byteCount hsource) hstop l

end Token

/-- The tokens of a source, or its refusal, and what is right of them. -/
def Tokens.Sound (source : String) : Except SyntaxError Tokens → Prop
  | .ok tokens => Token.Tiles source 0 tokens.list ∧ tokens.stop = source.utf8ByteSize
  | .error e => String.Pos.Raw.IsValid source ⟨e.offset⟩ ∧ e.offset < source.utf8ByteSize

/-- Scanning the bytes of a source ends with its tokens and never takes a text that begins or ends
inside a character. The tokens tile the source; or it is refused at one of its characters. -/
theorem Tokens.ofSource_sound (source : String) :
    Token.tokenize? source = some (Tokens.ofSource source) ∧
      Tokens.Sound source (Tokens.ofSource source) := by
  refine ⟨Token.tokenize?_eq source, ?_⟩
  have htiled : Token.Tiled source 0 (Token.scan 0 0 source.toList) :=
    (Token.lexes_scan 0 source.toList).tiled [] rfl rfl
  unfold Tokens.ofSource
  cases hscan : Token.scan 0 0 source.toList with
  | error e =>
    rw [hscan] at htiled
    exact htiled
  | ok ts =>
    rw [hscan] at htiled
    exact ⟨htiled, (Token.utf8ByteSize_eq_byteCount source).symm⟩

end ReactiveView
