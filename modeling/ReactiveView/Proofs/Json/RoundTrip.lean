import ReactiveView.Json.Reader
import ReactiveView.Json.Writer

/-!
This module contains that the reader of JSON inverts the writer, for values without numbers: first
that a string comes back from its escapes, then that a text has the tokens it was written in, and
last that these tokens are read as the value.
-/

namespace ReactiveView

namespace JsonToken

variable {c : Char} {cs acc : List Char}

/-! ### Strings -/

/-- The two last digits of the code of a control character are read back. -/
theorem hexValue?_hexChar (hc : c.toNat < 0x20) :
    hexValue? '0' '0' (Json.hexChar (c.toNat / 16)) (Json.hexChar (c.toNat % 16))
      = some c.toNat := by
  have hall : ∀ n < 0x20, hexValue? '0' '0' (Json.hexChar (n / 16)) (Json.hexChar (n % 16))
      = some n := by decide
  exact hall c.toNat hc

theorem addUnit_toNat (hc : c.toNat < 0x20) :
    Draft.addUnit { chars := some acc } c.toNat = { chars := some (c :: acc) } := by
  unfold Draft.addUnit
  rw [if_neg (by simp; omega), if_neg (by simp; omega), Char.ofNat_toNat]
  rfl

/-- What a character was written as is read as this character. -/
theorem lexString_escape (c : Char) (acc rest : List Char) :
    lexString { chars := some acc } (Json.escape c ++ rest)
      = lexString { chars := some (c :: acc) } rest := by
  unfold Json.escape
  split
  · next h =>
    rcases Bool.or_eq_true_iff.1 h with h | h <;>
      · obtain rfl := of_decide_eq_true h
        rfl
  split
  · next h => subst h; rfl
  split
  · next h => subst h; rfl
  split
  · next h => subst h; rfl
  split
  · next h => subst h; rfl
  split
  · next h => subst h; rfl
  split
  · next h =>
    simp only [List.cons_append, List.nil_append]
    rw [lexString, hexValue?_hexChar h]
    exact congrArg (lexString · rest) (addUnit_toNat h)
  · next h _ _ _ _ _ hlow =>
    simp only [Bool.or_eq_true, decide_eq_true_eq, not_or] at h
    rw [List.cons_append, List.nil_append, lexString.eq_def]
    split
    case h_1 => contradiction
    case h_2 hcons => exact absurd (List.cons.inj hcons).1 h.2
    case h_3 hcons => exact absurd (List.cons.inj hcons).1 h.2
    case h_4 hcons =>
      obtain ⟨rfl, rfl⟩ := List.cons.inj hcons
      rw [if_neg h.1, if_neg (by simp [h.2, hlow])]
      rfl

theorem lexString_escapes (cs acc rest : List Char) :
    lexString { chars := some acc } (cs.flatMap Json.escape ++ '"' :: rest)
      = (lex rest).map (string (some (String.ofList (acc.reverse ++ cs))) :: ·) := by
  induction cs generalizing acc with
  | nil =>
    rw [List.append_nil]
    rfl
  | cons c cs ih =>
    rw [List.flatMap_cons, List.append_assoc, lexString_escape, ih, List.reverse_cons,
      List.append_assoc, List.singleton_append]

/-! ### Tokens of a text -/

/-- A text has these tokens, whatever comes behind it. -/
def Lexes (cs : List Char) (ts : List JsonToken) : Prop :=
  ∀ rest, lex (cs ++ rest) = (lex rest).map (ts ++ ·)

variable {cs' : List Char} {ts ts' : List JsonToken} {t : JsonToken}

theorem Lexes.append (h : Lexes cs ts) (h' : Lexes cs' ts') : Lexes (cs ++ cs') (ts ++ ts') := by
  intro rest
  rw [List.append_assoc, h, h', Option.map_map]
  exact congrArg (Option.map · (lex rest)) (funext fun more => (List.append_assoc ts ts' more).symm)

theorem lexes_quote (s : String) : Lexes (Json.quote (some s)) [string (some s)] := by
  intro rest
  have hquoted := lexString_escapes s.toList [] rest
  rw [List.reverse_nil, List.nil_append, String.ofList_toList] at hquoted
  unfold Json.quote
  rw [List.cons_append, List.cons_append, List.append_assoc]
  exact hquoted

theorem lexes_punctuation (h : c ∈ ['[', ']', '\x7b', '\x7d', ',', ':'])
    (ht : ofPunctuation c = some t) : Lexes [c] [t] := by
  intro rest
  simp only [List.mem_cons, List.not_mem_nil, or_false] at h
  rcases h with rfl | rfl | rfl | rfl | rfl | rfl <;>
    · cases ht
      rfl

end JsonToken

namespace Json

open JsonToken

/-- Values without numbers, whose strings and names are all characters. -/
inductive Textual : Json → Prop
  | null : Textual null
  | bool (b : Bool) : Textual (bool b)
  | text (s : String) : Textual (text s)
  | array {items : List Json} (hitems : ∀ j ∈ items, Textual j) : Textual (array items)
  | object {members : List (Option String × Json)} (hnames : ∀ m ∈ members, m.1.isSome = true)
      (hvalues : ∀ m ∈ members, Textual m.2) : Textual (object members)

theorem textual_empty : (object []).Textual :=
  .object (fun _ hm => absurd hm List.not_mem_nil) fun _ hm => absurd hm List.not_mem_nil

theorem Textual.member {j : Json} {members : List (Option String × Json)} (name : String)
    (hj : j.Textual) (h : (Json.object members).Textual) :
    (Json.object ((some name, j) :: members)).Textual := by
  cases h with
  | object hnames hvalues =>
    exact .object (List.forall_mem_cons.2 ⟨rfl, hnames⟩) (List.forall_mem_cons.2 ⟨hj, hvalues⟩)

mutual

/-- The tokens that a value is written in. -/
def tokens : Json → List JsonToken
  | null => [.null]
  | bool b => [.bool b]
  | number n => [.number n]
  | string s => [.string s]
  | array [] => [.openBracket, .closeBracket]
  | array (j :: rest) => .openBracket :: tokens j ++ itemTokens rest
  | object [] => [.openBrace, .closeBrace]
  | object ((name, j) :: rest) =>
    .openBrace :: .string name :: .colon :: tokens j ++ memberTokens rest

/-- The tokens of the items behind the first one and of the end of the array. -/
def itemTokens : List Json → List JsonToken
  | [] => [.closeBracket]
  | j :: rest => .comma :: tokens j ++ itemTokens rest

/-- The tokens of the members behind the first one and of the end of the object. -/
def memberTokens : List (Option String × Json) → List JsonToken
  | [] => [.closeBrace]
  | (name, j) :: rest => .comma :: .string name :: .colon :: tokens j ++ memberTokens rest

end

variable {j : Json} {items : List Json} {members : List (Option String × Json)}

theorem lexes_items (h : ∀ j ∈ items, Lexes j.chars j.tokens) :
    Lexes (itemChars items) (itemTokens items) := by
  induction items with
  | nil => exact lexes_punctuation (by decide) rfl
  | cons j rest ih =>
    obtain ⟨hj, hrest⟩ := List.forall_mem_cons.1 h
    exact ((lexes_punctuation (by decide) rfl).append hj).append (ih hrest)

theorem lexes_member (s : String) (hj : Lexes j.chars j.tokens) :
    Lexes (quote (some s) ++ ':' :: j.chars) (.string (some s) :: .colon :: j.tokens) :=
  (lexes_quote s).append ((lexes_punctuation (by decide) rfl : Lexes [':'] [.colon]).append hj)

theorem lexes_members (hnames : ∀ m ∈ members, m.1.isSome = true)
    (h : ∀ m ∈ members, Lexes m.2.chars m.2.tokens) :
    Lexes (memberChars members) (memberTokens members) := by
  induction members with
  | nil => exact lexes_punctuation (by decide) rfl
  | cons m rest ih =>
    obtain ⟨name, j⟩ := m
    obtain ⟨hname, hmore⟩ := List.forall_mem_cons.1 hnames
    obtain ⟨hj, hrest⟩ := List.forall_mem_cons.1 h
    obtain ⟨s, rfl⟩ := Option.isSome_iff_exists.1 hname
    have hcomma : Lexes [','] [.comma] := lexes_punctuation (by decide) rfl
    exact (hcomma.append (lexes_member s hj)).append (ih hmore hrest)

/-- A text has the tokens that the value was written in. -/
theorem Textual.lexes (h : j.Textual) : Lexes j.chars j.tokens := by
  induction h with
  | null => exact fun rest => rfl
  | bool b => cases b <;> exact fun rest => rfl
  | text s => exact lexes_quote s
  | @array items _ ih =>
    have hopen : Lexes ['['] [.openBracket] := lexes_punctuation (by decide) rfl
    cases items with
    | nil => exact hopen.append (lexes_punctuation (by decide) rfl : Lexes [']'] [.closeBracket])
    | cons j rest =>
      obtain ⟨hj, hrest⟩ := List.forall_mem_cons.1 ih
      exact (hopen.append hj).append (lexes_items hrest)
  | @object members hnames _ ih =>
    have hopen : Lexes ['\x7b'] [.openBrace] := lexes_punctuation (by decide) rfl
    cases members with
    | nil => exact hopen.append (lexes_punctuation (by decide) rfl : Lexes ['\x7d'] [.closeBrace])
    | cons m rest =>
      obtain ⟨name, j⟩ := m
      obtain ⟨hname, hmore⟩ := List.forall_mem_cons.1 hnames
      obtain ⟨hj, hrest⟩ := List.forall_mem_cons.1 ih
      obtain ⟨s, rfl⟩ := Option.isSome_iff_exists.1 hname
      exact (hopen.append (lexes_member s hj)).append (lexes_members hmore hrest)

/-! ### Values of tokens -/

variable {stack : List Frame} {ts : List JsonToken}

theorem head?_tokens (j : Json) (rest : List JsonToken) :
    (j.tokens ++ rest).head? ≠ some .closeBracket := by
  cases j with
  | array items => cases items <;> exact nofun
  | object members => rcases members with _ | ⟨⟨_, _⟩, _⟩ <;> exact nofun
  | _ => exact nofun

theorem value_openBracket (h : ts.head? ≠ some .closeBracket) :
    value (.openBracket :: ts) stack = value ts (.array [] :: stack) := by
  cases ts with
  | nil => rfl
  | cons t rest =>
    cases t
    case closeBracket => exact absurd rfl h
    all_goals rfl

/-- What tokens in front of any others and above any frames have to come to, to be read as a
value. -/
abbrev Values (j : Json) : Prop :=
  ∀ rest stack, value (j.tokens ++ rest) stack = after j rest stack

theorem after_items (h : ∀ j ∈ items, j.Values) (j : Json) (acc : List Json)
    (rest : List JsonToken) (stack : List Frame) :
    after j (itemTokens items ++ rest) (.array acc :: stack)
      = after (array ((j :: acc).reverse ++ items)) rest stack := by
  induction items generalizing j acc with
  | nil =>
    rw [List.append_nil]
    rfl
  | cons i more ih =>
    obtain ⟨hi, hmore⟩ := List.forall_mem_cons.1 h
    have hvalue := hi (itemTokens more ++ rest) (.array (j :: acc) :: stack)
    rw [ih hmore, List.reverse_cons, List.append_assoc, List.singleton_append] at hvalue
    rw [itemTokens, List.cons_append, List.cons_append, List.append_assoc, after]
    exact hvalue

theorem after_members (h : ∀ m ∈ members, m.2.Values) (j : Json) (name : Option String)
    (acc : List (Option String × Json)) (rest : List JsonToken) (stack : List Frame) :
    after j (memberTokens members ++ rest) (.object acc name :: stack)
      = after (object (((name, j) :: acc).reverse ++ members)) rest stack := by
  induction members generalizing j name acc with
  | nil =>
    rw [List.append_nil]
    rfl
  | cons m more ih =>
    obtain ⟨next, i⟩ := m
    obtain ⟨hi, hmore⟩ := List.forall_mem_cons.1 h
    have hvalue := hi (memberTokens more ++ rest) (.object ((name, j) :: acc) next :: stack)
    rw [ih hmore, List.reverse_cons, List.append_assoc, List.singleton_append] at hvalue
    rw [memberTokens]
    simp only [List.cons_append, List.append_assoc]
    rw [after]
    exact hvalue

/-- The tokens that a value was written in are read as this value. -/
theorem Textual.values (h : j.Textual) : j.Values := by
  induction h with
  | null => exact fun _ _ => rfl
  | bool b => exact fun _ _ => rfl
  | text s => exact fun _ _ => rfl
  | @array items _ ih =>
    cases items with
    | nil => exact fun _ _ => rfl
    | cons j more =>
      intro rest stack
      obtain ⟨hj, hmore⟩ := List.forall_mem_cons.1 ih
      rw [tokens, List.cons_append, List.cons_append, List.append_assoc,
        value_openBracket (head?_tokens j _), hj, after_items hmore]
      rfl
  | @object members _ _ ih =>
    cases members with
    | nil => exact fun _ _ => rfl
    | cons m more =>
      intro rest stack
      obtain ⟨name, j⟩ := m
      obtain ⟨hj, hmore⟩ := List.forall_mem_cons.1 ih
      rw [tokens]
      simp only [List.cons_append, List.append_assoc]
      rw [value, hj, after_members hmore]
      rfl

/-- Reading what was written of a value without numbers gives the value back. -/
theorem Textual.reads (h : j.Textual) : Json.read j.write = some j := by
  have hlex := h.lexes []
  have hvalue := h.values [] []
  rw [List.append_nil] at hlex hvalue
  unfold Json.read write
  rw [String.toList_ofList, hlex]
  change value (j.tokens ++ []) [] = some j
  rw [List.append_nil, hvalue]
  rfl

/-! ### Soundness -/

theorem areSound_eq_true (h : ∀ j ∈ items, j.isSound = true) : areSound items = true := by
  induction items with
  | nil => rfl
  | cons j rest ih =>
    obtain ⟨hj, hrest⟩ := List.forall_mem_cons.1 h
    rw [areSound, hj, ih hrest, Bool.and_self]

theorem areSoundMembers_eq_true (hnames : ∀ m ∈ members, m.1.isSome = true)
    (h : ∀ m ∈ members, m.2.isSound = true) : areSoundMembers members = true := by
  induction members with
  | nil => rfl
  | cons m rest ih =>
    obtain ⟨name, j⟩ := m
    obtain ⟨hname, hmore⟩ := List.forall_mem_cons.1 hnames
    obtain ⟨hj, hrest⟩ := List.forall_mem_cons.1 h
    rw [areSoundMembers, hname, hj, ih hmore hrest, Bool.and_self, Bool.and_self]

/-- All strings and names are characters, and there are no numbers. -/
theorem Textual.isSound (h : j.Textual) : j.isSound = true := by
  induction h with
  | null => rfl
  | bool b => rfl
  | text s => rfl
  | array _ ih => exact areSound_eq_true ih
  | object hnames _ ih => exact areSoundMembers_eq_true hnames ih

end Json

end ReactiveView
