import ReactiveView.Proofs.Template.Reading

/-!
This module contains what it takes to fill in a template, and what comes of it. A template can be
filled in exactly if its last directive is complete, its fields are narrow enough, its conversions
are known, there are as many arguments as directives that take one, and each argument suits its
conversion. The result is then made of the literal characters and the padded arguments, in order.
-/

namespace ReactiveView

/-- No number of a directive is beyond the limit. -/
def Directive.Narrow (d : Directive) : Prop :=
  (∀ n ∈ d.width, n ≤ Template.fieldLimit) ∧ ∀ n ∈ d.precision, n ≤ Template.fieldLimit

/-- Whether the directive takes an argument: all do but `%%`. -/
def Directive.takes (d : Directive) : Bool := d.conversion != some '%'

namespace Template

/-- The directives among the pieces of a template. -/
def directives (ps : List Piece) : List Directive :=
  ps.filterMap fun
    | .directive d => some d
    | .literal _ => none

/-- The directives that take an argument. -/
def takers (ps : List Piece) : List Directive := (directives ps).filter Directive.takes

/-- The arguments that a value gives: the items of a list, or itself. -/
def argumentsOf : Value → List Value
  | .list items => items
  | v => [v]

/-- An argument suits a conversion: everything has a text, whole numbers come from finite numbers
and truth values, decimal fractions from any number or truth value. -/
def Suits (conversion : Char) (v : Value) : Prop :=
  match conversion with
  | 's' | 'r' => True
  | 'd' | 'i' =>
    match v with
    | .int _ | .bool _ => True
    | .float x => (Binary.ofFloat x).isFinite = true
    | _ => False
  | 'f' =>
    match v with
    | .int _ | .bool _ | .float _ => True
    | _ => False
  | _ => False

/-- What it takes to fill in a template. -/
structure Fillable (ps : List Piece) (vs : List Value) : Prop where
  complete : ∀ d ∈ directives ps, d.conversion ≠ none
  narrow : ∀ d ∈ directives ps, d.Narrow
  known : ∀ d ∈ directives ps, ∀ c ∈ d.conversion, c ∈ ['s', 'r', 'd', 'i', 'f', '%']
  count : (takers ps).length = vs.length
  suits : ∀ entry ∈ (takers ps).zip vs, ∀ c ∈ entry.1.conversion, Suits c entry.2

/-- The text of an argument under a conversion. -/
inductive Shows (precision : Option Nat) : Char → Value → List Char → Prop
  | text {v : Value} (h : precision = none) : Shows precision 's' v v.text.toList
  | cut {v : Value} {p : Nat} (h : precision = some p) :
      Shows precision 's' v (v.text.toList.take p)
  | repr {v : Value} : Shows precision 'r' v v.repr.toList
  | int {c : Char} {i : Int} (hc : c = 'd' ∨ c = 'i') : Shows precision c (.int i) (Value.intText i)
  | bool {c : Char} {b : Bool} (hc : c = 'd' ∨ c = 'i') :
      Shows precision c (.bool b) (Value.intText (if b then 1 else 0))
  | whole {c : Char} {x : Float} (hc : c = 'd' ∨ c = 'i') (hx : (Binary.ofFloat x).isFinite = true) :
      Shows precision c (.float x) (Value.intText (Word.ofFloat x))
  | fixed {v : Value} {x : Float} (hx : v.asFloat? = some x) :
      Shows precision 'f' v (fixedText x (precision.getD 6)).toList

/-- A text in its field: spaces to the right of it with `-`, to the left without, and as many
characters in all as the wider of the two has. -/
structure Padded (d : Directive) (text field : List Char) : Prop where
  spaces : ∃ n, field = if d.leftAligned then text ++ List.replicate n ' '
    else List.replicate n ' ' ++ text
  length : field.length = max (d.width.getD 0) text.length

/-- The text that comes of the pieces of a template and its arguments. -/
inductive Filled : List Piece → List Value → List Char → Prop
  | done : Filled [] [] []
  | literal {c : Char} {ps : List Piece} {vs : List Value} {out : List Char}
      (h : Filled ps vs out) : Filled (.literal c :: ps) vs (c :: out)
  | percent {d : Directive} {ps : List Piece} {vs : List Value} {out : List Char}
      (hd : d.conversion = some '%') (h : Filled ps vs out) :
      Filled (.directive d :: ps) vs ('%' :: out)
  | field {d : Directive} {c : Char} {v : Value} {text field : List Char} {ps : List Piece}
      {vs : List Value} {out : List Char} (hd : d.conversion = some c) (hc : c ≠ '%')
      (htext : Shows d.precision c v text) (hfield : Padded d text field) (h : Filled ps vs out) :
      Filled (.directive d :: ps) (v :: vs) (field ++ out)

variable {d : Directive} {c : Char} {v : Value} {ps : List Piece} {vs : List Value}
  {text field out : List Char} {precision : Option Nat}

/-! ### Fields -/

theorem forall_mem_le_iff {o : Option Nat} {limit : Nat} :
    (∀ n ∈ o, n ≤ limit) ↔ o.getD 0 ≤ limit := by
  cases o <;> simp

theorem tooWide_eq_false_iff : Directive.tooWide d = false ↔ d.Narrow := by
  unfold Directive.tooWide Directive.Narrow
  rw [forall_mem_le_iff, forall_mem_le_iff, Bool.or_eq_false_iff]
  exact and_congr (decide_eq_false_iff_not.trans Nat.not_lt) (decide_eq_false_iff_not.trans Nat.not_lt)

theorem padded_iff : Padded d text field ↔ field = pad d.leftAligned (d.width.getD 0) text := by
  constructor
  · rintro ⟨⟨n, rfl⟩, hlength⟩
    have hn : n = d.width.getD 0 - text.length := by
      split at hlength <;>
        rw [List.length_append, List.length_replicate] at hlength <;> omega
    rw [hn]
    rfl
  · rintro rfl
    refine ⟨⟨d.width.getD 0 - text.length, rfl⟩, ?_⟩
    unfold pad
    split <;> rw [List.length_append, List.length_replicate] <;> omega

theorem convert_eq_ok_iff : convert c precision v = .ok text ↔ Shows precision c v text := by
  constructor
  · intro h
    unfold convert at h
    split at h
    · next hc =>
      subst hc
      cases h
      cases precision with
      | none => exact .text rfl
      | some p => exact .cut rfl
    · split at h
      · next hc =>
        subst hc
        cases h
        rw [← String.toList_ofList (l := v.reprChars)]
        exact .repr
      · split at h
        · next hc =>
          have hmem : c = 'd' ∨ c = 'i' := by simpa using hc
          split at h
          · cases h
            exact .int hmem
          · next b =>
            cases h
            cases b
            · exact .bool (b := false) hmem
            · exact .bool (b := true) hmem
          · split at h
            · next hx =>
              cases h
              exact .whole hmem hx
            · cases h
          · cases h
        · split at h
          · next hc =>
            subst hc
            split at h
            · next hx =>
              cases h
              exact .fixed hx
            · cases h
          · cases h
  · intro h
    cases h with
    | text h | cut h => subst h; rfl
    | repr => exact congrArg Except.ok (String.toList_ofList (l := v.reprChars)).symm
    | int hc =>
      rcases hc with rfl | rfl <;> rfl
    | @bool _ b hc =>
      rcases hc with rfl | rfl <;> cases b <;> rfl
    | whole hc hx =>
      rcases hc with rfl | rfl <;> simp [convert, hx]
    | fixed hx => simp [convert, hx]

/-- A conversion other than `%%` succeeds if it is known and suits the argument. -/
theorem exists_convert_iff (hc : c ≠ '%') : (∃ text, convert c precision v = .ok text) ↔
    c ∈ ['s', 'r', 'd', 'i', 'f', '%'] ∧ Suits c v := by
  constructor
  · rintro ⟨text, h⟩
    cases convert_eq_ok_iff.1 h with
    | text | cut | repr => exact ⟨by decide, trivial⟩
    | int hc | bool hc => rcases hc with rfl | rfl <;> exact ⟨by decide, trivial⟩
    | whole hc hx => rcases hc with rfl | rfl <;> exact ⟨by decide, hx⟩
    | fixed hx => cases v <;> first | exact ⟨by decide, trivial⟩ | cases hx
  · rintro ⟨hmem, hs⟩
    simp only [List.mem_cons, List.not_mem_nil, or_false] at hmem
    rcases hmem with rfl | rfl | rfl | rfl | rfl | rfl
    · exact ⟨_, rfl⟩
    · exact ⟨_, rfl⟩
    · cases v with
      | int | bool => exact ⟨_, rfl⟩
      | float x => exact ⟨_, convert_eq_ok_iff.2 (.whole (.inl rfl) hs)⟩
      | _ => exact hs.elim
    · cases v with
      | int | bool => exact ⟨_, rfl⟩
      | float x => exact ⟨_, convert_eq_ok_iff.2 (.whole (.inr rfl) hs)⟩
      | _ => exact hs.elim
    · cases v with
      | int | bool | float => exact ⟨_, rfl⟩
      | _ => exact hs.elim
    · exact absurd rfl hc

/-! ### Pieces -/

theorem fillable_nil : Fillable [] vs ↔ vs = [] := by
  constructor
  · intro h
    exact List.length_eq_zero_iff.1 h.count.symm
  · rintro rfl
    exact ⟨nofun, nofun, nofun, rfl, nofun⟩

theorem fillable_literal : Fillable (.literal c :: ps) vs ↔ Fillable ps vs :=
  ⟨fun ⟨h₁, h₂, h₃, h₄, h₅⟩ => ⟨h₁, h₂, h₃, h₄, h₅⟩, fun ⟨h₁, h₂, h₃, h₄, h₅⟩ => ⟨h₁, h₂, h₃, h₄, h₅⟩⟩

theorem takers_of_takes (hd : d.takes = true) : takers (.directive d :: ps) = d :: takers ps :=
  List.filter_cons_of_pos hd

theorem takers_of_not_takes (hd : d.takes = false) : takers (.directive d :: ps) = takers ps :=
  List.filter_cons_of_neg (by rw [hd]; exact Bool.false_ne_true)

theorem fillable_percent (hd : d.conversion = some '%') :
    Fillable (.directive d :: ps) vs ↔ d.Narrow ∧ Fillable ps vs := by
  have htakers : takers (.directive d :: ps) = takers ps :=
    takers_of_not_takes (by rw [Directive.takes, hd]; rfl)
  constructor
  · rintro ⟨hcomplete, hnarrow, hknown, hcount, hsuits⟩
    rw [htakers] at hcount hsuits
    obtain ⟨-, hcomplete⟩ := List.forall_mem_cons.1 hcomplete
    obtain ⟨hfirst, hnarrow⟩ := List.forall_mem_cons.1 hnarrow
    obtain ⟨-, hknown⟩ := List.forall_mem_cons.1 hknown
    exact ⟨hfirst, hcomplete, hnarrow, hknown, hcount, hsuits⟩
  · rintro ⟨hfirst, hcomplete, hnarrow, hknown, hcount, hsuits⟩
    refine ⟨List.forall_mem_cons.2 ⟨?_, hcomplete⟩, List.forall_mem_cons.2 ⟨hfirst, hnarrow⟩,
      List.forall_mem_cons.2 ⟨?_, hknown⟩, htakers ▸ hcount, htakers ▸ hsuits⟩
    · rw [hd]
      nofun
    · rw [hd]
      rintro _ ⟨⟩
      decide

theorem fillable_field (hd : d.conversion = some c) (hc : c ≠ '%') :
    Fillable (.directive d :: ps) (v :: vs) ↔
      d.Narrow ∧ (∃ text, convert c d.precision v = .ok text) ∧ Fillable ps vs := by
  have htakers : takers (.directive d :: ps) = d :: takers ps :=
    takers_of_takes (by rw [Directive.takes, hd]; exact bne_iff_ne.2 fun h => hc (Option.some.inj h))
  rw [exists_convert_iff hc]
  constructor
  · rintro ⟨hcomplete, hnarrow, hknown, hcount, hsuits⟩
    rw [htakers] at hcount hsuits
    obtain ⟨-, hcomplete⟩ := List.forall_mem_cons.1 hcomplete
    obtain ⟨hfirst, hnarrow⟩ := List.forall_mem_cons.1 hnarrow
    obtain ⟨hmem, hknown⟩ := List.forall_mem_cons.1 hknown
    obtain ⟨hsuit, hsuits⟩ := List.forall_mem_cons.1 hsuits
    exact ⟨hfirst, ⟨hmem c hd, hsuit c hd⟩, hcomplete, hnarrow, hknown, Nat.succ.inj hcount, hsuits⟩
  · rintro ⟨hfirst, ⟨hmem, hsuit⟩, hcomplete, hnarrow, hknown, hcount, hsuits⟩
    refine ⟨List.forall_mem_cons.2 ⟨?_, hcomplete⟩, List.forall_mem_cons.2 ⟨hfirst, hnarrow⟩,
      List.forall_mem_cons.2 ⟨?_, hknown⟩, ?_, ?_⟩
    · rw [hd]
      nofun
    · rw [hd]
      rintro _ ⟨⟩
      exact hmem
    · rw [htakers]
      exact congrArg Nat.succ hcount
    · rw [htakers]
      refine List.forall_mem_cons.2 ⟨?_, hsuits⟩
      rw [hd]
      rintro _ ⟨⟩
      exact hsuit

theorem not_fillable_of_incomplete (hd : d.conversion = none) :
    ¬Fillable (.directive d :: ps) vs :=
  fun h => h.complete d List.mem_cons_self hd

theorem not_fillable_of_few (hd : d.conversion = some c) (hc : c ≠ '%') :
    ¬Fillable (.directive d :: ps) [] := by
  intro h
  have hcount := h.count
  rw [takers_of_takes] at hcount
  · cases hcount
  · rw [Directive.takes, hd]
    exact bne_iff_ne.2 fun h => hc (Option.some.inj h)

/-! ### Filling in -/

theorem bind_eq_ok_iff {ε α β : Type} {x : Except ε α} {f : α → Except ε β} {b : β} :
    (x >>= f) = .ok b ↔ ∃ a, x = .ok a ∧ f a = .ok b := by
  cases x with
  | error e => exact ⟨nofun, nofun⟩
  | ok a => exact ⟨fun h => ⟨a, rfl, h⟩, fun ⟨_, ha, h⟩ => by cases ha; exact h⟩

theorem filled_percent_iff (hd : d.conversion = some '%') :
    Filled (.directive d :: ps) vs out ↔ ∃ rest, out = '%' :: rest ∧ Filled ps vs rest := by
  constructor
  · rintro (_ | _ | ⟨_, h⟩ | ⟨hd', hc, _, _, _⟩)
    · exact ⟨_, rfl, h⟩
    · exact absurd (Option.some.inj (hd'.symm.trans hd)) hc
  · rintro ⟨rest, rfl, h⟩
    exact .percent hd h

theorem filled_field_iff (hd : d.conversion = some c) (hc : c ≠ '%') :
    Filled (.directive d :: ps) (v :: vs) out ↔ ∃ text rest,
      convert c d.precision v = .ok text ∧
      out = pad d.leftAligned (d.width.getD 0) text ++ rest ∧ Filled ps vs rest := by
  constructor
  · rintro (_ | _ | ⟨hd', _⟩ | ⟨hd', _, htext, hfield, h⟩)
    · exact absurd (Option.some.inj (hd.symm.trans hd')) hc
    · cases hd.symm.trans hd'
      exact ⟨_, _, convert_eq_ok_iff.2 htext, by rw [padded_iff.1 hfield], h⟩
  · rintro ⟨text, rest, htext, rfl, h⟩
    exact .field hd hc (convert_eq_ok_iff.1 htext) (padded_iff.2 rfl) h

theorem fill_eq_ok_iff : fill ps vs = .ok out ↔ Fillable ps vs ∧ Filled ps vs out := by
  induction ps generalizing vs out with
  | nil =>
    rw [fillable_nil]
    cases vs with
    | nil => exact ⟨fun h => by cases h; exact ⟨rfl, .done⟩, fun ⟨_, h⟩ => by cases h; rfl⟩
    | cons v vs => exact ⟨nofun, nofun⟩
  | cons p ps ih =>
    rcases p with c | d
    · rw [fillable_literal, fill, bind_eq_ok_iff]
      constructor
      · rintro ⟨rest, hrest, ⟨⟩⟩
        obtain ⟨hps, hfilled⟩ := ih.1 hrest
        exact ⟨hps, .literal hfilled⟩
      · rintro ⟨hps, ⟨⟩⟩
        exact ⟨_, ih.2 ⟨hps, ‹_›⟩, rfl⟩
    · rw [fill]
      split
      · next hwide =>
        refine ⟨nofun, fun ⟨h, _⟩ => ?_⟩
        rw [tooWide_eq_false_iff.2 (h.narrow d List.mem_cons_self)] at hwide
        cases hwide
      · next hnarrow =>
        rw [Bool.not_eq_true, tooWide_eq_false_iff] at hnarrow
        split
        · next hd => exact ⟨nofun, fun ⟨h, _⟩ => (not_fillable_of_incomplete hd h).elim⟩
        · next c hd =>
          split
          · next hc =>
            subst hc
            rw [fillable_percent hd, and_iff_right hnarrow, filled_percent_iff hd, bind_eq_ok_iff]
            constructor
            · rintro ⟨rest, hrest, ⟨⟩⟩
              obtain ⟨hps, hfilled⟩ := ih.1 hrest
              exact ⟨hps, rest, rfl, hfilled⟩
            · rintro ⟨hps, rest, rfl, hfilled⟩
              exact ⟨rest, ih.2 ⟨hps, hfilled⟩, rfl⟩
          · next hc =>
            cases vs with
            | nil => exact ⟨nofun, fun ⟨h, _⟩ => (not_fillable_of_few hd hc h).elim⟩
            | cons v vs =>
              rw [fillable_field hd hc, and_iff_right hnarrow, filled_field_iff hd hc, bind_eq_ok_iff]
              simp only [bind_eq_ok_iff]
              constructor
              · rintro ⟨text, htext, rest, hrest, ⟨⟩⟩
                obtain ⟨hps, hfilled⟩ := ih.1 hrest
                exact ⟨⟨⟨text, htext⟩, hps⟩, text, rest, htext, rfl, hfilled⟩
              · rintro ⟨⟨-, hps⟩, text, rest, htext, rfl, hfilled⟩
                exact ⟨text, htext, rest, ih.2 ⟨hps, hfilled⟩, rfl⟩

/-- Nothing stands in the way of filling in but what `Fillable` names. -/
theorem exists_fill (h : Fillable ps vs) : ∃ out, fill ps vs = .ok out := by
  induction ps generalizing vs with
  | nil =>
    obtain rfl := fillable_nil.1 h
    exact ⟨[], rfl⟩
  | cons p ps ih =>
    rcases p with c | d
    · obtain ⟨rest, hrest⟩ := ih (fillable_literal.1 h)
      exact ⟨c :: rest, bind_eq_ok_iff.2 ⟨rest, hrest, rfl⟩⟩
    · have hnarrow := tooWide_eq_false_iff.2 (h.narrow d List.mem_cons_self)
      obtain ⟨c, hd⟩ := Option.ne_none_iff_exists'.1 (h.complete d List.mem_cons_self)
      rw [fill, hnarrow, if_neg Bool.false_ne_true, hd]
      dsimp only
      by_cases hc : c = '%'
      · subst hc
        obtain ⟨rest, hrest⟩ := ih ((fillable_percent hd).1 h).2
        rw [if_pos rfl]
        exact ⟨_, bind_eq_ok_iff.2 ⟨rest, hrest, rfl⟩⟩
      · rw [if_neg hc]
        cases vs with
        | nil => exact (not_fillable_of_few hd hc h).elim
        | cons v vs =>
          obtain ⟨-, ⟨text, htext⟩, hps⟩ := (fillable_field hd hc).1 h
          obtain ⟨rest, hrest⟩ := ih hps
          exact ⟨_, bind_eq_ok_iff.2 ⟨text, htext, bind_eq_ok_iff.2 ⟨rest, hrest, rfl⟩⟩⟩

theorem render_eq_ok_iff {template text : String} {arguments : Value} :
    render template arguments = .ok text ↔
      fill (pieces template.toList) (argumentsOf arguments) = .ok text.toList := by
  unfold render argumentsOf
  rw [bind_eq_ok_iff]
  constructor
  · rintro ⟨out, hout, ⟨⟩⟩
    rw [String.toList_ofList]
    exact hout
  · intro h
    exact ⟨_, h, congrArg _ String.ofList_toList⟩

/-- A template has exactly one reading. It can be filled in exactly if the pieces of that reading and
the arguments are as they have to be, and the text that comes of it is made of them in order. -/
theorem render_of_reading (template : String) (arguments : Value) :
    ∃ ps, (∀ qs, Reads template.toList qs ↔ qs = ps) ∧
      ((∃ text, render template arguments = .ok text) ↔ Fillable ps (argumentsOf arguments)) ∧
      ∀ text, render template arguments = .ok text ↔
        Fillable ps (argumentsOf arguments) ∧ Filled ps (argumentsOf arguments) text.toList := by
  refine ⟨pieces template.toList, fun qs => reads_iff, ⟨?_, fun h => ?_⟩, fun text => ?_⟩
  · rintro ⟨text, htext⟩
    exact (fill_eq_ok_iff.1 (render_eq_ok_iff.1 htext)).1
  · obtain ⟨out, hout⟩ := exists_fill h
    exact ⟨String.ofList out, render_eq_ok_iff.2 (by rw [hout, String.toList_ofList])⟩
  · rw [render_eq_ok_iff, fill_eq_ok_iff]

end Template

end ReactiveView
