import Mathlib.Data.List.TakeWhile
import ReactiveView.Expr.Template
import ReactiveView.Proofs.Expr.Scanning

/-!
This module contains how a template is read. The grammar of templates says which texts stand for
which pieces; each part of a directive is as long as it can be. Every template has exactly one
reading, and it is the list of pieces that the reader finds.
-/

namespace ReactiveView

/--
A directive as it is written behind its `%`.
-/
structure Spelling where
  /-- The count of `-`. -/
  dashes : Nat
  /-- The digits of the width. -/
  width : List Char
  /-- The digits behind the `.`, if there is one. -/
  precision : Option (List Char)
  /-- The conversion character; none at the end of the template. -/
  conversion : Option Char

namespace Spelling

/-- The number that digits stand for, if there are any. -/
def number (digits : List Char) : Option Nat :=
  if digits = [] then none else some (Nat.ofDigitChars 10 digits 0)

/-- The part from the `.` on, without the conversion character. -/
def places (s : Spelling) : List Char :=
  match s.precision with
  | none => []
  | some digits => '.' :: digits

/-- The characters behind the `%`. -/
def chars (s : Spelling) : List Char :=
  List.replicate s.dashes '-' ++ (s.width ++ (s.places ++ s.conversion.toList))

/-- The directive that is meant. A `.` without digits is a precision of zero. -/
def directive (s : Spelling) : Directive where
  leftAligned := decide (0 < s.dashes)
  width := number s.width
  precision := s.precision.map fun digits => (number digits).getD 0
  conversion := s.conversion

/-- Each part is as long as it can be: the conversion character does not prolong the one before. -/
structure Proper (s : Spelling) : Prop where
  width : ∀ c ∈ s.width, c.isDigit = true
  precision : ∀ digits ∈ s.precision, ∀ c ∈ digits, c.isDigit = true
  notDigit : ∀ c ∈ s.conversion, c.isDigit = false
  notPoint : s.precision = none → ∀ c ∈ s.conversion, c ≠ '.'
  notDash : s.width = [] → s.precision = none → ∀ c ∈ s.conversion, c ≠ '-'

end Spelling

namespace Template

/-- A text stands for a list of pieces. -/
inductive Reads : List Char → List Piece → Prop
  | done : Reads [] []
  | literal {c : Char} {rest : List Char} {ps : List Piece} (hc : c ≠ '%') (h : Reads rest ps) :
      Reads (c :: rest) (.literal c :: ps)
  | directive {s : Spelling} {rest : List Char} {ps : List Piece} (hs : s.Proper)
      (hend : s.conversion = none → rest = []) (h : Reads rest ps) :
      Reads ('%' :: (s.chars ++ rest)) (.directive s.directive :: ps)

variable {s : Spelling} {cs rest digits : List Char} {ps : List Piece} {c : Char}

/-! ### Directives -/

theorem readCount_append (hall : ∀ c ∈ digits, c.isDigit = true)
    (hstop : ∀ c ∈ rest.head?, c.isDigit = false) :
    readCount (digits ++ rest) = (Spelling.number digits, rest) := by
  unfold readCount Spelling.number
  rw [Token.takeWhile_of_stop hall hstop, Token.dropWhile_of_stop hall hstop]
  cases digits with
  | nil => rfl
  | cons d ds => rw [if_neg (List.cons_ne_nil d ds)]

/-- What stands behind the digits of a number does not prolong them. -/
theorem head?_append_eq_false {p : Char → Bool} {o : Option Char} (ho : ∀ c ∈ o, p c = false)
    (hend : o = none → rest = []) : ∀ c ∈ (o.toList ++ rest).head?, p c = false := by
  cases o with
  | none =>
    rw [hend rfl]
    nofun
  | some d => exact ho

theorem readDirective_append (hs : s.Proper) (hend : s.conversion = none → rest = []) :
    readDirective (s.chars ++ rest) = (s.directive, rest) := by
  obtain ⟨dashes, width, precision, conversion⟩ := s
  obtain ⟨hwidth, hprecision, hdigit, hpoint, hdash⟩ := hs
  simp only at hwidth hprecision hdigit hpoint hdash hend
  let s : Spelling := ⟨dashes, width, precision, conversion⟩
  let last := conversion.toList ++ rest
  have hlast : ∀ c ∈ last.head?, c.isDigit = false := head?_append_eq_false hdigit hend
  have hchars : s.chars ++ rest = List.replicate dashes '-' ++ (width ++ (s.places ++ last)) := by
    simp only [s, last, Spelling.chars, List.append_assoc]
  have hdashes : ∀ c ∈ (width ++ (s.places ++ last)).head?, decide (c = '-') = false := by
    rcases width with _ | ⟨d, ds⟩
    · rcases precision with _ | digits
      · refine head?_append_eq_false (fun c hc => ?_) hend
        exact decide_eq_false (hdash rfl rfl c hc)
      · rintro c ⟨⟩
        rfl
    · rintro c ⟨⟩
      refine decide_eq_false fun heq => ?_
      have := hwidth '-' (heq ▸ List.mem_cons_self)
      cases this
  have hplaces : ∀ c ∈ (s.places ++ last).head?, c.isDigit = false := by
    rcases precision with _ | digits
    · exact hlast
    · rintro c ⟨⟩
      rfl
  change readDirective (s.chars ++ rest) = (s.directive, rest)
  unfold readDirective
  simp only [hchars, readCount_append hwidth hplaces,
    Token.dropWhile_of_stop (fun c hc => decide_eq_true (List.eq_of_mem_replicate hc)) hdashes]
  have haligned : decide ((width ++ (s.places ++ last)).length
      < (List.replicate dashes '-' ++ (width ++ (s.places ++ last))).length)
      = decide (0 < dashes) := by
    rw [@List.length_append _ (List.replicate dashes _), List.length_replicate]
    exact decide_eq_decide.2 Nat.lt_add_left_iff_pos
  rw [haligned]
  rcases precision with _ | digits
  · have hnone : s.places ++ last = last := rfl
    rcases conversion with _ | c
    · obtain rfl := hend rfl
      rfl
    · have hc : c ≠ '.' := hpoint rfl c rfl
      have hhead : s.places ++ last = c :: rest := rfl
      simp [hhead, hc, s, Spelling.directive]
  · have hsome : s.places ++ last = '.' :: (digits ++ last) := rfl
    have hread : readCount (digits ++ last) = (Spelling.number digits, last) :=
      readCount_append (hprecision digits rfl) hlast
    rw [hsome]
    simp only [hread]
    rcases conversion with _ | c
    · obtain rfl := hend rfl
      rfl
    · rfl

theorem stops_dropWhile (p : Char → Bool) (cs : List Char) :
    ∀ c ∈ (cs.dropWhile p).head?, p c = false := by
  intro c hc
  have hhead := List.head?_dropWhile_not p cs
  rwa [Option.mem_def.1 hc] at hhead

/-- Behind a `%` there is always a directive, and something behind it. -/
theorem exists_spelling (cs : List Char) : ∃ s : Spelling, ∃ rest : List Char,
    s.Proper ∧ (s.conversion = none → rest = []) ∧ cs = s.chars ++ rest := by
  let dashes := cs.takeWhile (· = '-')
  let body := cs.dropWhile (· = '-')
  have hdashes : dashes = List.replicate dashes.length '-' :=
    List.eq_replicate_of_mem fun c hc =>
      of_decide_eq_true (List.mem_takeWhile_imp (p := fun c => decide (c = '-')) hc)
  have hcs : cs = List.replicate dashes.length '-' ++ body := by
    rw [← hdashes]
    exact List.takeWhile_append_dropWhile.symm
  have hbody : body = body.takeWhile Char.isDigit ++ body.dropWhile Char.isDigit :=
    List.takeWhile_append_dropWhile.symm
  have hwidth : ∀ c ∈ body.takeWhile Char.isDigit, c.isDigit = true :=
    fun c hc => List.mem_takeWhile_imp hc
  have hstop := stops_dropWhile Char.isDigit body
  generalize body.takeWhile Char.isDigit = width at hbody hwidth
  generalize body.dropWhile Char.isDigit = behind at hbody hstop
  rcases behind with _ | ⟨c, tail⟩
  · exact ⟨⟨dashes.length, width, none, none⟩, [], ⟨hwidth, nofun, nofun, nofun, nofun⟩, fun _ => rfl,
      by simp [Spelling.chars, Spelling.places, hcs, hbody]⟩
  · by_cases hc : c = '.'
    · subst hc
      have htail : tail = tail.takeWhile Char.isDigit ++ tail.dropWhile Char.isDigit :=
        List.takeWhile_append_dropWhile.symm
      have hdigits : ∀ c ∈ tail.takeWhile Char.isDigit, c.isDigit = true :=
        fun c hc => List.mem_takeWhile_imp hc
      have hstop := stops_dropWhile Char.isDigit tail
      generalize tail.takeWhile Char.isDigit = digits at htail hdigits
      generalize tail.dropWhile Char.isDigit = last at htail hstop
      refine ⟨⟨dashes.length, width, some digits, last.head?⟩, last.tail,
        ⟨hwidth, ?_, hstop, nofun, nofun⟩, fun hnone => ?_, ?_⟩
      · rintro _ ⟨⟩
        exact hdigits
      · rw [List.head?_eq_none_iff.1 hnone]
        rfl
      · rw [hcs, hbody, htail]
        cases last <;> simp [Spelling.chars, Spelling.places]
    · refine ⟨⟨dashes.length, width, none, some c⟩, tail, ⟨hwidth, nofun, hstop, ?_, ?_⟩, nofun, ?_⟩
      · rintro - _ ⟨⟩
        exact hc
      · rintro rfl - _ ⟨⟩
        refine of_decide_eq_false (stops_dropWhile (· = '-') cs c ?_)
        rw [show cs.dropWhile (· = '-') = c :: tail from hbody]
        rfl
      · rw [hcs, hbody]
        simp [Spelling.chars, Spelling.places]

theorem pieces_literal (hc : c ≠ '%') (rest : List Char) :
    pieces (c :: rest) = .literal c :: pieces rest := by
  unfold pieces
  rw [piecesFrom, if_neg hc]

theorem piecesFrom_append (skipped rest : List Char) :
    piecesFrom skipped.length (skipped ++ rest) = pieces rest := by
  induction skipped with
  | nil => rfl
  | cons c skipped ih => exact ih

theorem pieces_directive (hs : s.Proper) (hend : s.conversion = none → rest = []) :
    pieces ('%' :: (s.chars ++ rest)) = .directive s.directive :: pieces rest := by
  have hskip : (s.chars ++ rest).length - rest.length = s.chars.length := by
    rw [List.length_append, Nat.add_sub_cancel]
  unfold pieces
  rw [piecesFrom, if_pos rfl, readDirective_append hs hend]
  dsimp only
  rw [hskip, piecesFrom_append]
  rfl

/-- The reader finds the one reading that a template has. -/
theorem reads_iff : Reads cs ps ↔ ps = pieces cs := by
  refine ⟨fun h => ?_, fun h => h ▸ ?_⟩
  · induction h with
    | done => rfl
    | literal hc _ ih => rw [ih, pieces_literal hc]
    | directive hs hend _ ih => rw [ih, pieces_directive hs hend]
  · -- A directive takes several characters, so the induction is on the length.
    clear h
    induction hn : cs.length using Nat.strongRecOn generalizing cs with
    | ind n ih =>
      subst hn
      cases cs with
      | nil => exact .done
      | cons c cs =>
        by_cases hc : c = '%'
        · subst hc
          obtain ⟨s, rest, hs, hend, rfl⟩ := exists_spelling cs
          rw [pieces_directive hs hend]
          refine .directive hs hend (ih _ ?_ rfl)
          rw [List.length_cons, List.length_append]
          exact Nat.lt_succ_of_le (Nat.le_add_left ..)
        · rw [pieces_literal hc]
          exact .literal hc (ih _ (Nat.lt_succ_self _) rfl)

end Template

end ReactiveView
