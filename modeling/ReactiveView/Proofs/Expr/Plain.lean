import ReactiveView.Proofs.Expr.Tracking
import ReactiveView.Proofs.Value.Renaming

/-!
This module contains the expressions that look into objects by name only: those without subscripts,
membership tests and calls. Their evaluation leaves all of its traces in the list of reads, and it
works the same from whatever number on it counts the functions that it makes.
-/

namespace ReactiveView

mutual

/-- An expression without subscripts, membership tests and calls. -/
def Expr.isPlain : Expr → Bool
  | .literal _ => true
  | .name _ => true
  | .attr object _ => object.isPlain
  | .item _ _ => false
  | .call _ _ => false
  | .list items => allPlain items
  | .unary _ e => e.isPlain
  | .binary _ a b => a.isPlain && b.isPlain
  | .compare first links => first.isPlain && linksPlain links
  | .and a b => a.isPlain && b.isPlain
  | .or a b => a.isPlain && b.isPlain
  | .ite test body orelse => test.isPlain && body.isPlain && orelse.isPlain

/-- Expressions without subscripts, membership tests and calls. -/
def allPlain : List Expr → Bool
  | [] => true
  | e :: rest => e.isPlain && allPlain rest

/-- Comparisons without subscripts, membership tests and calls. -/
def linksPlain : List (CompareOp × Expr) → Bool
  | [] => true
  | (op, e) :: rest => op != .isIn && op != .notIn && e.isPlain && linksPlain rest

end

open Eval

/-! ### What a plain expression glances at -/

theorem followedBy_eq_nil {α : Type} {glances : Trail → List Glance} {x : Eval α}
    {f : α → Trail → List Glance} (hleft : ∀ t, glances t = []) (hright : ∀ a t, f a t = [])
    (t : Trail) : followedBy glances x f t = [] := by
  unfold followedBy
  rw [hleft]
  split
  · rw [hright]
    rfl
  · rfl

section

variable (store : Store) (scope : Scope)

mutual

theorem Expr.glances_of_isPlain : ∀ (e : Expr), e.isPlain = true → ∀ t,
    e.glances store scope t = []
  | .literal _, _, _ => rfl
  | .name _, _, _ => rfl
  | .attr object _, h, t => by
    rw [Expr.isPlain] at h
    exact object.glances_of_isPlain h t
  | .item _ _, h, _ => by cases h
  | .call _ _, h, _ => by cases h
  | .list items, h, t => by
    rw [Expr.isPlain] at h
    exact glancesAll_of_allPlain items h t
  | .unary _ e, h, t => by
    rw [Expr.isPlain] at h
    exact e.glances_of_isPlain h t
  | .binary _ a b, h, t => by
    rw [Expr.isPlain, Bool.and_eq_true] at h
    unfold Expr.glances
    exact followedBy_eq_nil (a.glances_of_isPlain h.1) (fun _ => b.glances_of_isPlain h.2) t
  | .compare first links, h, t => by
    rw [Expr.isPlain, Bool.and_eq_true] at h
    unfold Expr.glances
    exact followedBy_eq_nil (first.glances_of_isPlain h.1)
      (fun v => glancesLinks_of_linksPlain v links h.2) t
  | .and a b, h, t => by
    rw [Expr.isPlain, Bool.and_eq_true] at h
    unfold Expr.glances
    refine followedBy_eq_nil (a.glances_of_isPlain h.1) (fun v t => ?_) t
    split
    · exact b.glances_of_isPlain h.2 t
    · rfl
  | .or a b, h, t => by
    rw [Expr.isPlain, Bool.and_eq_true] at h
    unfold Expr.glances
    refine followedBy_eq_nil (a.glances_of_isPlain h.1) (fun v t => ?_) t
    split
    · rfl
    · exact b.glances_of_isPlain h.2 t
  | .ite test body orelse, h, t => by
    rw [Expr.isPlain, Bool.and_eq_true, Bool.and_eq_true] at h
    unfold Expr.glances
    refine followedBy_eq_nil (test.glances_of_isPlain h.1.1) (fun v t => ?_) t
    split
    · exact body.glances_of_isPlain h.1.2 t
    · exact orelse.glances_of_isPlain h.2 t

theorem glancesAll_of_allPlain : ∀ (es : List Expr), allPlain es = true → ∀ t,
    glancesAll store scope es t = []
  | [], _, _ => rfl
  | e :: rest, h, t => by
    rw [allPlain, Bool.and_eq_true] at h
    unfold glancesAll
    exact followedBy_eq_nil (e.glances_of_isPlain h.1) (fun _ => glancesAll_of_allPlain rest h.2) t

theorem glancesLinks_of_linksPlain : ∀ (left : Value) (links : List (CompareOp × Expr)),
    linksPlain links = true → ∀ t, glancesLinks store scope left links t = []
  | _, [], _, _ => rfl
  | left, (op, e) :: rest, h, t => by
    rw [linksPlain, Bool.and_eq_true, Bool.and_eq_true, Bool.and_eq_true] at h
    obtain ⟨⟨⟨hin, hnot⟩, he⟩, hrest⟩ := h
    have hcompare (a b : Value) : compareGlances op a b = [] := by
      cases op with
      | isIn => cases hin
      | notIn => cases hnot
      | _ => rfl
    unfold glancesLinks
    refine followedBy_eq_nil (e.glances_of_isPlain he) (fun right => ?_) t
    refine followedBy_eq_nil (fun _ => hcompare left right) fun holds t => ?_
    split
    · exact glancesLinks_of_linksPlain right rest hrest t
    · rfl

end

end

/-- The reads alone determine the evaluation of a plain expression. -/
theorem Expr.run_congr_of_isPlain {e : Expr} (he : e.isPlain = true) {store store' : Store}
    {scope : Scope} {fresh : Nat}
    (hreads : store.AgreeOn store' (e.run store scope fresh).2.reads) :
    e.run store' scope fresh = e.run store scope fresh := by
  refine e.follows_eval scope { fresh } hreads fun g hg => ?_
  rw [e.glances_of_isPlain store scope he] at hg
  cases hg

end ReactiveView
