import ReactiveView.Proofs.Expr.Trail
import ReactiveView.Proofs.Store.Changes

/-!
This module contains what the result of an evaluation depends on. The trail lists the attributes
that were read by name. Beside them an evaluation can glance at an object: by a subscript, by a
membership test, and by asking for its length. What it glances at is not listed.

The main statement is that reads and glances together determine an evaluation: its result, the
attributes that it reads and the calls that it records. The reads alone do not.
-/

namespace ReactiveView

/--
A look at an object that leaves no trail.
-/
inductive Glance where
  /-- The value of an attribute, by a subscript. -/
  | item (o : ObjectRef) (name : String)
  /-- Whether there is an attribute, by a membership test. -/
  | member (o : ObjectRef) (name : String)
  /-- How many attributes there are. -/
  | count (o : ObjectRef)
  deriving DecidableEq

namespace Store

variable (store store' : Store)

/-- Two stores give attributes the same values, or lack them both. -/
def AgreeOn (reads : List Dependency) : Prop :=
  ∀ d ∈ reads, store'.get? d.object d.attr = store.get? d.object d.attr

/-- Two stores look the same at a glance. -/
def LookAlike : Glance → Prop
  | .item o name => store'.get? o name = store.get? o name
  | .member o name => store'.has o name = store.has o name
  | .count o => (store'.attrs o).size = (store.attrs o).size

variable {store store'}

theorem AgreeOn.of_prefix {ds ds' : List Dependency} (h : store.AgreeOn store' ds')
    (hp : ds <+: ds') : store.AgreeOn store' ds :=
  fun d hd => h d (hp.subset hd)

end Store

namespace Eval

variable {α β : Type}

/-- What two steps glance at: the first one, and what follows it if it succeeds. -/
def followedBy (glances : Trail → List Glance) (x : Eval α) (f : α → Trail → List Glance)
    (t : Trail) : List Glance :=
  glances t ++ match on x t with
    | (.ok a, t') => f a t'
    | (.error _, _) => []

/-- What a subscript glances at. -/
def itemGlances : Value → Value → List Glance
  | .object o, .str name => [.item o name]
  | _, _ => []

/-- What a membership test glances at. -/
def memberGlances : Value → Value → List Glance
  | .object o, .str name => [.member o name]
  | _, _ => []

/-- What a comparison glances at. -/
def compareGlances (op : CompareOp) (a b : Value) : List Glance :=
  match op with
  | .isIn => memberGlances b a
  | .notIn => memberGlances b a
  | _ => []

/-- What a call glances at. -/
def callGlances : Value → List Value → List Glance
  | .function (.builtin .len), [.object o] => [.count o]
  | _, _ => []

end Eval

open Eval

mutual

/-- What evaluating an expression glances at, from a trail. -/
def Expr.glances (store : Store) (scope : Scope) : Expr → Trail → List Glance
  | .literal _ => fun _ => []
  | .name _ => fun _ => []
  | .attr object _ => object.glances store scope
  | .item object index =>
    followedBy (object.glances store scope) (object.eval store scope) fun v =>
      followedBy (index.glances store scope) (index.eval store scope) fun i _ => itemGlances v i
  | .call function arguments =>
    followedBy (function.glances store scope) (function.eval store scope) fun f =>
      followedBy (glancesAll store scope arguments) (evalAll store scope arguments) fun vs _ =>
        callGlances f vs
  | .list items => glancesAll store scope items
  | .unary _ e => e.glances store scope
  | .binary _ a b =>
    followedBy (a.glances store scope) (a.eval store scope) fun _ => b.glances store scope
  | .compare first links =>
    followedBy (first.glances store scope) (first.eval store scope) fun v =>
      glancesLinks store scope v links
  | .and a b =>
    followedBy (a.glances store scope) (a.eval store scope) fun v =>
      if v.truthy then b.glances store scope else fun _ => []
  | .or a b =>
    followedBy (a.glances store scope) (a.eval store scope) fun v =>
      if v.truthy then fun _ => [] else b.glances store scope
  | .ite test body orelse =>
    followedBy (test.glances store scope) (test.eval store scope) fun v =>
      if v.truthy then body.glances store scope else orelse.glances store scope

/-- What evaluating several expressions glances at. -/
def glancesAll (store : Store) (scope : Scope) : List Expr → Trail → List Glance
  | [] => fun _ => []
  | e :: rest =>
    followedBy (e.glances store scope) (e.eval store scope) fun _ => glancesAll store scope rest

/-- What a chain of comparisons glances at. -/
def glancesLinks (store : Store) (scope : Scope) (left : Value) :
    List (CompareOp × Expr) → Trail → List Glance
  | [] => fun _ => []
  | (op, e) :: rest =>
    followedBy (e.glances store scope) (e.eval store scope) fun right =>
      followedBy (fun _ => compareGlances op left right)
        (ExceptT.mk (pure (Eval.compare store op left right))) fun holds =>
        if holds then glancesLinks store scope right rest else fun _ => []

end

namespace Eval

variable {α β : Type} {store store' : Store}

/-- A computation comes out the same in another store if that agrees on what the computation reads
and looks the same where it glances. -/
def Follows (store store' : Store) (glances : Trail → List Glance) (x x' : Eval α) : Prop :=
  ∀ t, store.AgreeOn store' (on x t).2.reads → (∀ g ∈ glances t, store.LookAlike store' g) →
    on x' t = on x t

theorem follows_refl (glances : Trail → List Glance) (x : Eval α) :
    Follows store store' glances x x := fun _ _ _ => rfl

/-- One step after the other: what the first one reads is among what both read. -/
theorem Follows.bind {x x' : Eval α} {f f' : α → Eval β} {glances : Trail → List Glance}
    {rest : α → Trail → List Glance} (hx : Follows store store' glances x x')
    (hgrows : ∀ a, Grows (f a)) (hf : ∀ a, Follows store store' (rest a) (f a) (f' a)) :
    Follows store store' (followedBy glances x rest) (x >>= f) (x' >>= f') := by
  intro t hreads hlook
  unfold followedBy at hlook
  obtain ⟨hleft, hright⟩ := List.forall_mem_append.1 hlook
  have hsame := hx t
  rw [on_bind] at hreads
  rw [on_bind, on_bind]
  revert hreads hright hsame
  rcases on x t with ⟨r, t'⟩
  intro hreads hright hsame
  cases r with
  | error e => rw [hsame hreads hleft]
  | ok a =>
    rw [hsame (hreads.of_prefix (hgrows a t').1) hleft]
    exact hf a t' hreads hright

/-- The last step glances at nothing. -/
theorem Follows.bind_last {x x' : Eval α} {f f' : α → Eval β} {glances : Trail → List Glance}
    (hx : Follows store store' glances x x') (hgrows : ∀ a, Grows (f a))
    (hf : ∀ a, Follows store store' (fun _ => []) (f a) (f' a)) :
    Follows store store' glances (x >>= f) (x' >>= f') := by
  have hnone : followedBy glances x (fun _ _ => []) = glances := by
    funext t
    unfold followedBy
    split <;> exact List.append_nil _
  rw [← hnone]
  exact hx.bind hgrows hf

theorem follows_attrOf (v : Value) (name : String) :
    Follows store store' (fun _ => []) (attrOf store v name) (attrOf store' v name) := by
  intro t hreads _
  cases v with
  | object o =>
    obtain ⟨d, hd, hid, rfl⟩ := mem_reads_noteRead o name t
    have hmem : d ∈ (on (attrOf store (.object o) d.attr) t).2.reads := by
      unfold attrOf
      rw [on_bind]
      cases store.get? o d.attr with
      | none => exact (grows_throw _ _).1.subset hd
      | some v => exact (grows_pure v _).1.subset hd
    have hsame : store'.get? o d.attr = store.get? o d.attr := by
      rw [Store.get?_congr hid.symm, Store.get?_congr hid.symm]
      exact hreads d hmem
    unfold attrOf
    dsimp only
    rw [hsame]
  | _ => rfl

theorem follows_item (v i : Value) :
    Follows store store' (fun _ => itemGlances v i) (item store v i) (item store' v i) := by
  intro t _ hlook
  cases v with
  | object o =>
    cases i with
    | str name =>
      have hsame : store'.get? o name = store.get? o name := hlook (.item o name) (by
        simp [itemGlances])
      unfold item
      dsimp only
      rw [hsame]
    | _ => rfl
  | _ => rfl

theorem contains_congr (container v : Value)
    (hlook : ∀ g ∈ memberGlances container v, store.LookAlike store' g) :
    Eval.contains store' container v = Eval.contains store container v := by
  unfold Eval.contains
  split
  · rfl
  · rfl
  · next o name =>
    have hsame : store'.has o name = store.has o name :=
      hlook (.member o name) (List.mem_singleton_self _)
    rw [hsame]
  · rfl

theorem compare_congr (op : CompareOp) (v w : Value)
    (hlook : ∀ g ∈ compareGlances op v w, store.LookAlike store' g) :
    Eval.compare store' op v w = Eval.compare store op v w := by
  unfold Eval.compare
  cases op with
  | isIn => exact contains_congr w v hlook
  | notIn =>
    dsimp only
    rw [contains_congr w v hlook]
  | _ => rfl

theorem apply_congr (b : Builtin) (vs : List Value)
    (hlook : ∀ g ∈ callGlances (.function (.builtin b)) vs, store.LookAlike store' g) :
    b.apply store' vs = b.apply store vs := by
  unfold Builtin.apply
  split
  -- Only the length of an object looks into the store.
  all_goals try rfl
  next _ o =>
    have hsame : (store'.attrs o).size = (store.attrs o).size :=
      hlook (.count o) (List.mem_singleton_self _)
    rw [hsame]

theorem follows_call (f : Function) (vs : List Value) :
    Follows store store' (fun _ => callGlances (.function f) vs) (call store f vs)
      (call store' f vs) := by
  intro t _ hlook
  unfold call
  cases f with
  | builtin b =>
    dsimp only
    rw [apply_congr b vs hlook]
  | method _ _ _ => rfl
  | host f => cases f <;> rfl

theorem follows_compare (op : CompareOp) (v w : Value) :
    Follows store store' (fun _ => compareGlances op v w)
      (ExceptT.mk (pure (Eval.compare store op v w)))
      (ExceptT.mk (pure (Eval.compare store' op v w))) := by
  intro t _ hlook
  rw [compare_congr op v w hlook]

end Eval

section

variable {store store' : Store} (scope : Scope)

mutual

theorem Expr.follows_eval : ∀ e : Expr,
    Follows store store' (e.glances store scope) (e.eval store scope) (e.eval store' scope)
  | .literal _ => follows_refl _ _
  | .name _ => follows_refl _ _
  | .attr object name => by
    unfold Expr.eval Expr.glances
    exact object.follows_eval.bind_last (fun v => grows_attrOf store v name)
      fun v => follows_attrOf v name
  | .item object index => by
    unfold Expr.eval Expr.glances
    refine object.follows_eval.bind
      (fun v => (index.grows_eval store scope).bind fun i => grows_item store v i) fun v => ?_
    exact index.follows_eval.bind (fun i => grows_item store v i) fun i => follows_item v i
  | .call function arguments => by
    have hgrows (f : Value) (vs : List Value) : Grows (match f with
        | .function f => Eval.call store f vs
        | v => throw (.type (.notCallable v.typeName))) := by
      split
      · exact grows_call store _ vs
      · exact grows_throw _
    unfold Expr.eval Expr.glances
    refine function.follows_eval.bind
      (fun f => (grows_evalAll store scope arguments).bind fun vs => hgrows f vs) fun f => ?_
    refine (follows_evalAll arguments).bind (fun vs => hgrows f vs) fun vs => ?_
    cases f with
    | function f => exact follows_call f vs
    | _ => exact follows_refl _ _
  | .list items => by
    unfold Expr.eval Expr.glances
    exact (follows_evalAll items).bind_last (fun _ => grows_pure _) fun _ => follows_refl _ _
  | .unary op e => by
    unfold Expr.eval Expr.glances
    exact e.follows_eval.bind_last (fun _ => grows_result _) fun _ => follows_refl _ _
  | .binary op a b => by
    unfold Expr.eval Expr.glances
    refine a.follows_eval.bind
      (fun _ => (b.grows_eval store scope).bind fun _ => grows_result _) fun v => ?_
    exact b.follows_eval.bind_last (fun _ => grows_result _) fun _ => follows_refl _ _
  | .compare first links => by
    unfold Expr.eval Expr.glances
    refine first.follows_eval.bind
      (fun v => (grows_evalLinks store scope v links).bind fun _ => grows_pure _) fun v => ?_
    exact (follows_evalLinks v links).bind_last (fun _ => grows_pure _) fun _ => follows_refl _ _
  | .and a b => by
    unfold Expr.eval Expr.glances
    refine a.follows_eval.bind (fun v => ?_) fun v => ?_
    · split
      · exact b.grows_eval store scope
      · exact grows_pure _
    · split
      · exact b.follows_eval
      · exact follows_refl _ _
  | .or a b => by
    unfold Expr.eval Expr.glances
    refine a.follows_eval.bind (fun v => ?_) fun v => ?_
    · split
      · exact grows_pure _
      · exact b.grows_eval store scope
    · split
      · exact follows_refl _ _
      · exact b.follows_eval
  | .ite test body orelse => by
    unfold Expr.eval Expr.glances
    refine test.follows_eval.bind (fun v => ?_) fun v => ?_
    · split
      · exact body.grows_eval store scope
      · exact orelse.grows_eval store scope
    · split
      · exact body.follows_eval
      · exact orelse.follows_eval

theorem follows_evalAll : ∀ es : List Expr,
    Follows store store' (glancesAll store scope es) (evalAll store scope es)
      (evalAll store' scope es)
  | [] => follows_refl _ _
  | e :: rest => by
    unfold evalAll glancesAll
    refine e.follows_eval.bind
      (fun _ => (grows_evalAll store scope rest).bind fun _ => grows_pure _) fun v => ?_
    exact (follows_evalAll rest).bind_last (fun _ => grows_pure _) fun _ => follows_refl _ _

theorem follows_evalLinks : ∀ (left : Value) (links : List (CompareOp × Expr)),
    Follows store store' (glancesLinks store scope left links) (evalLinks store scope left links)
      (evalLinks store' scope left links)
  | _, [] => follows_refl _ _
  | left, (op, e) :: rest => by
    have hgrows (right : Value) (holds : Bool) :
        Grows (if holds then evalLinks store scope right rest else pure false) := by
      split
      · exact grows_evalLinks store scope right rest
      · exact grows_pure _
    unfold evalLinks glancesLinks
    refine e.follows_eval.bind
      (fun right => (grows_result _).bind fun holds => hgrows right holds) fun right => ?_
    refine (follows_compare op left right).bind (fun holds => hgrows right holds) fun holds => ?_
    split
    · exact follows_evalLinks right rest
    · exact follows_refl _ _

end

end

/-- Reads and glances determine an evaluation: in a store that agrees on all attributes read and
looks the same at every glance, it has the same result, reads the same attributes and records the
same calls. -/
theorem Expr.run_congr (e : Expr) (store store' : Store) (scope : Scope) (fresh : Nat)
    (hreads : store.AgreeOn store' (e.run store scope fresh).2.reads)
    (hglances : ∀ g ∈ e.glances store scope { fresh }, store.LookAlike store' g) :
    e.run store' scope fresh = e.run store scope fresh :=
  e.follows_eval scope { fresh } hreads hglances

/-- A store of one object, with the attributes `x` and `y`. -/
def pairStore (x y : Int) : Store :=
  { objects := #[⟨"Pair", .open, Table.ofList [("x", .int x), ("y", .int y)], true⟩] }

/-- A scope in which `o` is the first object. -/
def pairScope : Scope := { layers := [Table.ofList [("o", .object ⟨0, "Pair"⟩)]] }

/-- `o.x if 'y' in o else o['y']` -/
def branchOnMember : Expr :=
  .ite (.compare (.literal (.str "y")) [(.isIn, .name "o")]) (.attr (.name "o") "x")
    (.item (.name "o") (.literal (.str "y")))

theorem Expr.run_congr_branchOnMember :
    branchOnMember.run (pairStore 1 3) pairScope 0
      = (.ok (.int 1), { fresh := 0, reads := [⟨⟨0, "Pair"⟩, "x"⟩] })
    ∧ branchOnMember.glances (pairStore 1 2) pairScope { fresh := 0 }
      = [.member ⟨0, "Pair"⟩ "y"] := by
  have hglances : branchOnMember.glances (pairStore 1 2) pairScope { fresh := 0 }
      = [.member ⟨0, "Pair"⟩ "y"] := by rfl
  refine ⟨?_, hglances⟩
  refine (branchOnMember.run_congr (pairStore 1 2) (pairStore 1 3) pairScope 0 ?_ ?_).trans rfl
  · intro d hd
    obtain rfl := List.mem_singleton.1 hd
    rfl
  · rw [hglances]
    intro g hg
    obtain rfl := List.mem_singleton.1 hg
    rfl

/-- The reads alone do not determine an evaluation: `o['x']` reads nothing by name. -/
theorem Expr.not_run_congr_of_reads :
    ¬ ∀ (e : Expr) (store store' : Store) (scope : Scope) (fresh : Nat),
      store.AgreeOn store' (e.run store scope fresh).2.reads →
        e.run store' scope fresh = e.run store scope fresh := by
  intro h
  have hsame := h (.item (.name "o") (.literal (.str "x"))) (pairStore 1 0) (pairStore 2 0)
    pairScope 0 (fun _ hd => by cases hd)
  have hresult : (.ok (.int 2) : Except EvalError Value) = .ok (.int 1) := congrArg Prod.fst hsame
  cases hresult

end ReactiveView
