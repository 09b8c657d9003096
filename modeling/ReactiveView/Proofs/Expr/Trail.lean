import ReactiveView.Expr.Eval

/-!
This module contains how evaluation runs from a trail: what each part of a computation leaves
behind, that reads are only ever added, and that no attribute is read twice.
-/

namespace ReactiveView

/-- No attribute is among the reads twice. -/
def Trail.Once (t : Trail) : Prop :=
  t.reads.Pairwise fun d e => ¬(d.object.id = e.object.id ∧ d.attr = e.attr)

/-- The other trail has more reads at the end, none of them twice, and has counted on. -/
structure Trail.Grown (t t' : Trail) : Prop where
  reads : t.reads <+: t'.reads
  fresh : t.fresh ≤ t'.fresh
  once : t.Once → t'.Once

theorem Trail.Grown.trans {t t' t'' : Trail} (h : t.Grown t') (h' : t'.Grown t'') :
    t.Grown t'' :=
  ⟨h.reads.trans h'.reads, Nat.le_trans h.fresh h'.fresh, fun ht => h'.once (h.once ht)⟩

namespace Eval

variable {α β : Type}

/-- The result of a computation that starts from a trail, and the trail behind it. -/
def on (x : Eval α) (t : Trail) : Except EvalError α × Trail := x.run.run t

@[simp]
theorem on_pure (a : α) (t : Trail) : on (pure a) t = (.ok a, t) := rfl

@[simp]
theorem on_result (r : Except EvalError α) (t : Trail) :
    on (ExceptT.mk (pure r) : Eval α) t = (r, t) := rfl

@[simp]
theorem on_modify (f : Trail → Trail) (t : Trail) :
    on (modify f : Eval PUnit) t = (.ok ⟨⟩, f t) := rfl

theorem on_bind (x : Eval α) (f : α → Eval β) (t : Trail) :
    on (x >>= f) t =
      match on x t with
      | (.ok a, t') => on (f a) t'
      | (.error e, t') => (.error e, t') := by
  unfold on ExceptT.run StateT.run
  simp only [bind, ExceptT.bind, ExceptT.mk, StateT.bind, ExceptT.bindCont]
  rcases x t with ⟨r, t'⟩
  cases r <;> rfl

/-- The computation adds reads at the end and counts on. -/
def Grows (x : Eval α) : Prop := ∀ t : Trail, t.Grown (on x t).2

theorem grows_of_same {x : Eval α}
    (h : ∀ t, (on x t).2.reads = t.reads ∧ t.fresh ≤ (on x t).2.fresh) : Grows x := by
  intro t
  refine ⟨(h t).1.symm ▸ List.prefix_rfl, (h t).2, fun ht => ?_⟩
  unfold Trail.Once
  rwa [(h t).1]

theorem Grows.bind {x : Eval α} {f : α → Eval β} (hx : Grows x) (hf : ∀ a, Grows (f a)) :
    Grows (x >>= f) := by
  intro t
  have h := hx t
  rw [on_bind]
  split
  · next a t' heq =>
    rw [heq] at h
    exact h.trans (hf a t')
  · next e t' heq =>
    rw [heq] at h
    exact h

theorem grows_pure (a : α) : Grows (pure a : Eval α) := grows_of_same fun _ => ⟨rfl, Nat.le_refl _⟩

theorem grows_throw (e : EvalError) : Grows (throw e : Eval α) := grows_of_same fun _ => ⟨rfl, Nat.le_refl _⟩

theorem grows_result (r : Except EvalError α) : Grows (ExceptT.mk (pure r) : Eval α) :=
  grows_of_same fun _ => ⟨rfl, Nat.le_refl _⟩

theorem grows_noteRead (o : ObjectRef) (attr : String) : Grows (noteRead o attr) := by
  intro t
  unfold noteRead
  rw [on_modify]
  dsimp only
  split
  · exact ⟨List.prefix_rfl, Nat.le_refl _, id⟩
  · next hnew =>
    refine ⟨List.prefix_append _ _, Nat.le_refl _, fun ht => ?_⟩
    refine List.pairwise_append.2 ⟨ht, List.pairwise_singleton _ _, fun d hd e he hsame => ?_⟩
    cases List.mem_singleton.1 he
    exact hnew (List.any_eq_true.2 ⟨d, hd, by simpa using hsame⟩)

/-- A read that is noted is among the reads. -/
theorem mem_reads_noteRead (o : ObjectRef) (attr : String) (t : Trail) :
    ∃ d ∈ (on (noteRead o attr) t).2.reads, d.object.id = o.id ∧ d.attr = attr := by
  unfold noteRead
  rw [on_modify]
  dsimp only
  split
  · next h =>
    obtain ⟨d, hd, hsame⟩ := List.any_eq_true.1 h
    exact ⟨d, hd, by simpa using hsame⟩
  · exact ⟨⟨o, attr⟩, by simp, rfl, rfl⟩

theorem grows_attrOf (store : Store) (v : Value) (name : String) :
    Grows (attrOf store v name) := by
  unfold attrOf
  split
  · refine (grows_noteRead _ _).bind fun _ => ?_
    split
    · exact grows_pure _
    · exact grows_throw _
  · split
    · exact grows_of_same fun _ => ⟨rfl, Nat.le_succ _⟩
    · exact grows_throw _
  · exact grows_throw _

theorem grows_item (store : Store) (v index : Value) : Grows (item store v index) := by
  unfold item
  split
  · exact (grows_result _).bind fun _ => grows_pure _
  · exact (grows_result _).bind fun _ => grows_pure _
  · split
    · split
      · exact grows_pure _
      · exact grows_throw _
    · exact grows_throw _
  · exact grows_throw _

theorem grows_call (store : Store) (f : Function) (arguments : List Value) :
    Grows (call store f arguments) := by
  unfold call
  split
  · exact grows_result _
  · exact grows_result _
  · exact (grows_of_same fun _ => ⟨rfl, Nat.le_refl _⟩).bind fun _ => grows_pure _
  · exact grows_throw _

end Eval

open Eval

mutual

theorem Expr.grows_eval (store : Store) (scope : Scope) :
    ∀ e : Expr, Grows (e.eval store scope)
  | .literal _ => grows_pure _
  | .name s => by
    unfold Expr.eval
    split
    · exact grows_pure _
    · exact grows_throw _
  | .attr object name => by
    unfold Expr.eval
    exact (object.grows_eval store scope).bind fun v => grows_attrOf store v name
  | .item object index => by
    unfold Expr.eval
    exact (object.grows_eval store scope).bind fun v =>
      (index.grows_eval store scope).bind fun i => grows_item store v i
  | .call function arguments => by
    unfold Expr.eval
    refine (function.grows_eval store scope).bind fun f =>
      (grows_evalAll store scope arguments).bind fun vs => ?_
    split
    · exact grows_call store _ vs
    · exact grows_throw _
  | .list items => by
    unfold Expr.eval
    exact (grows_evalAll store scope items).bind fun _ => grows_pure _
  | .unary op e => by
    unfold Expr.eval
    exact (e.grows_eval store scope).bind fun _ => grows_result _
  | .binary op a b => by
    unfold Expr.eval
    exact (a.grows_eval store scope).bind fun _ =>
      (b.grows_eval store scope).bind fun _ => grows_result _
  | .compare first links => by
    unfold Expr.eval
    exact (first.grows_eval store scope).bind fun v =>
      (grows_evalLinks store scope v links).bind fun _ => grows_pure _
  | .and a b => by
    unfold Expr.eval
    refine (a.grows_eval store scope).bind fun v => ?_
    split
    · exact b.grows_eval store scope
    · exact grows_pure _
  | .or a b => by
    unfold Expr.eval
    refine (a.grows_eval store scope).bind fun v => ?_
    split
    · exact grows_pure _
    · exact b.grows_eval store scope
  | .ite test body orelse => by
    unfold Expr.eval
    refine (test.grows_eval store scope).bind fun v => ?_
    split
    · exact body.grows_eval store scope
    · exact orelse.grows_eval store scope

theorem grows_evalAll (store : Store) (scope : Scope) :
    ∀ es : List Expr, Grows (evalAll store scope es)
  | [] => grows_pure _
  | e :: rest => by
    unfold evalAll
    exact (e.grows_eval store scope).bind fun _ =>
      (grows_evalAll store scope rest).bind fun _ => grows_pure _

theorem grows_evalLinks (store : Store) (scope : Scope) :
    ∀ (left : Value) (links : List (CompareOp × Expr)), Grows (evalLinks store scope left links)
  | _, [] => grows_pure _
  | left, (op, e) :: rest => by
    unfold evalLinks
    refine (e.grows_eval store scope).bind fun right => (grows_result _).bind fun holds => ?_
    split
    · exact grows_evalLinks store scope right rest
    · exact grows_pure _

end

theorem Expr.once_run (e : Expr) (store : Store) (scope : Scope) (fresh : Nat) :
    (e.run store scope fresh).2.Once :=
  (e.grows_eval store scope { fresh }).once .nil

end ReactiveView
