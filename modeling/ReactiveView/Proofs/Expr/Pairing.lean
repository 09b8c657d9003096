import ReactiveView.Proofs.Table.Ascending
import ReactiveView.Proofs.Value.Pairing
import Mathlib

/-!
This module contains that an expression comes to the same in two stores and scopes that are the same
but for the objects and methods in them, as far as its names lead. It reads the same attributes then,
of objects that stand for each other.
-/

namespace ReactiveView

variable {P : Pairing}

/-! ### Stores -/

variable (P) in
/-- The same names with values that are the same but for objects and methods. -/
def Namespace.Alike (t t' : Namespace) : Prop :=
  List.Forall₂ (fun e e' => e'.1 = e.1 ∧ e.2.Alike P e'.2) t.entries t'.entries

namespace Namespace.Alike

variable {t t' : Namespace}

theorem lookup {l l' : List (String × Value)}
    (h : List.Forall₂ (fun e e' => e'.1 = e.1 ∧ e.2.Alike P e'.2) l l') (k : String) :
    Option.Rel (Value.Alike P) (Table.lookup k l) (Table.lookup k l') := by
  induction h with
  | nil => exact .none
  | cons hhead _ ih =>
    rw [Table.lookup, Table.lookup, hhead.1]
    split
    · exact .some hhead.2
    · exact ih

theorem get? (h : t.Alike P t') (k : String) :
    Option.Rel (Value.Alike P) (t.get? k) (t'.get? k) := lookup h k

theorem size (h : t.Alike P t') : t'.size = t.size := h.length_eq.symm

end Namespace.Alike

variable (P) in
/-- An object of the same class with the same attributes, up to the objects and methods in them. -/
structure Obj.Alike (x x' : Obj) : Prop where
  className : x'.className = x.className
  shape : x'.shape = x.shape
  alive : x'.alive = x.alive
  attrs : Namespace.Alike P x.attrs x'.attrs

variable (P) in
/-- Objects that stand for each other are the same, up to the objects and methods in them. -/
def Store.Alike (store store' : Store) : Prop :=
  ∀ i i', P.objects i i' → Option.Rel (Obj.Alike P) store.objects[i]? store'.objects[i']?

namespace Store.Alike

variable {store store' : Store} {o o' : ObjectRef}

theorem attrs (h : store.Alike P store') (ho : o.Alike P o') :
    Namespace.Alike P (store.attrs o) (store'.attrs o') := by
  have hobjects := h _ _ ho.id
  unfold Store.attrs
  generalize store.objects[o.id]? = x at hobjects ⊢
  generalize store'.objects[o'.id]? = x' at hobjects ⊢
  cases hobjects with
  | none => exact .nil
  | some hobj => exact hobj.attrs

theorem get? (h : store.Alike P store') (ho : o.Alike P o') (attr : String) :
    Option.Rel (Value.Alike P) (store.get? o attr) (store'.get? o' attr) :=
  (h.attrs ho).get? attr

theorem has (h : store.Alike P store') (ho : o.Alike P o') (attr : String) :
    store'.has o' attr = store.has o attr := by
  have hget := h.get? ho attr
  unfold Store.has
  generalize store.get? o attr = x at hget ⊢
  generalize store'.get? o' attr = x' at hget ⊢
  cases hget <;> rfl

end Store.Alike

/-! ### Functions -/

namespace Builtin

variable {store store' : Store} {v v' : Value} {vs vs' : List Value}

theorem extreme_alike (b : Builtin) (better : Float → Float → Bool)
    (h : List.Forall₂ (Value.Alike P) vs vs') {best best' : Option (Value × Float)}
    (hbest : Option.Rel (fun x x' => x.1.Alike P x'.1 ∧ x'.2 = x.2) best best') :
    Results (Value.Alike P) (extreme b better best vs) (extreme b better best' vs') := by
  induction h generalizing best best' with
  | nil =>
    cases hbest with
    | none => exact .error _
    | some hbest => exact .ok hbest.1
  | @cons v v' rest rest' hhead _ ih =>
    cases hbest with
    | none =>
      simp only [extreme, hhead.asFloat?, hhead.typeName]
      split
      · exact .error _
      · exact ih (.some ⟨hhead, rfl⟩)
    | @some best best' hbest =>
      obtain ⟨best, key⟩ := best
      obtain ⟨best', key'⟩ := best'
      obtain ⟨hvalue, rfl⟩ := hbest
      simp only [extreme, hhead.asFloat?, hhead.typeName]
      split
      · exact .error _
      · split
        · exact ih (.some ⟨hhead, rfl⟩)
        · exact ih (.some ⟨hvalue, rfl⟩)

theorem candidates_alike (h : List.Forall₂ (Value.Alike P) vs vs') :
    List.Forall₂ (Value.Alike P) (candidates vs) (candidates vs') := by
  cases h with
  | nil => exact .nil
  | cons hhead htail =>
    cases htail with
    | nil =>
      have hone := List.Forall₂.cons hhead .nil
      cases hhead with
      | list hitems => exact hitems
      | _ => exact hone
    | cons hnext hrest =>
      have hall := List.Forall₂.cons hhead (.cons hnext hrest)
      cases hhead <;> exact hall

theorem isBare_rounded {digits : Option Int} (h : rounded v digits = .ok v') : v'.IsBare := by
  unfold rounded at h
  split at h
  · cases h
  · split at h <;> cases h
    · exact Value.isBare_int _
    · exact Value.isBare_float _

theorem rounded_alike (h : v.Alike P v') (digits : Option Int) :
    rounded v' digits = rounded v digits := by
  unfold rounded
  rw [h.asFloat?, h.typeName]

/-- Whether a function answers something without objects and methods. -/
def AnswersBare (b : Builtin) : Prop := b ≠ min ∧ b ≠ max

theorem isBare_apply {b : Builtin} (hb : b.AnswersBare) (h : b.apply store vs = .ok v) :
    v.IsBare := by
  unfold apply at h
  split at h
  all_goals first
    | exact absurd rfl hb.1
    | exact absurd rfl hb.2
    | exact isBare_rounded h
    | (split at h <;> cases h <;> first | exact Value.isBare_int _ | exact Value.isBare_float _)
    | (cases h <;> first
        | exact Value.isBare_int _
        | exact Value.isBare_str _
        | exact Value.isBare_bool _
        | exact Value.isBare_float _)

/-- Functions of one argument. -/
theorem apply_one_alike {b : Builtin} (hb : b.AnswersBare) (hstore : store.Alike P store')
    (h : v.Alike P v') : b.apply store' [v'] = b.apply store [v] := by
  cases b with
  | min => exact absurd rfl hb.1
  | max => exact absurd rfl hb.2
  | len =>
    cases h with
    | list hitems => simp only [apply, hitems.length_eq]
    | object ho => simp only [apply, (hstore.attrs ho).size]
    | _ => rfl
  | str => simp only [apply, h.text]
  | repr => simp only [apply, Value.repr, Value.reprChars_alike v v' h]
  | bool => simp only [apply, h.truthy]
  | round => exact rounded_alike h none
  | int | float | abs => cases h <;> rfl

theorem apply_alike (b : Builtin) (hstore : store.Alike P store')
    (h : List.Forall₂ (Value.Alike P) vs vs') :
    Results (Value.Alike P) (b.apply store vs) (b.apply store' vs') := by
  by_cases hmin : b = min
  · subst hmin
    exact extreme_alike _ _ (candidates_alike h) .none
  by_cases hmax : b = max
  · subst hmax
    exact extreme_alike _ _ (candidates_alike h) .none
  have hsame : b.apply store' vs' = b.apply store vs := by
    have harity : b.wrongArity vs'.length = b.wrongArity vs.length := by rw [h.length_eq]
    cases h with
    | nil => cases b <;> first | exact absurd rfl hmin | exact absurd rfl hmax | rfl
    | cons hhead htail =>
      cases htail with
      | nil => exact apply_one_alike ⟨hmin, hmax⟩ hstore hhead
      | cons hnext hrest =>
        cases b with
        | min => exact absurd rfl hmin
        | max => exact absurd rfl hmax
        | round =>
          cases hrest with
          | nil =>
            cases hnext with
            | int d => exact rounded_alike hhead (some d)
            | _ => rfl
          | cons => cases hnext <;> rfl
        | _ => cases hhead <;> exact harity
  rw [hsame]
  exact results_of_isBare fun _ => isBare_apply ⟨hmin, hmax⟩

end Builtin

namespace Method

variable {self : String} {m : Method} {vs vs' : List Value} {v : Value}

theorem isBare_apply (h : m.apply self vs = .ok v) : v.IsBare := by
  unfold apply at h
  split at h <;> cases h <;> first | exact Value.isBare_str _ | exact Value.isBare_bool _

theorem apply_alike (h : List.Forall₂ (Value.Alike P) vs vs') :
    m.apply self vs' = m.apply self vs := by
  cases m with
  | upper | lower | strip => rfl
  | startswith | endswith =>
    cases h with
    | nil => rfl
    | cons hhead htail => cases htail <;> cases hhead <;> rfl
  | replace =>
    cases h with
    | nil => rfl
    | cons hhead htail =>
      cases htail with
      | nil => cases hhead <;> rfl
      | cons hnext hrest => cases hrest <;> cases hhead <;> cases hnext <;> rfl
  | join =>
    cases h with
    | nil => rfl
    | cons hhead htail =>
      cases htail with
      | cons => cases hhead <;> rfl
      | nil =>
        cases hhead with
        | @list vs ws hitems =>
          have htexts : ws.map Value.text = vs.map Value.text := by
            induction hitems with
            | nil => rfl
            | cons h _ ih => rw [List.map_cons, List.map_cons, h.text, ih]
          simp only [apply, htexts]
        | _ => rfl

end Method

/-! ### Names -/

mutual

/-- The names in an expression. -/
def Expr.names : Expr → List String
  | .literal _ => []
  | .name s => [s]
  | .attr object _ => object.names
  | .item object index => object.names ++ index.names
  | .call function arguments => function.names ++ namesAll arguments
  | .list items => namesAll items
  | .unary _ e => e.names
  | .binary _ a b => a.names ++ b.names
  | .compare first links => first.names ++ namesLinks links
  | .and a b => a.names ++ b.names
  | .or a b => a.names ++ b.names
  | .ite test body orelse => test.names ++ body.names ++ orelse.names

/-- The names in several expressions. -/
def namesAll : List Expr → List String
  | [] => []
  | e :: rest => e.names ++ namesAll rest

/-- The names in the links of a chain of comparisons. -/
def namesLinks : List (CompareOp × Expr) → List String
  | [] => []
  | (_, e) :: rest => e.names ++ namesLinks rest

end

variable (P) in
/-- Names stand for values that are the same but for objects and methods. -/
def Scope.AlikeOn (scope scope' : Scope) (names : List String) : Prop :=
  ∀ s ∈ names, Option.Rel (Value.Alike P) (scope.lookup? s) (scope'.lookup? s)

namespace Scope.AlikeOn

variable {scope scope' : Scope} {xs ys : List String}

theorem left (h : scope.AlikeOn P scope' (xs ++ ys)) : scope.AlikeOn P scope' xs :=
  fun s hs => h s (List.mem_append_left _ hs)

theorem right (h : scope.AlikeOn P scope' (xs ++ ys)) : scope.AlikeOn P scope' ys :=
  fun s hs => h s (List.mem_append_right _ hs)

end Scope.AlikeOn

/-- Names stand for themselves in a scope if what it refers to does. -/
theorem Scope.alikeOn_self {scope : Scope} (h : ∀ o ∈ scope.references, P.objects o.id o.id)
    (h' : ∀ i, P.methods i i) (names : List String) : scope.AlikeOn P scope names := by
  intro name _
  cases hv : scope.lookup? name with
  | none => exact .none
  | some v =>
    obtain ⟨layer, hlayer, hget⟩ := List.exists_of_findSome?_eq_some hv
    refine .some (Value.alike_self v (fun o ho => h o ?_) fun i _ => h' i)
    refine List.mem_flatMap.2 ⟨layer, hlayer, List.mem_flatMap.2 ⟨v, ?_, ho⟩⟩
    exact List.mem_map.2 ⟨_, Table.mem_of_get? hget, rfl⟩

/-! ### Evaluation -/

variable (P) in
/-- The same attribute of an object that stands for the object. -/
structure Dependency.Alike (d d' : Dependency) : Prop where
  object : d.object.Alike P d'.object
  attr : d'.attr = d.attr

variable (P) in
/-- The same attributes were read and the same calls recorded, and the methods that will be made stand
for each other. -/
structure Trail.Alike (t t' : Trail) : Prop where
  fresh : ∀ n, P.methods (t.fresh + n) (t'.fresh + n)
  reads : List.Forall₂ (Dependency.Alike P) t.reads t'.reads
  recorded : List.Forall₂ (List.Forall₂ (Value.Alike P)) t.recorded t'.recorded

namespace Eval

variable {β β' γ γ' : Type} {S : β → β' → Prop} {T : γ → γ' → Prop} {store store' : Store}
  {v v' w w' : Value} {vs vs' : List Value}

variable (P) in
/-- From trails that are alike two computations come to results that correspond, and to trails that
are alike. -/
def Matches (S : β → β' → Prop) (x : Eval β) (x' : Eval β') : Prop :=
  ∀ t t', t.Alike P t' → Results S (on x t).1 (on x' t').1 ∧ (on x t).2.Alike P (on x' t').2

theorem matches_pure {r : β} {r' : β'} (h : S r r') : Matches P S (pure r) (pure r') :=
  fun _ _ ht => ⟨.ok h, ht⟩

theorem matches_throw (e : EvalError) : Matches P S (throw e) (throw e) :=
  fun _ _ ht => ⟨.error e, ht⟩

theorem matches_result {r : Except EvalError β} {r' : Except EvalError β'} (h : Results S r r') :
    Matches P S (ExceptT.mk (pure r)) (ExceptT.mk (pure r')) :=
  fun _ _ ht => ⟨h, ht⟩

theorem Matches.bind {x : Eval β} {x' : Eval β'} {f : β → Eval γ} {f' : β' → Eval γ'}
    (hx : Matches P S x x') (hf : ∀ r r', S r r' → Matches P T (f r) (f' r')) :
    Matches P T (x >>= f) (x' >>= f') := by
  intro t t' ht
  obtain ⟨hresult, htrail⟩ := hx t t' ht
  rw [on_bind, on_bind]
  revert hresult htrail
  rcases on x t with ⟨r, t₁⟩
  rcases on x' t' with ⟨r', t₁'⟩
  intro hresult htrail
  cases hresult with
  | error e => exact ⟨.error e, htrail⟩
  | ok h => exact hf _ _ h _ _ htrail

/-- An attribute has been read before on both sides or on neither. -/
theorem any_reads_alike {ds ds' : List Dependency} (h : List.Forall₂ (Dependency.Alike P) ds ds')
    {o o' : ObjectRef} (ho : o.Alike P o') (attr : String) :
    (ds'.any fun d => d.object.id == o'.id && d.attr == attr)
      = ds.any fun d => d.object.id == o.id && d.attr == attr := by
  induction h with
  | nil => rfl
  | @cons d d' _ _ hhead _ ih =>
    have hid : (d'.object.id == o'.id) = (d.object.id == o.id) :=
      Bool.eq_iff_iff.2 (by rw [beq_iff_eq, beq_iff_eq, P.objects_iff hhead.object.id ho.id])
    rw [List.any_cons, List.any_cons, ih, hid, hhead.attr]

theorem matches_noteRead {o o' : ObjectRef} (ho : o.Alike P o') (attr : String) :
    Matches P (fun _ _ => True) (noteRead o attr) (noteRead o' attr) := by
  intro t t' ht
  unfold noteRead
  rw [on_modify, on_modify, any_reads_alike ht.reads ho]
  refine ⟨.ok trivial, ?_⟩
  dsimp only
  split
  · exact ht
  · exact ⟨ht.fresh, List.rel_append ht.reads (.cons ⟨ho, rfl⟩ .nil), ht.recorded⟩

theorem matches_makeMethod (m : Method) (self : String) :
    Matches P (Value.Alike P) (makeMethod m self) (makeMethod m self) := by
  intro t t' ht
  refine ⟨.ok (.function (.method (ht.fresh 0))), fun n => ?_, ht.reads, ht.recorded⟩
  have hnext := ht.fresh (1 + n)
  rwa [← Nat.add_assoc, ← Nat.add_assoc] at hnext

theorem matches_attrOf (hstore : store.Alike P store') (h : v.Alike P v') (name : String) :
    Matches P (Value.Alike P) (attrOf store v name) (attrOf store' v' name) := by
  cases h with
  | @object o o' ho =>
    refine (matches_noteRead ho name).bind fun _ _ _ => ?_
    have hget := hstore.get? ho name
    rw [ho.className]
    generalize store.get? o name = x at hget ⊢
    generalize store'.get? o' name = x' at hget ⊢
    cases hget with
    | none => exact matches_throw _
    | some hv => exact matches_pure hv
  | str s =>
    unfold attrOf
    dsimp only
    split
    · exact matches_makeMethod _ s
    · exact matches_throw _
  | _ => exact matches_throw _

theorem getElem?_alike (h : List.Forall₂ (Value.Alike P) vs vs') (p : Nat) :
    (vs[p]?.getD .none).Alike P (vs'[p]?.getD .none) := by
  induction h generalizing p with
  | nil => exact .none
  | cons hhead _ ih =>
    cases p with
    | zero => exact hhead
    | succ p => exact ih p

theorem results_same (r : Except EvalError β) : Results Eq r r := by
  cases r with
  | error e => exact .error e
  | ok r => exact .ok rfl

theorem matches_item (hstore : store.Alike P store') (hv : v.Alike P v') (hw : w.Alike P w') :
    Matches P (Value.Alike P) (item store v w) (item store' v' w') := by
  cases hv with
  | @list vs vs' hitems =>
    unfold item
    dsimp only
    rw [Operators.position_alike hw, ← hitems.length_eq]
    exact (matches_result (results_same _)).bind fun p p' hp =>
      matches_pure (hp ▸ getElem?_alike hitems p)
  | str s =>
    unfold item
    dsimp only
    rw [Operators.position_alike hw]
    exact (matches_result (results_same _)).bind fun p p' hp => matches_pure (hp ▸ .str _)
  | @object o o' ho =>
    cases hw with
    | str name =>
      have hget := hstore.get? ho name
      unfold item
      dsimp only
      rw [ho.className]
      generalize store.get? o name = x at hget ⊢
      generalize store'.get? o' name = x' at hget ⊢
      cases hget with
      | none => exact matches_throw _
      | some hv => exact matches_pure hv
    | _ => exact matches_throw _
  | _ => exact matches_throw _

theorem any_equal_alike (h : List.Forall₂ (Value.Alike P) vs vs') (hw : w.Alike P w') :
    (vs'.any fun v => v.equal w') = vs.any fun v => v.equal w := by
  induction h with
  | nil => rfl
  | cons hhead _ ih =>
    rw [List.any_cons, List.any_cons, ih, Value.equal_alike _ _ _ _ hhead hw]

theorem contains_alike (hstore : store.Alike P store') (hv : v.Alike P v') (hw : w.Alike P w') :
    contains store' v' w' = contains store v w := by
  cases hv with
  | list hitems =>
    unfold contains
    dsimp only
    rw [any_equal_alike hitems hw]
  | object ho =>
    cases hw with
    | str name =>
      unfold contains
      dsimp only
      rw [hstore.has ho]
    | _ => rfl
  | _ => cases hw <;> rfl

theorem compare_alike (hstore : store.Alike P store') (op : CompareOp) (hv : v.Alike P v')
    (hw : w.Alike P w') : Eval.compare store' op v' w' = Eval.compare store op v w := by
  unfold Eval.compare
  rw [Value.equal_alike _ _ _ _ hv hw, Operators.order_alike hv hw, contains_alike hstore hw hv]

theorem matches_call (hstore : store.Alike P store') {f f' : Function} (hf : f.Alike P f')
    (h : List.Forall₂ (Value.Alike P) vs vs') :
    Matches P (Value.Alike P) (call store f vs) (call store' f' vs') := by
  cases hf with
  | builtin b => exact matches_result (b.apply_alike hstore h)
  | @method m self i i' _ =>
    unfold call
    dsimp only
    rw [Method.apply_alike h]
    exact matches_result (results_of_isBare fun _ => Method.isBare_apply)
  | host f =>
    cases f with
    | record =>
      unfold call
      dsimp only
      refine Matches.bind (S := fun _ _ => True) (fun t t' ht => ?_) fun _ _ _ => matches_pure ?_
      · exact ⟨.ok trivial, ht.fresh, ht.reads, List.rel_append ht.recorded (.cons h .nil)⟩
      · cases h with
        | nil => exact .none
        | cons hhead _ => exact hhead
    | fail =>
      unfold call
      dsimp only
      rw [h.length_eq]
      exact matches_throw _

end Eval

open Eval

section

variable {store store' : Store} {scope scope' : Scope}

mutual

/-- An expression comes to the same in stores and scopes that are alike. -/
theorem Expr.matches_eval (hstore : store.Alike P store') (e : Expr)
    (hscope : scope.AlikeOn P scope' e.names) :
    Matches P (Value.Alike P) (e.eval store scope) (e.eval store' scope') := by
  cases e with
  | literal l =>
    unfold Expr.eval
    exact matches_pure (Value.IsBare.alike _ (Value.isBare_literal l))
  | name s =>
    unfold Expr.eval
    have hlookup := hscope s (List.mem_singleton_self s)
    generalize scope.lookup? s = x at hlookup ⊢
    generalize scope'.lookup? s = x' at hlookup ⊢
    cases hlookup with
    | none => exact matches_throw _
    | some hv => exact matches_pure hv
  | attr object name =>
    unfold Expr.eval
    exact (object.matches_eval hstore hscope).bind fun _ _ hv => matches_attrOf hstore hv name
  | item object index =>
    unfold Expr.eval
    exact (object.matches_eval hstore hscope.left).bind fun _ _ hv =>
      (index.matches_eval hstore hscope.right).bind fun _ _ hw => matches_item hstore hv hw
  | call function arguments =>
    unfold Expr.eval
    refine (function.matches_eval hstore hscope.left).bind fun f f' hf => ?_
    refine (matches_evalAll hstore arguments hscope.right).bind fun vs vs' hvs => ?_
    cases hf with
    | function hf => exact matches_call hstore hf hvs
    | _ => exact matches_throw _
  | list items =>
    unfold Expr.eval
    exact (matches_evalAll hstore items hscope).bind fun _ _ hvs => matches_pure (.list hvs)
  | unary op e =>
    unfold Expr.eval
    exact (e.matches_eval hstore hscope).bind fun _ _ hv => matches_result (Operators.unary_alike op hv)
  | binary op a b =>
    unfold Expr.eval
    exact (a.matches_eval hstore hscope.left).bind fun _ _ hv =>
      (b.matches_eval hstore hscope.right).bind fun _ _ hw =>
        matches_result (Operators.binary_alike op hv hw)
  | compare first links =>
    unfold Expr.eval
    refine (first.matches_eval hstore hscope.left).bind fun _ _ hv => ?_
    refine (matches_evalLinks hstore hv links hscope.right).bind fun holds _ h => ?_
    exact matches_pure (h ▸ .bool holds)
  | and a b =>
    unfold Expr.eval
    refine (a.matches_eval hstore hscope.left).bind fun _ _ hv => ?_
    rw [hv.truthy]
    split
    · exact b.matches_eval hstore hscope.right
    · exact matches_pure hv
  | or a b =>
    unfold Expr.eval
    refine (a.matches_eval hstore hscope.left).bind fun _ _ hv => ?_
    rw [hv.truthy]
    split
    · exact matches_pure hv
    · exact b.matches_eval hstore hscope.right
  | ite test body orelse =>
    unfold Expr.eval
    refine (test.matches_eval hstore hscope.left.left).bind fun _ _ hv => ?_
    rw [hv.truthy]
    split
    · exact body.matches_eval hstore hscope.left.right
    · exact orelse.matches_eval hstore hscope.right

theorem matches_evalAll (hstore : store.Alike P store') (es : List Expr)
    (hscope : scope.AlikeOn P scope' (namesAll es)) :
    Matches P (List.Forall₂ (Value.Alike P)) (evalAll store scope es) (evalAll store' scope' es) := by
  cases es with
  | nil =>
    unfold evalAll
    exact matches_pure .nil
  | cons e rest =>
    unfold evalAll
    exact (e.matches_eval hstore hscope.left).bind fun _ _ hv =>
      (matches_evalAll hstore rest hscope.right).bind fun _ _ hvs => matches_pure (.cons hv hvs)

theorem matches_evalLinks (hstore : store.Alike P store') {left left' : Value}
    (hleft : left.Alike P left') (links : List (CompareOp × Expr))
    (hscope : scope.AlikeOn P scope' (namesLinks links)) :
    Matches P Eq (evalLinks store scope left links) (evalLinks store' scope' left' links) := by
  cases links with
  | nil =>
    unfold evalLinks
    exact matches_pure rfl
  | cons link rest =>
    obtain ⟨op, e⟩ := link
    unfold evalLinks
    refine (e.matches_eval hstore hscope.left).bind fun _ _ hv => ?_
    rw [compare_alike hstore op hleft hv]
    refine (matches_result (results_same _)).bind fun holds _ h => ?_
    subst h
    split
    · exact matches_evalLinks hstore hv rest hscope.right
    · exact matches_pure rfl

end

/-- The outcome of an expression and what it reads, where only the names in it are known to be alike. -/
theorem Expr.run_alike (hstore : store.Alike P store') (e : Expr)
    (hscope : scope.AlikeOn P scope' e.names) {fresh fresh' : Nat}
    (hfresh : ∀ n, P.methods (fresh + n) (fresh' + n)) :
    Results (Value.Alike P) (e.run store scope fresh).1 (e.run store' scope' fresh').1 ∧
      (e.run store scope fresh).2.Alike P (e.run store' scope' fresh').2 :=
  e.matches_eval hstore hscope _ _ ⟨hfresh, .nil, .nil⟩

end

end ReactiveView
