import ReactiveView.Proofs.Expr.Plain

/-!
This module contains where the values come from that the evaluation of a plain expression meets:
objects come from the scope or the store, methods too unless the evaluation makes them, and these
are numbered in order. The evaluation works the same from whatever number on it counts, as long as
the scope and the store know lower numbers only.
-/

namespace ReactiveView

namespace Value

/-- The objects in the value satisfy `p`, and its methods have numbers below `n`. -/
def From (p : ObjectRef → Prop) (n : Nat) (v : Value) : Prop :=
  (∀ o ∈ v.references, p o) ∧ v.Below n

variable {p : ObjectRef → Prop} {m n : Nat} {v w : Value}

theorem From.mono (h : v.From p m) (hle : m ≤ n) : v.From p n := ⟨h.1, h.2.mono hle⟩

theorem from_list {vs : List Value} : (list vs).From p n ↔ ∀ v ∈ vs, v.From p n := by
  constructor
  · rintro ⟨hobjects, hbelow⟩ v hv
    refine ⟨fun o ho => hobjects o ?_, fun i hi => hbelow i ?_⟩
    · rw [references]
      exact mem_referencesOf.2 ⟨v, hv, ho⟩
    · rw [methods]
      exact mem_methodsOf.2 ⟨v, hv, hi⟩
  · intro h
    refine ⟨fun o ho => ?_, fun i hi => ?_⟩
    · rw [references] at ho
      obtain ⟨v, hv, ho⟩ := mem_referencesOf.1 ho
      exact (h v hv).1 o ho
    · rw [methods] at hi
      obtain ⟨v, hv, hi⟩ := mem_methodsOf.1 hi
      exact (h v hv).2 i hi

/-- A value without objects and methods. -/
def IsBare (v : Value) : Prop := v.references = [] ∧ v.methods = []

theorem IsBare.from (h : v.IsBare) : v.From p n := by
  refine ⟨fun o ho => ?_, fun i hi => ?_⟩
  · rw [h.1] at ho
    cases ho
  · rw [h.2] at hi
    cases hi

theorem isBare_literal (l : Literal) : l.value.IsBare := by
  cases l <;>
    exact ⟨by simp only [Literal.value, references], by simp only [Literal.value, methods]⟩

theorem isBare_bool (b : Bool) : (bool b).IsBare :=
  ⟨by simp only [references], by simp only [methods]⟩

theorem isBare_int (i : Int) : (int i).IsBare :=
  ⟨by simp only [references], by simp only [methods]⟩

theorem isBare_float (x : Float) : (float x).IsBare :=
  ⟨by simp only [references], by simp only [methods]⟩

theorem isBare_str (s : String) : (str s).IsBare :=
  ⟨by simp only [references], by simp only [methods]⟩

end Value

namespace Operators

open Value

variable {p : ObjectRef → Prop} {n : Nat} {v w : Value}

theorem isBare_checkedInt {i : Int} (h : checkedInt i = .ok w) : w.IsBare := by
  unfold checkedInt at h
  split at h <;> cases h
  exact isBare_int i

theorem isBare_unary {op : UnaryOp} (h : unary op v = .ok w) : w.IsBare := by
  unfold unary at h
  split at h
  · cases h
    exact isBare_bool _
  · cases h
    exact isBare_float _
  · cases h
    exact isBare_float _
  · split at h
    · exact isBare_checkedInt h
    · cases h
  · split at h <;> cases h
    exact isBare_int _

theorem isBare_intBinary {op : BinaryOp} {i j : Int} (h : intBinary op i j = .ok w) :
    w.IsBare := by
  unfold intBinary at h
  split at h
  · exact isBare_checkedInt h
  · exact isBare_checkedInt h
  · exact isBare_checkedInt h
  · split at h <;> cases h
    exact isBare_float _
  all_goals
    split at h
    · cases h
    · cases hd : floorDivide i j with
      | error e =>
        rw [hd] at h
        cases h
      | ok d =>
        rw [hd] at h
        cases h
        exact isBare_int _

theorem isBare_floatBinary {op : BinaryOp} {x y : Float} (h : floatBinary op x y = .ok w) :
    w.IsBare := by
  unfold floatBinary at h
  split at h <;> (try split at h) <;> cases h <;> exact isBare_float _

theorem isBare_repeatText {s : String} {times : Int} (h : repeatText s times = .ok w) :
    w.IsBare := by
  unfold repeatText at h
  cases hn : repetitions s.utf8ByteSize times with
  | error e =>
    rw [hn] at h
    cases h
  | ok k =>
    rw [hn] at h
    cases h
    exact isBare_str _

theorem from_repeatList {items : List Value} {times : Int} (h : repeatList items times = .ok w)
    (hitems : (list items).From p n) : w.From p n := by
  unfold repeatList at h
  cases hn : repetitions items.length times with
  | error e =>
    rw [hn] at h
    cases h
  | ok k =>
    rw [hn] at h
    cases h
    rw [from_list] at hitems ⊢
    intro v hv
    split at hv
    · cases hv
    · obtain ⟨l, hl, hv⟩ := List.mem_flatten.1 hv
      rw [List.eq_of_mem_replicate hl] at hv
      exact hitems v hv

theorem from_mixedBinary {op : BinaryOp} {a b : Value} (h : mixedBinary op a b = .ok w)
    (ha : a.From p n) (hb : b.From p n) : w.From p n := by
  unfold mixedBinary at h
  split at h
  · cases h
    exact (isBare_str _).from
  · cases h
    rw [from_list] at ha hb ⊢
    exact List.forall_mem_append.2 ⟨ha, hb⟩
  · split at h <;> cases h
    exact (isBare_str _).from
  · split at h
    · exact (isBare_repeatText h).from
    · exact (isBare_repeatText h).from
    · exact from_repeatList h ha
    · exact from_repeatList h hb
    · split at h
      · exact (isBare_floatBinary h).from
      · cases h

theorem from_binary {op : BinaryOp} {a b : Value} (h : binary op a b = .ok w) (ha : a.From p n)
    (hb : b.From p n) : w.From p n := by
  unfold binary at h
  split at h
  · exact (isBare_intBinary h).from
  · exact from_mixedBinary h ha hb

end Operators

namespace Eval

variable {α β : Type} {p : ObjectRef → Prop} {n : Nat}

/-- From a trail that counts from `n` on, a computation counts on, reads objects that satisfy `p`
only and ends with something good, as far as it has counted. -/
def Yields (p : ObjectRef → Prop) (n : Nat) (good : Nat → α → Prop) (x : Eval α) : Prop :=
  ∀ t, n ≤ t.fresh → (∀ d ∈ t.reads, p d.object) →
    t.fresh ≤ (on x t).2.fresh ∧ (∀ d ∈ (on x t).2.reads, p d.object)
      ∧ ∀ a, (on x t).1 = .ok a → good (on x t).2.fresh a

theorem yields_pure {good : Nat → α → Prop} {a : α} (h : ∀ m, n ≤ m → good m a) :
    Yields p n good (pure a) :=
  fun t ht hreads => ⟨Nat.le_refl _, hreads, fun _ ha => by cases ha; exact h _ ht⟩

theorem yields_throw {good : Nat → α → Prop} (e : EvalError) :
    Yields p n good (throw e : Eval α) :=
  fun _ _ hreads => ⟨Nat.le_refl _, hreads, fun _ ha => by cases ha⟩

theorem yields_result {good : Nat → α → Prop} {r : Except EvalError α}
    (h : ∀ a m, r = .ok a → n ≤ m → good m a) : Yields p n good (ExceptT.mk (pure r)) :=
  fun _ ht hreads => ⟨Nat.le_refl _, hreads, fun a ha => h a _ ha ht⟩

theorem Yields.bind {good : Nat → α → Prop} {good' : Nat → β → Prop} {x : Eval α}
    {f : α → Eval β} (hx : Yields p n good x)
    (hf : ∀ a m, n ≤ m → good m a → Yields p m good' (f a)) : Yields p n good' (x >>= f) := by
  intro t ht hreads
  obtain ⟨hle, hreads', hgood⟩ := hx t ht hreads
  rw [on_bind]
  revert hle hreads' hgood
  rcases on x t with ⟨r, t'⟩
  intro hle hreads' hgood
  cases r with
  | error e => exact ⟨hle, hreads', fun _ h => by cases h⟩
  | ok a =>
    obtain ⟨hle', hrest⟩ :=
      hf a t'.fresh (Nat.le_trans ht hle) (hgood a rfl) t' (Nat.le_refl _) hreads'
    exact ⟨Nat.le_trans hle hle', hrest⟩

theorem yields_noteRead {o : ObjectRef} (ho : p o) (name : String) :
    Yields p n (fun _ _ => True) (noteRead o name) := by
  intro t ht hreads
  unfold noteRead
  rw [on_modify]
  dsimp only
  split
  · exact ⟨Nat.le_refl _, hreads, fun _ _ => trivial⟩
  · refine ⟨Nat.le_refl _, fun d hd => ?_, fun _ _ => trivial⟩
    rcases List.mem_append.1 hd with hold | hnew
    · exact hreads d hold
    · obtain rfl := List.mem_singleton.1 hnew
      exact ho

theorem yields_makeMethod (m : Method) (self : String) :
    Yields p n (fun k v => v.From p k) (makeMethod m self) := by
  intro t ht hreads
  refine ⟨Nat.le_succ _, hreads, fun v hv => ?_⟩
  cases hv
  refine ⟨fun o ho => ?_, fun i hi => ?_⟩
  · rw [Value.references] at ho
    · cases ho
    · intro _ h
      cases h
    · intro _ h
      cases h
  · rw [Value.methods] at hi
    obtain rfl := List.mem_singleton.1 hi
    exact Nat.lt_succ_self _

theorem yields_attrOf {store : Store}
    (hstore : ∀ o name v, store.get? o name = some v → v.From p n) {v : Value}
    (hv : v.From p n) (name : String) :
    Yields p n (fun k w => w.From p k) (attrOf store v name) := by
  unfold attrOf
  split
  · next o =>
    refine (yields_noteRead (hv.1 o (by simp [Value.references])) name).bind fun _ m hm _ => ?_
    split
    · next w hw => exact yields_pure fun k hk => (hstore o name w hw).mono (Nat.le_trans hm hk)
    · exact yields_throw _
  · split
    · exact yields_makeMethod _ _
    · exact yields_throw _
  · exact yields_throw _

end Eval

open Eval

section

variable {p : ObjectRef → Prop} {store : Store} {scope : Scope}

mutual

/-- A plain expression meets objects and methods of the scope and the store, and methods that it
makes. -/
theorem Expr.yields_eval (e : Expr) (he : e.isPlain = true) {n : Nat}
    (hscope : ∀ name v, scope.lookup? name = some v → v.From p n)
    (hstore : ∀ o name v, store.get? o name = some v → v.From p n) :
    Yields p n (fun m v => v.From p m) (e.eval store scope) := by
  have hscope' {m : Nat} (hm : n ≤ m) (name : String) (v : Value)
      (hv : scope.lookup? name = some v) : v.From p m := (hscope name v hv).mono hm
  have hstore' {m : Nat} (hm : n ≤ m) (o : ObjectRef) (name : String) (v : Value)
      (hv : store.get? o name = some v) : v.From p m := (hstore o name v hv).mono hm
  cases e with
  | literal l =>
    unfold Expr.eval
    exact yields_pure fun _ _ => (Value.isBare_literal l).from
  | name s =>
    unfold Expr.eval
    split
    · next v hv => exact yields_pure fun m hm => hscope' hm s v hv
    · exact yields_throw _
  | attr object name =>
    rw [Expr.isPlain] at he
    unfold Expr.eval
    exact (object.yields_eval he hscope hstore).bind fun v m hm hv =>
      yields_attrOf (hstore' hm) hv name
  | item => cases he
  | call => cases he
  | list items =>
    rw [Expr.isPlain] at he
    unfold Expr.eval
    exact (yields_evalAll items he hscope hstore).bind fun vs m _ hvs =>
      yields_pure fun k hk => Value.from_list.2 fun v hv => (hvs v hv).mono hk
  | unary op e =>
    rw [Expr.isPlain] at he
    unfold Expr.eval
    exact (e.yields_eval he hscope hstore).bind fun _ _ _ _ =>
      yields_result fun _ _ hw _ => (Operators.isBare_unary hw).from
  | binary op a b =>
    rw [Expr.isPlain, Bool.and_eq_true] at he
    unfold Expr.eval
    exact (a.yields_eval he.1 hscope hstore).bind fun v m hm hv =>
      (b.yields_eval he.2 (hscope' hm) (hstore' hm)).bind fun w k hk hw =>
        yields_result fun _ l hu hl =>
          Operators.from_binary hu (hv.mono (Nat.le_trans hk hl)) (hw.mono hl)
  | compare first links =>
    rw [Expr.isPlain, Bool.and_eq_true] at he
    unfold Expr.eval
    exact (first.yields_eval he.1 hscope hstore).bind fun v m hm _ =>
      (yields_evalLinks v links he.2 (hscope' hm) (hstore' hm)).bind fun holds _ _ _ =>
        yields_pure fun _ _ => (Value.isBare_bool holds).from
  | and a b =>
    rw [Expr.isPlain, Bool.and_eq_true] at he
    unfold Expr.eval
    refine (a.yields_eval he.1 hscope hstore).bind fun v m hm hv => ?_
    split
    · exact b.yields_eval he.2 (hscope' hm) (hstore' hm)
    · exact yields_pure fun k hk => hv.mono hk
  | or a b =>
    rw [Expr.isPlain, Bool.and_eq_true] at he
    unfold Expr.eval
    refine (a.yields_eval he.1 hscope hstore).bind fun v m hm hv => ?_
    split
    · exact yields_pure fun k hk => hv.mono hk
    · exact b.yields_eval he.2 (hscope' hm) (hstore' hm)
  | ite test body orelse =>
    rw [Expr.isPlain, Bool.and_eq_true, Bool.and_eq_true] at he
    unfold Expr.eval
    refine (test.yields_eval he.1.1 hscope hstore).bind fun v m hm _ => ?_
    split
    · exact body.yields_eval he.1.2 (hscope' hm) (hstore' hm)
    · exact orelse.yields_eval he.2 (hscope' hm) (hstore' hm)

theorem yields_evalAll (es : List Expr) (hes : allPlain es = true) {n : Nat}
    (hscope : ∀ name v, scope.lookup? name = some v → v.From p n)
    (hstore : ∀ o name v, store.get? o name = some v → v.From p n) :
    Yields p n (fun m vs => ∀ v ∈ vs, v.From p m) (evalAll store scope es) := by
  cases es with
  | nil =>
    unfold evalAll
    exact yields_pure fun _ _ _ h => by cases h
  | cons e rest =>
    rw [allPlain, Bool.and_eq_true] at hes
    unfold evalAll
    refine (e.yields_eval hes.1 hscope hstore).bind fun v m hm hv => ?_
    refine (yields_evalAll rest hes.2 (fun s w hw => (hscope s w hw).mono hm)
      fun o s w hw => (hstore o s w hw).mono hm).bind fun vs k hk hvs => ?_
    exact yields_pure fun l hl => List.forall_mem_cons.2
      ⟨hv.mono (Nat.le_trans hk hl), fun w hw => (hvs w hw).mono hl⟩

theorem yields_evalLinks (left : Value) (links : List (CompareOp × Expr))
    (hlinks : linksPlain links = true) {n : Nat}
    (hscope : ∀ name v, scope.lookup? name = some v → v.From p n)
    (hstore : ∀ o name v, store.get? o name = some v → v.From p n) :
    Yields p n (fun _ _ => True) (evalLinks store scope left links) := by
  cases links with
  | nil =>
    unfold evalLinks
    exact yields_pure fun _ _ => trivial
  | cons link rest =>
    obtain ⟨op, e⟩ := link
    rw [linksPlain, Bool.and_eq_true, Bool.and_eq_true] at hlinks
    unfold evalLinks
    refine (e.yields_eval hlinks.1.2 hscope hstore).bind fun right m hm _ => ?_
    refine (yields_result fun _ _ _ _ => trivial).bind fun holds k hk _ => ?_
    split
    · exact yields_evalLinks right rest hlinks.2
        (fun s w hw => (hscope s w hw).mono (Nat.le_trans hm hk))
        fun o s w hw => (hstore o s w hw).mono (Nat.le_trans hm hk)
    · exact yields_pure fun _ _ => trivial

end

end

/-- The trail, counting on behind a gap. -/
def Trail.skip (gap : Nat) (t : Trail) : Trail := { t with fresh := t.fresh + gap }

namespace Eval

variable {α β : Type} {base gap : Nat}

/-- A computation that counts from behind a gap does the same, with the methods renamed that were
made since `base`. -/
def Shifts (base gap : Nat) (f : α → α) (x x' : Eval α) : Prop :=
  ∀ t, base ≤ t.fresh → base ≤ (on x t).2.fresh
    ∧ on x' (t.skip gap) = ((on x t).1.map f, (on x t).2.skip gap)

theorem shifts_pure {f : α → α} {a a' : α} (h : a' = f a) :
    Shifts base gap f (pure a) (pure a') :=
  fun t ht => ⟨ht, by rw [on_pure, on_pure, h]; rfl⟩

theorem shifts_throw (f : α → α) (e : EvalError) : Shifts base gap f (throw e) (throw e) :=
  fun _ ht => ⟨ht, rfl⟩

theorem shifts_result {f : α → α} {r r' : Except EvalError α} (h : r' = r.map f) :
    Shifts base gap f (ExceptT.mk (pure r)) (ExceptT.mk (pure r')) :=
  fun t ht => ⟨ht, by rw [on_result, on_result, h]⟩

theorem Shifts.bind {f : α → α} {g : β → β} {x x' : Eval α} {k k' : α → Eval β}
    (hx : Shifts base gap f x x') (hk : ∀ a, Shifts base gap g (k a) (k' (f a))) :
    Shifts base gap g (x >>= k) (x' >>= k') := by
  intro t ht
  obtain ⟨hle, hon⟩ := hx t ht
  rw [on_bind, on_bind, hon]
  revert hle
  rcases on x t with ⟨r, t'⟩
  intro hle
  cases r with
  | error e => exact ⟨hle, rfl⟩
  | ok a => exact hk a t' hle

theorem shifts_noteRead (o : ObjectRef) (name : String) :
    Shifts base gap id (noteRead o name) (noteRead o name) := by
  intro t ht
  unfold noteRead
  rw [on_modify, on_modify]
  have hreads : (t.skip gap).reads = t.reads := rfl
  by_cases hany : (t.reads.any fun d => d.object.id == o.id && d.attr == name) = true
  · rw [if_pos hany, if_pos (hreads ▸ hany)]
    exact ⟨ht, rfl⟩
  · rw [if_neg hany, if_neg (hreads ▸ hany)]
    exact ⟨ht, rfl⟩

theorem shifts_makeMethod (m : Method) (self : String) :
    Shifts base gap (Value.rename (Value.shift base gap)) (makeMethod m self)
      (makeMethod m self) := by
  intro t ht
  refine ⟨Nat.le_succ_of_le ht, ?_⟩
  have hnew : Value.shift base gap t.fresh = t.fresh + gap := if_neg (Nat.not_lt.2 ht)
  have hvalue : Value.rename (Value.shift base gap) (.function (.method m self t.fresh))
      = .function (.method m self (t.fresh + gap)) := by
    simp only [Value.rename, Function.rename, hnew]
  change (Except.ok (Value.function (.method m self (t.fresh + gap))),
      { t with fresh := t.fresh + gap + 1 })
    = (Except.ok (Value.rename _ (.function (.method m self t.fresh))),
      { t with fresh := t.fresh + 1 + gap })
  rw [hvalue, Nat.add_right_comm]

theorem shifts_attrOf {store : Store}
    (hstore : ∀ o name v, store.get? o name = some v → v.Below base) (v : Value)
    (name : String) :
    Shifts base gap (Value.rename (Value.shift base gap)) (attrOf store v name)
      (attrOf store (v.rename (Value.shift base gap)) name) := by
  cases v with
  | object o =>
    refine (shifts_noteRead o name).bind fun _ => ?_
    split
    · next v hv => exact shifts_pure ((hstore o name v hv).rename_shift gap).symm
    · exact shifts_throw _ _
  | str s =>
    unfold attrOf
    simp only [Value.rename]
    split
    · exact shifts_makeMethod _ _
    · exact shifts_throw _ _
  | _ => exact shifts_throw _ _

theorem compare_rename {store : Store} {op : CompareOp} (hin : op ≠ .isIn) (hnot : op ≠ .notIn)
    {f : Nat → Nat} (hf : f.Injective) (v w : Value) :
    Eval.compare store op (v.rename f) (w.rename f) = Eval.compare store op v w := by
  cases op with
  | eq | ne =>
    simp only [Eval.compare]
    rw [Value.equal_rename hf]
  | lt | le | gt | ge =>
    simp only [Eval.compare]
    rw [Operators.order_rename]
  | isIn => exact absurd rfl hin
  | notIn => exact absurd rfl hnot

end Eval

section

variable {base gap : Nat} {store : Store} {scope : Scope}

mutual

/-- A plain expression evaluates to the same from every number on that is new to the scope and the
store, up to the numbers of the methods that it makes. -/
theorem Expr.shifts_eval
    (hscope : ∀ name v, scope.lookup? name = some v → v.Below base)
    (hstore : ∀ o name v, store.get? o name = some v → v.Below base) :
    ∀ (e : Expr), e.isPlain = true →
      Shifts base gap (Value.rename (Value.shift base gap)) (e.eval store scope)
        (e.eval store scope)
  | .literal l, _ => by
    unfold Expr.eval
    refine shifts_pure (Eq.symm ?_)
    cases l <;> simp only [Literal.value, Value.rename]
  | .name s, _ => by
    unfold Expr.eval
    split
    · next v hv => exact shifts_pure ((hscope s v hv).rename_shift gap).symm
    · exact shifts_throw _ _
  | .attr object name, he => by
    rw [Expr.isPlain] at he
    unfold Expr.eval
    exact (object.shifts_eval hscope hstore he).bind fun v => shifts_attrOf hstore v name
  | .item _ _, he => by cases he
  | .call _ _, he => by cases he
  | .list items, he => by
    rw [Expr.isPlain] at he
    unfold Expr.eval
    exact (shifts_evalAll hscope hstore items he).bind fun vs =>
      shifts_pure (by simp only [Value.rename])
  | .unary op e, he => by
    rw [Expr.isPlain] at he
    unfold Expr.eval
    exact (e.shifts_eval hscope hstore he).bind fun v => shifts_result (Operators.unary_rename op v)
  | .binary op a b, he => by
    rw [Expr.isPlain, Bool.and_eq_true] at he
    unfold Expr.eval
    exact (a.shifts_eval hscope hstore he.1).bind fun v =>
      (b.shifts_eval hscope hstore he.2).bind fun w =>
        shifts_result (Operators.binary_rename op v w)
  | .compare first links, he => by
    rw [Expr.isPlain, Bool.and_eq_true] at he
    unfold Expr.eval
    exact (first.shifts_eval hscope hstore he.1).bind fun v =>
      (shifts_evalLinks hscope hstore v links he.2).bind fun holds =>
        shifts_pure (by simp only [Value.rename, id])
  | .and a b, he => by
    rw [Expr.isPlain, Bool.and_eq_true] at he
    unfold Expr.eval
    refine (a.shifts_eval hscope hstore he.1).bind fun v => ?_
    rw [Value.truthy_rename]
    split
    · exact b.shifts_eval hscope hstore he.2
    · exact shifts_pure rfl
  | .or a b, he => by
    rw [Expr.isPlain, Bool.and_eq_true] at he
    unfold Expr.eval
    refine (a.shifts_eval hscope hstore he.1).bind fun v => ?_
    rw [Value.truthy_rename]
    split
    · exact shifts_pure rfl
    · exact b.shifts_eval hscope hstore he.2
  | .ite test body orelse, he => by
    rw [Expr.isPlain, Bool.and_eq_true, Bool.and_eq_true] at he
    unfold Expr.eval
    refine (test.shifts_eval hscope hstore he.1.1).bind fun v => ?_
    rw [Value.truthy_rename]
    split
    · exact body.shifts_eval hscope hstore he.1.2
    · exact orelse.shifts_eval hscope hstore he.2

theorem shifts_evalAll
    (hscope : ∀ name v, scope.lookup? name = some v → v.Below base)
    (hstore : ∀ o name v, store.get? o name = some v → v.Below base) :
    ∀ (es : List Expr), allPlain es = true →
      Shifts base gap (Value.renameItems (Value.shift base gap)) (evalAll store scope es)
        (evalAll store scope es)
  | [], _ => by
    unfold evalAll
    exact shifts_pure rfl
  | e :: rest, hes => by
    rw [allPlain, Bool.and_eq_true] at hes
    unfold evalAll
    exact (e.shifts_eval hscope hstore hes.1).bind fun v =>
      (shifts_evalAll hscope hstore rest hes.2).bind fun vs => shifts_pure rfl

theorem shifts_evalLinks
    (hscope : ∀ name v, scope.lookup? name = some v → v.Below base)
    (hstore : ∀ o name v, store.get? o name = some v → v.Below base) :
    ∀ (left : Value) (links : List (CompareOp × Expr)), linksPlain links = true →
      Shifts base gap id (evalLinks store scope left links)
        (evalLinks store scope (left.rename (Value.shift base gap)) links)
  | _, [], _ => by
    unfold evalLinks
    exact shifts_pure rfl
  | left, (op, e) :: rest, hlinks => by
    rw [linksPlain, Bool.and_eq_true, Bool.and_eq_true, Bool.and_eq_true] at hlinks
    obtain ⟨⟨⟨hin, hnot⟩, he⟩, hrest⟩ := hlinks
    unfold evalLinks
    refine (e.shifts_eval hscope hstore he).bind fun right => ?_
    refine Shifts.bind (f := id) (shifts_result ?_) fun holds => ?_
    · rw [Eval.compare_rename (bne_iff_ne.1 hin) (bne_iff_ne.1 hnot)
        (Value.shift_injective base gap)]
      cases Eval.compare store op left right <;> rfl
    · dsimp only [id]
      split
      · exact shifts_evalLinks hscope hstore right rest hrest
      · exact shifts_pure rfl

end

end

end ReactiveView
