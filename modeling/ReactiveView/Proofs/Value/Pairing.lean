import ReactiveView.Proofs.Expr.Numbering
import Mathlib

/-!
This module contains values that are the same but for the objects and the methods that they refer to:
each of those stands for another one. Operators and functions make the same of the ones as of the
others, as long as what stands for different things is different.
-/

namespace ReactiveView

/--
Which objects stand for which, and which methods, by their numbers.
-/
structure Pairing where
  /-- Objects. -/
  objects : Nat → Nat → Prop
  /-- Methods. -/
  methods : Nat → Nat → Prop
  /-- What stands for different objects is different. -/
  objects_iff : ∀ {i i' j j' : Nat}, objects i i' → objects j j' → (i = j ↔ i' = j')
  /-- What stands for different methods is different. -/
  methods_iff : ∀ {i i' j j' : Nat}, methods i i' → methods j j' → (i = j ↔ i' = j')

/-- The objects below a number and all methods stand for themselves. -/
def Pairing.below (n : Nat) : Pairing where
  objects i i' := i = i' ∧ i < n
  methods i i' := i = i'
  objects_iff := by
    rintro i _ j _ ⟨rfl, -⟩ ⟨rfl, -⟩
    rfl
  methods_iff := by
    rintro i _ j _ rfl rfl
    rfl

variable (P : Pairing)

/-- An object of the same class that stands for the object. -/
structure ObjectRef.Alike (o o' : ObjectRef) : Prop where
  id : P.objects o.id o'.id
  className : o'.className = o.className

/-- The same function, or a method that stands for the method. -/
inductive Function.Alike : Function → Function → Prop
  | builtin (b : Builtin) : Alike (.builtin b) (.builtin b)
  | host (f : HostFunction) : Alike (.host f) (.host f)
  | method {m : Method} {self : String} {i i' : Nat} (h : P.methods i i') :
      Alike (.method m self i) (.method m self i')

/-- The same value, but for the objects and methods in it. -/
inductive Value.Alike : Value → Value → Prop
  | none : Alike .none .none
  | bool (b : Bool) : Alike (.bool b) (.bool b)
  | int (i : Int) : Alike (.int i) (.int i)
  | float (x : Float) : Alike (.float x) (.float x)
  | str (s : String) : Alike (.str s) (.str s)
  | list {vs ws : List Value} (h : List.Forall₂ Alike vs ws) : Alike (.list vs) (.list ws)
  | object {o o' : ObjectRef} (h : o.Alike P o') : Alike (.object o) (.object o')
  | function {f f' : Function} (h : f.Alike P f') : Alike (.function f) (.function f')

/-- Results that correspond; errors are the same. -/
inductive Results {β β' : Type} (S : β → β' → Prop) : Except EvalError β → Except EvalError β' → Prop
  | ok {r : β} {r' : β'} (h : S r r') : Results S (.ok r) (.ok r')
  | error (e : EvalError) : Results S (.error e) (.error e)

variable {P}

theorem ObjectRef.Alike.eq {o o' : ObjectRef} (h : o.Alike P o') (hid : o.id = o'.id) : o' = o := by
  have hclass := h.className
  cases o
  cases o'
  cases hid
  cases hclass
  rfl

theorem Function.Alike.name {f f' : Function} (h : f.Alike P f') : f'.name = f.name := by
  cases h <;> rfl

theorem Function.Alike.same {f f' g g' : Function} (hf : f.Alike P f') (hg : g.Alike P g') :
    f'.same g' = f.same g := by
  cases hf <;> cases hg <;> try rfl
  next h _ _ _ _ h' => exact Bool.eq_iff_iff.2 (by simp [Function.same, P.methods_iff h h'])

namespace Value

variable {v v' w w' : Value} {vs vs' ws ws' : List Value}

namespace Alike

theorem typeName (h : v.Alike P v') : v'.typeName = v.typeName := by cases h <;> rfl

theorem asFloat? (h : v.Alike P v') : v'.asFloat? = v.asFloat? := by cases h <;> rfl

theorem asInt? (h : v.Alike P v') : v'.asInt? = v.asInt? := by cases h <;> rfl

theorem truthy (h : v.Alike P v') : v'.truthy = v.truthy := by
  cases h with
  | list h => cases h <;> rfl
  | _ => rfl

end Alike

theorem reprChars_object (o : ObjectRef) :
    (object o).reprChars = '<' :: o.className.toList ++ " object>".toList := rfl

mutual

theorem reprChars_alike (v v' : Value) (h : v.Alike P v') : v'.reprChars = v.reprChars := by
  cases v with
  | list items =>
    cases h with
    | list h =>
      cases items with
      | nil => cases h; rfl
      | cons v rest =>
        cases h with
        | cons hhead htail =>
          rw [reprChars_cons, reprChars_cons, reprChars_alike v _ hhead, reprTail_alike rest _ htail]
  | object o =>
    cases h with
    | object h => rw [reprChars_object, reprChars_object, h.className]
  | function f =>
    cases h with
    | function h => rw [reprChars_function, reprChars_function, h.name]
  | _ => cases h; rfl

theorem reprTail_alike (vs vs' : List Value) (h : List.Forall₂ (Alike P) vs vs') :
    reprTail vs' = reprTail vs := by
  cases vs with
  | nil => cases h; rfl
  | cons v rest =>
    cases h with
    | cons hhead htail =>
      rw [reprTail_cons, reprTail_cons, reprChars_alike v _ hhead, reprTail_alike rest _ htail]

end

theorem Alike.text (h : v.Alike P v') : v'.text = v.text := by
  have hrepr := congrArg String.ofList (reprChars_alike v v' h)
  cases h with
  | str => rfl
  | _ => exact hrepr

mutual

theorem equal_alike (v v' w w' : Value) (hv : v.Alike P v') (hw : w.Alike P w') :
    v'.equal w' = v.equal w := by
  cases v with
  | list vs =>
    cases hv with
    | list hvs =>
      cases hw with
      | list hws =>
        simp only [equal]
        exact equalItems_alike vs _ _ _ hvs hws
      | _ => simp only [equal]
  | object o =>
    cases hv with
    | object ho =>
      cases hw with
      | object ho' =>
        simp only [equal]
        exact Bool.eq_iff_iff.2 (by rw [beq_iff_eq, beq_iff_eq, P.objects_iff ho.id ho'.id])
      | _ => simp only [equal]
  | function f =>
    cases hv with
    | function hf =>
      cases hw with
      | function hg =>
        simp only [equal]
        exact hf.same hg
      | _ => simp only [equal]
  | _ =>
    cases hv
    cases hw <;> simp only [equal]

theorem equalItems_alike (vs vs' ws ws' : List Value) (hvs : List.Forall₂ (Alike P) vs vs')
    (hws : List.Forall₂ (Alike P) ws ws') : equalItems vs' ws' = equalItems vs ws := by
  cases vs with
  | nil =>
    cases hvs
    cases hws <;> simp only [equalItems]
  | cons v vs =>
    cases hvs with
    | cons hv hvs =>
      cases hws with
      | nil => simp only [equalItems]
      | cons hw hws =>
        simp only [equalItems]
        rw [equal_alike v _ _ _ hv hw, equalItems_alike vs _ _ _ hvs hws]

end

mutual

/-- The objects in the one stand for those in the other, in order. -/
theorem references_alike (v v' : Value) (h : v.Alike P v') :
    List.Forall₂ (ObjectRef.Alike P) v.references v'.references := by
  cases v with
  | list items =>
    cases h with
    | list h =>
      simp only [references]
      exact referencesOf_alike items _ h
  | object o =>
    cases h with
    | object h =>
      simp only [references]
      exact .cons h .nil
  | _ =>
    cases h
    simp only [references]
    exact .nil

theorem referencesOf_alike (vs vs' : List Value) (h : List.Forall₂ (Alike P) vs vs') :
    List.Forall₂ (ObjectRef.Alike P) (referencesOf vs) (referencesOf vs') := by
  cases vs with
  | nil =>
    cases h
    exact .nil
  | cons v rest =>
    cases h with
    | cons hhead htail =>
      simp only [referencesOf]
      exact List.rel_append (references_alike v _ hhead) (referencesOf_alike rest _ htail)

end

mutual

/-- A value stands for itself if what is in it does. -/
theorem alike_self (v : Value) (h : ∀ o ∈ v.references, P.objects o.id o.id)
    (h' : ∀ i ∈ v.methods, P.methods i i) : v.Alike P v := by
  cases v with
  | list items =>
    refine .list (alikeItems_self items (fun o ho => h o ?_) fun i hi => h' i ?_)
    · rwa [references]
    · rwa [methods]
  | object o => exact .object ⟨h o (by simp [references]), rfl⟩
  | function f =>
    cases f with
    | builtin b => exact .function (.builtin b)
    | host f => exact .function (.host f)
    | method m self i => exact .function (.method (h' i (by simp [methods])))
  | none => exact .none
  | bool b => exact .bool b
  | int i => exact .int i
  | float x => exact .float x
  | str s => exact .str s

theorem alikeItems_self (vs : List Value) (h : ∀ o ∈ referencesOf vs, P.objects o.id o.id)
    (h' : ∀ i ∈ methodsOf vs, P.methods i i) : List.Forall₂ (Alike P) vs vs := by
  cases vs with
  | nil => exact .nil
  | cons v rest =>
    rw [referencesOf, List.forall_mem_append] at h
    rw [methodsOf, List.forall_mem_append] at h'
    exact .cons (alike_self v h.1 h'.1) (alikeItems_self rest h.2 h'.2)

end

mutual

/-- Values are equal if what stands for each other in them is. -/
theorem eq_of_alike (v v' : Value) (hobjects : ∀ i i', P.objects i i' → i = i')
    (hmethods : ∀ i i', P.methods i i' → i = i') (h : v.Alike P v') : v' = v := by
  cases v with
  | list items =>
    cases h with
    | list h => rw [eqItems_of_alike items _ hobjects hmethods h]
  | object o =>
    cases h with
    | object h => rw [h.eq (hobjects _ _ h.id)]
  | function f =>
    cases h with
    | function h =>
      cases h with
      | method h => rw [hmethods _ _ h]
      | _ => rfl
  | _ => cases h; rfl

theorem eqItems_of_alike (vs vs' : List Value) (hobjects : ∀ i i', P.objects i i' → i = i')
    (hmethods : ∀ i i', P.methods i i' → i = i') (h : List.Forall₂ (Alike P) vs vs') :
    vs' = vs := by
  cases vs with
  | nil => cases h; rfl
  | cons v rest =>
    cases h with
    | cons hhead htail =>
      rw [eq_of_alike v _ hobjects hmethods hhead, eqItems_of_alike rest _ hobjects hmethods htail]

end

theorem IsBare.alike (v : Value) (h : v.IsBare) : v.Alike P v :=
  alike_self v (fun o ho => by rw [h.1] at ho; cases ho) fun i hi => by rw [h.2] at hi; cases hi

end Value

open Value

/-- A result without objects and methods is the same on both sides. -/
theorem results_of_isBare {r : Except EvalError Value} (h : ∀ v, r = .ok v → v.IsBare) :
    Results (Alike P) r r := by
  cases r with
  | error e => exact .error e
  | ok v => exact .ok (IsBare.alike v (h v rfl))

/-! ### Operators -/

namespace Template

theorem convert_alike (conversion : Char) (precision : Option Nat) {v v' : Value}
    (h : v.Alike P v') : convert conversion precision v' = convert conversion precision v := by
  unfold convert
  rw [h.text, reprChars_alike v v' h, h.asFloat?, h.typeName]
  cases h <;> rfl

theorem fill_alike (ps : List Piece) {vs vs' : List Value} (h : List.Forall₂ (Alike P) vs vs') :
    fill ps vs' = fill ps vs := by
  induction ps generalizing vs vs' with
  | nil => cases h <;> rfl
  | cons p rest ih =>
    cases p with
    | literal c => rw [fill, fill, ih h]
    | directive d =>
      rw [fill, fill, ih h]
      cases h with
      | nil => rfl
      | cons hhead htail => simp only [convert_alike _ _ hhead, ih htail]

theorem render_alike (template : String) {v v' : Value} (h : v.Alike P v') :
    render template v' = render template v := by
  have hone := fill_alike (pieces template.toList) (.cons h .nil)
  cases h with
  | list h => exact congrArg (· >>= _) (fill_alike _ h)
  | object h => exact congrArg (· >>= _) hone
  | function h => exact congrArg (· >>= _) hone
  | _ => rfl

end Template

namespace Operators

variable {a a' b b' : Value}

theorem unary_alike (op : UnaryOp) (h : a.Alike P a') :
    Results (Alike P) (unary op a) (unary op a') := by
  have hsame : unary op a' = unary op a := by
    cases op with
    | not => simp only [unary, h.truthy]
    | neg | pos => cases h <;> rfl
  rw [hsame]
  exact results_of_isBare fun _ => isBare_unary

theorem repeatList_alike {vs vs' : List Value} (h : List.Forall₂ (Alike P) vs vs') (times : Int) :
    Results (Alike P) (repeatList vs times) (repeatList vs' times) := by
  unfold repeatList
  rw [h.length_eq]
  cases repetitions vs'.length times with
  | error e => exact .error e
  | ok n =>
    refine .ok (.list ?_)
    cases h with
    | nil => exact .nil
    | cons hhead htail =>
      refine List.rel_flatten ?_
      exact List.forall₂_iff_get.2 ⟨by simp, fun i hi hi' => by
        simpa using List.Forall₂.cons hhead htail⟩

/-- Arithmetic on two values that count as floats. -/
def asFloats (op : BinaryOp) (a b : Value) : Except EvalError Value :=
  match a.asFloat?, b.asFloat? with
  | some x, some y => floatBinary op x y
  | _, _ => .error (.type (.unsupportedOperands op.text a.typeName b.typeName))

theorem asFloats_alike (op : BinaryOp) (ha : a.Alike P a') (hb : b.Alike P b') :
    Results (Alike P) (asFloats op a b) (asFloats op a' b') := by
  unfold asFloats
  rw [ha.asFloat?, ha.typeName, hb.asFloat?, hb.typeName]
  split
  · exact results_of_isBare fun _ => isBare_floatBinary
  · exact .error _

theorem mixedBinary_alike (op : BinaryOp) (ha : a.Alike P a') (hb : b.Alike P b') :
    Results (Alike P) (mixedBinary op a b) (mixedBinary op a' b') := by
  have hfloats := asFloats_alike op ha hb
  have htext (s : String) (i : Int) : Results (Alike P) (repeatText s i) (repeatText s i) :=
    results_of_isBare fun _ => isBare_repeatText
  cases op with
  | sub | div | floorDiv => exact hfloats
  | add =>
    cases ha with
    | str s =>
      cases hb with
      | str t => exact .ok (.str _)
      | _ => exact hfloats
    | list hvs =>
      cases hb with
      | list hws => exact .ok (.list (List.rel_append hvs hws))
      | _ => exact hfloats
    | _ => exact hfloats
  | mod =>
    cases ha with
    | str s =>
      simp only [mixedBinary, Template.render_alike _ hb]
      split
      · exact .ok (.str _)
      · exact .error _
    | _ => exact hfloats
  | mul =>
    cases ha with
    | str s =>
      cases hb with
      | int i => exact htext s i
      | bool b => exact htext s _
      | _ => exact hfloats
    | list hvs =>
      cases hb with
      | int i => exact repeatList_alike hvs i
      | bool b => exact repeatList_alike hvs _
      | _ => exact hfloats
    | int i =>
      cases hb with
      | str s => exact htext s i
      | list hws => exact repeatList_alike hws i
      | _ => exact hfloats
    | bool b =>
      cases hb with
      | str s => exact htext s _
      | list hws => exact repeatList_alike hws _
      | _ => exact hfloats
    | _ => cases hb <;> exact hfloats

theorem binary_alike (op : BinaryOp) (ha : a.Alike P a') (hb : b.Alike P b') :
    Results (Alike P) (binary op a b) (binary op a' b') := by
  unfold binary
  rw [ha.asInt?, hb.asInt?]
  split
  · exact results_of_isBare fun _ => isBare_intBinary
  · exact mixedBinary_alike op ha hb

theorem order_alike (ha : a.Alike P a') (hb : b.Alike P b') : order a' b' = order a b := by
  cases ha <;> cases hb <;> rfl

theorem position_alike (ha : a.Alike P a') (length : Nat) : position a' length = position a length := by
  unfold position
  rw [ha.asInt?, ha.typeName]

end Operators

end ReactiveView
