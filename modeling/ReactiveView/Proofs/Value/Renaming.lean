import ReactiveView.Expr.Operators

/-!
This module contains the renaming of functions: methods of strings are told apart by numbers, and
operators work the same when these numbers are renamed, as long as different ones stay different.
-/

namespace ReactiveView

/-- Two functions that are told apart stay so. -/
def Function.rename (f : Nat → Nat) : Function → Function
  | .method m self id => .method m self (f id)
  | g => g

@[simp]
theorem Function.name_rename {f : Nat → Nat} (g : Function) : (g.rename f).name = g.name := by
  cases g <;> rfl

theorem Function.same_rename {f : Nat → Nat} (hf : f.Injective) (g h : Function) :
    (g.rename f).same (h.rename f) = g.same h := by
  cases g <;> cases h <;> simp only [rename, same]
  exact Bool.eq_iff_iff.2 (by rw [beq_iff_eq, beq_iff_eq, hf.eq_iff])

namespace Value

mutual

/-- The value with its functions renamed, in lists of any depth too. -/
def rename (f : Nat → Nat) : Value → Value
  | list items => list (renameItems f items)
  | function g => function (g.rename f)
  | v => v

/-- The values with their functions renamed. -/
def renameItems (f : Nat → Nat) : List Value → List Value
  | [] => []
  | v :: rest => v.rename f :: renameItems f rest

end

variable {f : Nat → Nat} {v w : Value}

theorem renameItems_eq_map (f : Nat → Nat) (vs : List Value) :
    renameItems f vs = vs.map (rename f) := by
  induction vs with
  | nil => rfl
  | cons v rest ih => rw [renameItems, ih, List.map_cons]

@[simp]
theorem length_renameItems (vs : List Value) : (renameItems f vs).length = vs.length := by
  rw [renameItems_eq_map, List.length_map]

@[simp]
theorem typeName_rename : (v.rename f).typeName = v.typeName := by cases v <;> rfl

@[simp]
theorem asFloat?_rename : (v.rename f).asFloat? = v.asFloat? := by cases v <;> rfl

@[simp]
theorem asInt?_rename : (v.rename f).asInt? = v.asInt? := by cases v <;> rfl

@[simp]
theorem truthy_rename : (v.rename f).truthy = v.truthy := by
  cases v with
  | list items => cases items <;> rfl
  | _ => rfl

theorem reprChars_cons (v : Value) (rest : List Value) :
    (list (v :: rest)).reprChars = '[' :: v.reprChars ++ reprTail rest ++ [']'] := rfl

theorem reprTail_cons (v : Value) (rest : List Value) :
    reprTail (v :: rest) = ',' :: ' ' :: v.reprChars ++ reprTail rest := rfl

theorem reprChars_function (g : Function) :
    (function g).reprChars = "<function ".toList ++ g.name.toList ++ ['>'] := rfl

mutual

theorem reprChars_rename (f : Nat → Nat) (v : Value) : (v.rename f).reprChars = v.reprChars := by
  cases v with
  | list items =>
    cases items with
    | nil => simp only [rename, renameItems]
    | cons v rest =>
      simp only [rename, renameItems]
      rw [reprChars_cons, reprChars_cons, reprChars_rename f v, reprTail_renameItems f rest]
  | function g =>
    simp only [rename]
    rw [reprChars_function, reprChars_function, Function.name_rename]
  | _ => simp only [rename]

theorem reprTail_renameItems (f : Nat → Nat) (vs : List Value) :
    reprTail (renameItems f vs) = reprTail vs := by
  cases vs with
  | nil => simp only [renameItems]
  | cons v rest =>
    simp only [renameItems]
    rw [reprTail_cons, reprTail_cons, reprChars_rename f v, reprTail_renameItems f rest]

end

@[simp]
theorem text_rename : (v.rename f).text = v.text := by
  cases v with
  | list items => exact congrArg String.ofList (reprChars_rename f (.list items))
  | function g => exact congrArg String.ofList (reprChars_rename f (.function g))
  | _ => simp only [rename]

mutual

theorem equal_rename (hf : f.Injective) (v w : Value) :
    (v.rename f).equal (w.rename f) = v.equal w := by
  cases v with
  | list vs =>
    cases w with
    | list ws =>
      simp only [rename, equal]
      exact equalItems_rename hf vs ws
    | _ => simp only [rename, equal]
  | function g =>
    cases w with
    | function h =>
      simp only [rename, equal]
      exact Function.same_rename hf g h
    | _ => simp only [rename, equal]
  | _ => cases w <;> simp only [rename, equal]

theorem equalItems_rename (hf : f.Injective) (vs ws : List Value) :
    equalItems (renameItems f vs) (renameItems f ws) = equalItems vs ws := by
  cases vs with
  | nil => cases ws <;> simp only [renameItems, equalItems]
  | cons v vs =>
    cases ws with
    | nil => simp only [renameItems, equalItems]
    | cons w ws =>
      simp only [renameItems, equalItems]
      rw [equal_rename hf v w, equalItems_rename hf vs ws]

end

/-! ### Methods in a value -/

mutual

/-- The numbers of the methods in a value, in lists of any depth too. -/
def methods : Value → List Nat
  | list items => methodsOf items
  | function (.method _ _ id) => [id]
  | _ => []

/-- The numbers of the methods in the items of a list. -/
def methodsOf : List Value → List Nat
  | [] => []
  | v :: rest => v.methods ++ methodsOf rest

end

/-- The methods in the value have numbers below `n`. -/
def Below (n : Nat) (v : Value) : Prop := ∀ i ∈ v.methods, i < n

theorem mem_methodsOf {vs : List Value} {i : Nat} : i ∈ methodsOf vs ↔ ∃ v ∈ vs, i ∈ v.methods := by
  induction vs with
  | nil => simp [methodsOf]
  | cons v rest ih => simp [methodsOf, ih]

theorem mem_referencesOf {vs : List Value} {o : ObjectRef} :
    o ∈ referencesOf vs ↔ ∃ v ∈ vs, o ∈ v.references := by
  induction vs with
  | nil => simp [referencesOf]
  | cons v rest ih => simp [referencesOf, ih]

theorem Below.mono {m n : Nat} (h : v.Below m) (hle : m ≤ n) : v.Below n :=
  fun i hi => Nat.lt_of_lt_of_le (h i hi) hle

mutual

/-- Only the renaming of methods that are there matters. -/
theorem rename_eq_self (v : Value) (h : ∀ i ∈ v.methods, f i = i) : v.rename f = v := by
  cases v with
  | list items =>
    simp only [rename]
    rw [renameItems_eq_self items (by simpa only [methods] using h)]
  | function g =>
    cases g with
    | method m self id =>
      simp only [rename, Function.rename]
      rw [h id (by simp only [methods, List.mem_singleton])]
    | _ => simp only [rename, Function.rename]
  | _ => simp only [rename]

theorem renameItems_eq_self (vs : List Value) (h : ∀ i ∈ methodsOf vs, f i = i) :
    renameItems f vs = vs := by
  cases vs with
  | nil => simp only [renameItems]
  | cons v rest =>
    simp only [methodsOf, List.mem_append] at h
    simp only [renameItems]
    rw [rename_eq_self v fun i hi => h i (.inl hi),
      renameItems_eq_self rest fun i hi => h i (.inr hi)]

end

mutual

theorem methods_rename (f : Nat → Nat) (v : Value) : (v.rename f).methods = v.methods.map f := by
  cases v with
  | list items =>
    simp only [rename, methods]
    exact methodsOf_renameItems f items
  | function g => cases g <;> simp only [rename, Function.rename, methods, List.map]
  | _ => simp only [rename, methods, List.map]

theorem methodsOf_renameItems (f : Nat → Nat) (vs : List Value) :
    methodsOf (renameItems f vs) = (methodsOf vs).map f := by
  cases vs with
  | nil => simp only [renameItems, methodsOf, List.map]
  | cons v rest =>
    simp only [renameItems, methodsOf]
    rw [methods_rename f v, methodsOf_renameItems f rest, List.map_append]

end

/-- Make room for `gap` new numbers from `base` on. -/
def shift (base gap i : Nat) : Nat := if i < base then i else i + gap

theorem shift_injective (base gap : Nat) : (shift base gap).Injective := by
  intro i j h
  unfold shift at h
  split at h <;> split at h <;> omega

theorem Below.rename_shift {base : Nat} (h : v.Below base) (gap : Nat) :
    v.rename (shift base gap) = v :=
  rename_eq_self v fun i hi => if_pos (h i hi)

/-- A value that keeps below the room made was not renamed. -/
theorem Below.of_rename_shift {base gap : Nat} (h : (v.rename (shift base gap)).Below (base + gap)) :
    v.Below base := by
  intro i hi
  have hlt := h (shift base gap i) (by
    rw [methods_rename]
    exact List.mem_map_of_mem hi)
  unfold shift at hlt
  split at hlt <;> omega

end Value

/-! ### Operators -/

namespace Template

variable {f : Nat → Nat}

theorem convert_rename (conversion : Char) (precision : Option Nat) (v : Value) :
    convert conversion precision (v.rename f) = convert conversion precision v := by
  unfold convert
  rw [Value.text_rename, Value.reprChars_rename, Value.asFloat?_rename, Value.typeName_rename]
  cases v <;> rfl

theorem fill_renameItems (ps : List Piece) (vs : List Value) :
    fill ps (Value.renameItems f vs) = fill ps vs := by
  induction ps generalizing vs with
  | nil => cases vs <;> rfl
  | cons p rest ih =>
    cases p with
    | literal c =>
      rw [fill, fill, ih]
    | directive d =>
      rw [fill, fill, ih]
      cases vs with
      | nil => rfl
      | cons v vs =>
        simp only [Value.renameItems, convert_rename, ih]

theorem render_rename (template : String) (v : Value) :
    render template (v.rename f) = render template v := by
  cases v with
  | list items => exact congrArg (· >>= _) (fill_renameItems _ items)
  | function g => exact congrArg (· >>= _) (fill_renameItems _ [.function g])
  | _ => rfl

end Template

namespace Operators

variable {f : Nat → Nat}

theorem map_checkedInt (f : Nat → Nat) (i : Int) :
    (checkedInt i).map (Value.rename f) = checkedInt i := by
  unfold checkedInt
  split <;> rfl

theorem map_intBinary (f : Nat → Nat) (op : BinaryOp) (i j : Int) :
    (intBinary op i j).map (Value.rename f) = intBinary op i j := by
  cases op with
  | add | sub | mul => exact map_checkedInt f _
  | div =>
    simp only [intBinary]
    split <;> rfl
  | floorDiv | mod =>
    simp only [intBinary]
    split
    · rfl
    · cases floorDivide i j <;> rfl

theorem map_floatBinary (f : Nat → Nat) (op : BinaryOp) (x y : Float) :
    (floatBinary op x y).map (Value.rename f) = floatBinary op x y := by
  cases op with
  | add | sub | mul => rfl
  | div | floorDiv | mod =>
    simp only [floatBinary]
    split <;> rfl

theorem map_repeatText (f : Nat → Nat) (s : String) (times : Int) :
    (repeatText s times).map (Value.rename f) = repeatText s times := by
  unfold repeatText
  cases repetitions s.utf8ByteSize times <;> rfl

theorem repeatList_renameItems (vs : List Value) (times : Int) :
    repeatList (Value.renameItems f vs) times = (repeatList vs times).map (Value.rename f) := by
  unfold repeatList
  rw [Value.length_renameItems]
  cases repetitions vs.length times with
  | error e => rfl
  | ok n =>
    refine congrArg Except.ok (congrArg Value.list ?_)
    cases vs with
    | nil => rfl
    | cons v rest =>
      change (List.replicate n (Value.renameItems f (v :: rest))).flatten
        = Value.renameItems f (List.replicate n (v :: rest)).flatten
      rw [Value.renameItems_eq_map, Value.renameItems_eq_map, List.map_flatten,
        List.map_replicate]

theorem unary_rename (op : UnaryOp) (v : Value) :
    unary op (v.rename f) = (unary op v).map (Value.rename f) := by
  have hneg (i : Int) := map_checkedInt f (-i)
  cases op with
  | not =>
    simp only [unary, Value.truthy_rename]
    rfl
  | neg =>
    cases v with
    | int i => exact (hneg i).symm
    | bool b => exact (hneg _).symm
    | _ => rfl
  | pos => cases v <;> rfl

theorem mixedBinary_mod_str (template : String) (v : Value) :
    mixedBinary .mod (.str template) (v.rename f)
      = (mixedBinary .mod (.str template) v).map (Value.rename f) := by
  simp only [mixedBinary]
  rw [Template.render_rename]
  cases Template.render template v <;> rfl

theorem mixedBinary_add_list (vs ws : List Value) :
    mixedBinary .add (.list (Value.renameItems f vs)) (.list (Value.renameItems f ws))
      = (mixedBinary .add (.list vs) (.list ws)).map (Value.rename f) := by
  refine congrArg Except.ok (congrArg Value.list ?_)
  rw [Value.renameItems_eq_map, Value.renameItems_eq_map, Value.renameItems_eq_map,
    List.map_append]

/-- All other cases are repetitions and arithmetic on floats. -/
theorem mixedBinary_rename (op : BinaryOp) (a b : Value) :
    mixedBinary op (a.rename f) (b.rename f) = (mixedBinary op a b).map (Value.rename f) := by
  cases op <;> cases a
  case mod.str s => exact mixedBinary_mod_str s b
  all_goals cases b
  case add.list.list vs ws => exact mixedBinary_add_list vs ws
  all_goals
    simp only [Value.rename, mixedBinary, Value.asInt?, Value.asFloat?]
    first
      | rfl
      | exact (map_floatBinary f _ _ _).symm
      | exact (map_repeatText f _ _).symm
      | exact repeatList_renameItems _ _

theorem binary_rename (op : BinaryOp) (a b : Value) :
    binary op (a.rename f) (b.rename f) = (binary op a b).map (Value.rename f) := by
  unfold binary
  rw [Value.asInt?_rename, Value.asInt?_rename]
  split
  · exact (map_intBinary f op _ _).symm
  · exact mixedBinary_rename op a b

theorem order_rename (a b : Value) : order (a.rename f) (b.rename f) = order a b := by
  cases a <;> cases b <;> rfl

end Operators

end ReactiveView
