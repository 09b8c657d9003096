import ReactiveView.Expr.Eval
import ReactiveView.Proofs.Value.Rounding

/-!
This module contains how the comparisons of numbers go together. Between two integers, equality is
exact, while order goes by the floats next to the integers. So what is true of the operators in
general - that one of `<`, `==` and `>` holds, that `<=` and `>=` say what their signs say, that
`==` is transitive - fails for two integers that have the same float next to them, and for no other
numbers.
-/

namespace ReactiveView

/-! ### Order and equality of floats -/

section

open Float.Model (UnpackedFloat)

variable {u v w : UnpackedFloat} {x y z : Float}

/-- Equal floats compare alike with everything. -/
theorem compare_unpackedFloat_congr (h : u.compare v = some .eq) (w : UnpackedFloat) :
    u.compare w = v.compare w := by
  have hfinite {e f : Int} {m n : Nat} (h : (compare e f).then (compare m n) = .eq) :
      e = f ∧ m = n := by
    rwa [Ordering.then_eq_eq, Int.compare_eq_eq, Nat.compare_eq_eq] at h
  rcases u with s | _ | s | ⟨s, m, e, hm⟩
  · rcases v with t | _ | t | ⟨t, n, f, hn⟩ <;> cases s <;> (try cases t) <;> cases h
    · rfl
    · rfl
  · cases v <;> cases h
  · rcases v with t | _ | t | ⟨t, n, f, hn⟩ <;> (try cases t) <;> cases h
    all_goals
      rcases w with r | _ | r | ⟨r, _, _, _⟩ <;> (try cases r) <;> rfl
  · rcases v with t | _ | t | ⟨t, n, f, hn⟩
    · cases s <;> cases t <;> cases h
    · cases s <;> cases h
    · cases s <;> cases h
    · cases s <;> cases t
      · obtain ⟨rfl, rfl⟩ := hfinite (Ordering.swap_eq_eq.1 (Option.some.inj h))
        rfl
      · cases h
      · cases h
      · obtain ⟨rfl, rfl⟩ := hfinite (Option.some.inj h)
        rfl

theorem exists_compare_unpackedFloat (hu : u.isNaN = false) (hv : v.isNaN = false) :
    ∃ o, u.compare v = some o := by
  rcases u with s | _ | s | ⟨s, m, e, hm⟩
  · rcases v with t | _ | t | ⟨t, n, f, hn⟩
    · exact ⟨_, rfl⟩
    · cases hv
    · cases s <;> exact ⟨_, rfl⟩
    · cases s <;> exact ⟨_, rfl⟩
  · cases hu
  · rcases v with t | _ | t | ⟨t, n, f, hn⟩
    · cases t <;> exact ⟨_, rfl⟩
    · cases hv
    · exact ⟨_, rfl⟩
    · cases t <;> exact ⟨_, rfl⟩
  · rcases v with t | _ | t | ⟨t, n, f, hn⟩
    · cases t <;> exact ⟨_, rfl⟩
    · cases hv
    · cases s <;> exact ⟨_, rfl⟩
    · cases s <;> cases t <;> exact ⟨_, rfl⟩

theorem float_beq_iff : (x == y) = true ↔ x.toModel.unpack.compare y.toModel.unpack = some .eq := by
  change (x.toModel.unpack.compare y.toModel.unpack == some .eq) = true ↔ _
  exact beq_iff_eq

theorem float_lt_iff : x < y ↔ x.toModel.unpack.compare y.toModel.unpack = some .lt := by
  have hlt : x < y ↔ decide (x.toModel < y.toModel) = true := Iff.rfl
  rw [hlt, decide_eq_true_iff]
  exact beq_iff_eq

theorem float_beq_trans (h : (x == y) = true) (h' : (y == z) = true) : (x == z) = true := by
  rw [float_beq_iff] at *
  rw [compare_unpackedFloat_congr h, h']

theorem Operators.floatOrder_eq (x y : Float) :
    floatOrder x y = x.toModel.unpack.compare y.toModel.unpack := by
  have hswap := compare_unpackedFloat_swap x.toModel.unpack y.toModel.unpack
  unfold floatOrder
  simp only [float_lt_iff, float_beq_iff, hswap]
  rcases x.toModel.unpack.compare y.toModel.unpack with _ | _ | _ | _ <;> rfl

/-- Floats other than NaN have an order. -/
theorem Operators.exists_floatOrder (hx : x.isNaN = false) (hy : y.isNaN = false) :
    ∃ o, floatOrder x y = some o := by
  rw [floatOrder_eq]
  exact exists_compare_unpackedFloat hx hy

end

/-! ### Numbers -/

/--
A number that comparisons are meant for: an integer of 64 bits or a float other than NaN.
-/
inductive Number where
  | int (i : Int) (fits : Word.fits i = true)
  | float (x : Float) (real : x.isNaN = false)

namespace Number

/-- How a number is written down. -/
def literal : Number → Literal
  | int i _ => .int i
  | float x _ => .float x

/-- The float next to a number. -/
def toFloat : Number → Float
  | int i _ => Float.ofInt i
  | float x _ => x

/-- Two different integers with the same float next to them. -/
def Blurred : Number → Number → Prop
  | int i _, int j _ => i ≠ j ∧ (Float.ofInt i == Float.ofInt j) = true
  | _, _ => False

/-- What `a op b` evaluates to in every store and scope. -/
def Gives (op : CompareOp) (a b : Number) (holds : Bool) : Prop :=
  ∀ store scope fresh, (Expr.compare (.literal a.literal) [(op, .literal b.literal)]).run
    store scope fresh = (.ok (.bool holds), { fresh })

/-- The comparisons that look at the order of two numbers. -/
def comparisons : List CompareOp := [.lt, .le, .eq, .ne, .ge, .gt]

/-- What a comparison reads off the order of two numbers. -/
def reads (o : Ordering) : CompareOp → Bool
  | .lt => o == .lt
  | .le => o != .gt
  | .eq => o == .eq
  | .ne => o != .eq
  | .ge => o != .lt
  | .gt => o == .gt
  | .isIn | .notIn => false

/--
How the comparisons of two numbers go together.
-/
structure Agree (a b : Number) : Prop where
  /-- Every comparison has a result. -/
  total : ∀ op ∈ comparisons, ∃ holds, Gives op a b holds
  /-- Exactly one of `<`, `==` and `>` holds. -/
  one : Gives .lt a b true ∧ ¬Gives .eq a b true ∧ ¬Gives .gt a b true ∨
    ¬Gives .lt a b true ∧ Gives .eq a b true ∧ ¬Gives .gt a b true ∨
    ¬Gives .lt a b true ∧ ¬Gives .eq a b true ∧ Gives .gt a b true
  /-- `<=` is `<` or `==`. -/
  le : Gives .le a b true ↔ Gives .lt a b true ∨ Gives .eq a b true
  /-- `>=` is `>` or `==`. -/
  ge : Gives .ge a b true ↔ Gives .gt a b true ∨ Gives .eq a b true
  /-- Integers compare as integers. -/
  integers : ∀ i j hi hj, a = int i hi → b = int j hj →
    (Gives .lt a b true ↔ i < j) ∧ (Gives .eq a b true ↔ i = j) ∧ (Gives .gt a b true ↔ j < i)

variable {a b c : Number} {o : Ordering} {op : CompareOp} {holds holds' : Bool}

theorem stands_toFloat {i : Int} (fits : Word.fits i = true) :
    Rounding.Stands (Float.ofInt i).toModel.unpack (Rounding.intUnits i) := by
  have hword := Word.fits_iff.1 fits
  exact Rounding.stands_ofInt (by omega)

theorem isNaN_toFloat (a : Number) : a.toFloat.isNaN = false := by
  cases a with
  | int i fits => exact (stands_toFloat fits).isNaN_eq_false
  | float x real => exact real

theorem exists_floatOrder (a b : Number) :
    ∃ o, Operators.floatOrder a.toFloat b.toFloat = some o :=
  Operators.exists_floatOrder a.isNaN_toFloat b.isNaN_toFloat

theorem beq_toFloat (h : Operators.floatOrder a.toFloat b.toFloat = some o) :
    (a.toFloat == b.toFloat) = (o == .eq) := by
  rw [Operators.floatOrder_eq] at h
  rw [Bool.eq_iff_iff, float_beq_iff, h, beq_iff_eq, Option.some_inj]

/-- Order goes by the floats next to the numbers. -/
theorem order_value (h : Operators.floatOrder a.toFloat b.toFloat = some o) :
    Operators.order a.literal.value b.literal.value = .ok o := by
  unfold Operators.order
  cases a <;> cases b <;>
  · simp only [literal, Literal.value, Value.asFloat?]
    simp only [toFloat] at h
    rw [h]

/-- Equality goes by the floats next to the numbers as well, unless both are integers. -/
theorem equal_value (h : ¬Blurred a b) :
    a.literal.value.equal b.literal.value = (a.toFloat == b.toFloat) := by
  cases a with
  | float x hx =>
    cases b with
    | float y hy => rfl
    | int j hj => exact float_beq_comm _ _
  | int i hi =>
    cases b with
    | float y hy => rfl
    | int j hj =>
      change (i == j) = (Float.ofInt i == Float.ofInt j)
      by_cases hij : i = j
      · subst hij
        have hself : (Float.ofInt i == Float.ofInt i) = true := by
          rw [float_beq_iff, (stands_toFloat hi).compare_eq (stands_toFloat hi),
            Int.compare_eq_eq.2 rfl]
        rw [beq_self_eq_true, hself]
      · rw [beq_eq_false_iff_ne.2 hij]
        exact (Bool.eq_false_iff.2 fun hsame => h ⟨hij, hsame⟩).symm

theorem gives_iff
    (h : ∀ store, Eval.compare store op a.literal.value b.literal.value = .ok holds) :
    Gives op a b holds' ↔ holds' = holds := by
  have hrun (store : Store) (scope : Scope) (fresh : Nat) :
      (Expr.compare (.literal a.literal) [(op, .literal b.literal)]).run store scope fresh =
        (.ok (.bool holds), { fresh }) := by
    simp only [Expr.run, Expr.eval, evalLinks, pure_bind, h]
    cases holds <;> rfl
  constructor
  · intro hgives
    have hsame := (hgives {} {} 0).symm.trans (hrun {} {} 0)
    cases hsame
    rfl
  · rintro rfl
    exact hrun

/-- Integers that are not blurred compare as integers, since conversion keeps their order. -/
theorem compare_integers {i j : Int} (hi : Word.fits i = true) (hj : Word.fits j = true)
    (h : ¬Blurred (int i hi) (int j hj))
    (ho : Operators.floatOrder (Float.ofInt i) (Float.ofInt j) = some o) : o = compare i j := by
  have hunits := (stands_toFloat hi).compare_eq (stands_toFloat hj)
  have hdiffer (hij : i ≠ j) : Rounding.intUnits i ≠ Rounding.intUnits j := by
    intro hsame
    refine h ⟨hij, float_beq_iff.2 ?_⟩
    rw [hunits, Int.compare_eq_eq.2 hsame]
  rw [Operators.floatOrder_eq, hunits] at ho
  rw [← Option.some.inj ho]
  rcases Int.lt_trichotomy i j with hlt | rfl | hgt
  · have hle := Rounding.intUnits_mono (Int.le_of_lt hlt)
    rw [Int.compare_eq_lt.2 hlt,
      Int.compare_eq_lt.2 (Int.lt_iff_le_and_ne.2 ⟨hle, hdiffer (Int.ne_of_lt hlt)⟩)]
  · rw [Int.compare_eq_eq.2 rfl, Int.compare_eq_eq.2 rfl]
  · have hle := Rounding.intUnits_mono (Int.le_of_lt hgt)
    rw [Int.compare_eq_gt.2 hgt,
      Int.compare_eq_gt.2 (Int.lt_iff_le_and_ne.2 ⟨hle, (hdiffer (Int.ne_of_gt hgt)).symm⟩)]

/-- All comparisons of numbers that are not blurred read one order. -/
theorem gives_iff_reads (h : ¬Blurred a b)
    (ho : Operators.floatOrder a.toFloat b.toFloat = some o) (hop : op ∈ comparisons) :
    Gives op a b holds ↔ holds = reads o op := by
  have horder := order_value ho
  have hequal := (equal_value h).trans (beq_toFloat ho)
  refine gives_iff fun store => ?_
  unfold Eval.compare
  rw [horder, hequal]
  simp only [comparisons, List.mem_cons, List.not_mem_nil, or_false] at hop
  rcases hop with rfl | rfl | rfl | rfl | rfl | rfl <;> rfl

theorem agree (h : ¬Blurred a b) : Agree a b := by
  obtain ⟨o, ho⟩ := exists_floatOrder a b
  have hreads {op : CompareOp} {holds : Bool} (hop : op ∈ comparisons) :
      Gives op a b holds ↔ holds = reads o op :=
    gives_iff_reads h ho hop
  have hlt : Gives .lt a b true ↔ true = reads o .lt := hreads (by decide)
  have heq : Gives .eq a b true ↔ true = reads o .eq := hreads (by decide)
  have hgt : Gives .gt a b true ↔ true = reads o .gt := hreads (by decide)
  refine ⟨fun op hop => ⟨_, (hreads hop).2 rfl⟩, ?_, ?_, ?_, ?_⟩
  · rw [hlt, heq, hgt]
    cases o <;> decide
  · rw [hlt, heq, hreads (by decide)]
    cases o <;> decide
  · rw [hgt, heq, hreads (by decide)]
    cases o <;> decide
  · rintro i j hi hj rfl rfl
    rw [hlt, heq, hgt, compare_integers hi hj h ho]
    have hbeq {o : Ordering} : true = (compare i j == o) ↔ compare i j = o := by
      rw [eq_comm, beq_iff_eq]
    exact ⟨hbeq.trans Int.compare_eq_lt, hbeq.trans Int.compare_eq_eq,
      hbeq.trans Int.compare_eq_gt⟩

/-- Equality of integers is exact. -/
theorem gives_eq_integers {i j : Int} (hi : Word.fits i = true) (hj : Word.fits j = true) :
    Gives .eq (int i hi) (int j hj) holds ↔ holds = (i == j) :=
  gives_iff fun _ => rfl

/-- Equal numbers have the same float next to them. -/
theorem beq_toFloat_of_gives (h : Gives .eq a b true) : (a.toFloat == b.toFloat) = true := by
  by_cases hblurred : Blurred a b
  · cases a with
    | float => exact hblurred.elim
    | int i hi =>
      cases b with
      | float => exact hblurred.elim
      | int j hj => exact hblurred.2
  · obtain ⟨o, ho⟩ := exists_floatOrder a b
    rw [gives_iff_reads hblurred ho (by decide)] at h
    exact (beq_toFloat ho).trans h.symm

/--
The comparisons of numbers agree, but for different integers with the same float next to them: one
of `<`, `==` and `>` holds and `<=` and `>=` say what their signs say, as on the integers if both
are integers. Equality of integers is exact in any case, and equality of numbers is transitive
where it does not lead from an integer to a blurred one.
-/
theorem agree_of_not_blurred (a b c : Number) :
    (¬Blurred a b → Agree a b) ∧
      (∀ i j hi hj, Gives .eq (int i hi) (int j hj) true ↔ i = j) ∧
      (¬Blurred a c → Gives .eq a b true → Gives .eq b c true → Gives .eq a c true) := by
  refine ⟨agree, fun i j hi hj => ?_, fun h hab hbc => ?_⟩
  · rw [gives_eq_integers, eq_comm, beq_iff_eq]
  · have hac := float_beq_trans (beq_toFloat_of_gives hab) (beq_toFloat_of_gives hbc)
    obtain ⟨o, ho⟩ := exists_floatOrder a c
    rw [gives_iff_reads h ho (by decide)]
    exact hac.symm.trans (beq_toFloat ho)

theorem agree_of_not_blurred_two_three :
    ¬Blurred (int 2 rfl) (int 3 rfl) ∧ Agree (int 2 rfl) (int 3 rfl) :=
  have hblurred : ¬Blurred (int 2 rfl) (int 3 rfl) := fun h => absurd h.2 (by decide +kernel)
  ⟨hblurred, (agree_of_not_blurred (int 2 rfl) (int 3 rfl) (int 3 rfl)).1 hblurred⟩

/-- Beyond `2 ^ 53` integers lie closer together than floats: of two neighbours the less one is not
less, and both are equal to the float next to them without being equal to each other. -/
theorem not_agree_beyond_significand :
    ¬Agree (int 9007199254740992 rfl) (int 9007199254740993 rfl) ∧
      ¬∀ b : Number, Gives .eq (int 9007199254740992 rfl) b true →
        Gives .eq b (int 9007199254740993 rfl) true →
        Gives .eq (int 9007199254740992 rfl) (int 9007199254740993 rfl) true := by
  have hleft : Operators.floatOrder (Float.ofInt 9007199254740992) (Float.ofInt 9007199254740992) =
      some .eq := by decide +kernel
  have hright : Operators.floatOrder (Float.ofInt 9007199254740992) (Float.ofInt 9007199254740993) =
      some .eq := by decide +kernel
  constructor
  · intro h
    have hlt := (h.integers _ _ _ _ rfl rfl).1.2 (by decide)
    have horder := order_value (a := int 9007199254740992 rfl) (b := int 9007199254740993 rfl) hright
    have hless (store : Store) : Eval.compare store .lt (int 9007199254740992 rfl).literal.value
        (int 9007199254740993 rfl).literal.value = .ok false := by
      unfold Eval.compare
      rw [horder]
      rfl
    cases (gives_iff hless).1 hlt
  · intro h
    have hreal : (Float.ofInt 9007199254740992).isNaN = false := by decide +kernel
    have hgives {a b : Number} (hblurred : ¬Blurred a b)
        (ho : Operators.floatOrder a.toFloat b.toFloat = some .eq) : Gives .eq a b true :=
      (gives_iff_reads hblurred ho (by decide)).2 rfl
    have hequal := h (float _ hreal) (hgives id hleft) (hgives id hright)
    cases (gives_eq_integers rfl rfl).1 hequal

end Number

end ReactiveView
