import Mathlib
import ReactiveView.Proofs.Layout.Probes

/-!
This module contains runs of resizes and probes of one layout, resizes inside resizes included. Each
call is answered with a best solution for its own size, and none leaves anything behind.
-/

namespace ReactiveView

namespace Layout

open Solver

/--
A call that asks a layout for a solution at a size.
-/
inductive Call where
  /-- A resize; its receiver makes calls of its own. -/
  | resize (width height : Variable) (size : Size ℚ) (strength : Strength ℚ) (inner : List Call)
  /-- A probe of the least size. -/
  | minSize (width height : Variable) (strength : Strength ℚ)
  /-- A probe of the greatest size. -/
  | maxSize (width height : Variable) (strength : Strength ℚ)

/--
A call and its answer.
-/
inductive Answer where
  /-- A resize, and whether one was running already; then there is no solution. -/
  | resized (running : Bool) (width height : Variable) (size : Size ℚ) (strength : Strength ℚ)
      (outcome : Except LayoutError (Option (Solution ℚ)))
  /-- A probe of the least size. -/
  | least (width height : Variable) (strength : Strength ℚ)
      (outcome : Except LayoutError (Size ℚ))
  /-- A probe of the greatest size. -/
  | greatest (width height : Variable) (strength : Strength ℚ)
      (outcome : Except LayoutError (Size ℚ))

mutual

/-- Make a call: the answers, those inside it included, and the layout after it. -/
def Call.make : Call → Layout ℚ → List Answer × Layout ℚ
  | .resize width height size strength inner, l =>
    let receive (sol : Solution ℚ) (l : Layout ℚ) :=
      let (answers, l) := makeAll inner l
      ((sol, answers), l)
    let answer := Answer.resized l.guard.active width height size strength
    match l.resize width height size strength receive with
    | (.error e, l) => ([answer (.error e)], l)
    | (.ok none, l) => ([answer (.ok none)], l)
    | (.ok (some (sol, answers)), l) => (answer (.ok (some sol)) :: answers, l)
  | .minSize width height strength, l =>
    let (outcome, l) := l.minSize width height strength
    ([.least width height strength outcome], l)
  | .maxSize width height strength, l =>
    let (outcome, l) := l.maxSize width height strength
    ([.greatest width height strength outcome], l)

/-- Make calls one after the other. -/
def makeAll : List Call → Layout ℚ → List Answer × Layout ℚ
  | [], l => ([], l)
  | call :: calls, l =>
    let (answers, l) := call.make l
    let (others, l) := makeAll calls l
    (answers ++ others, l)

end

mutual

/-- Whether a call, and those inside it, edit two variables at a strength below required. -/
def Call.IsFair : Call → Prop
  | .resize width height _ strength inner =>
    width ≠ height ∧ strength.clipped.isRequired = false ∧ AllFair inner
  | .minSize width height strength => width ≠ height ∧ strength.clipped.isRequired = false
  | .maxSize width height strength => width ≠ height ∧ strength.clipped.isRequired = false

/-- Whether all calls are fair. -/
def AllFair : List Call → Prop
  | [] => True
  | call :: calls => call.IsFair ∧ AllFair calls

end

/-- Whether an operation has come to its end before the limit of the loops. -/
def Ends {β : Type} (outcome : Except LayoutError β) : Prop :=
  outcome ≠ .error (.solver .pivotLimit)

instance {β : Type} (outcome : Except LayoutError β) : Decidable (Ends outcome) :=
  match outcome with
  | .error e => decidable_of_iff (e ≠ .solver .pivotLimit) (by simp [Ends])
  | .ok _ => isTrue (by simp [Ends])

/-- Whether a call has come to its end before the limit of the loops. -/
def Answer.HasEnded : Answer → Prop
  | resized _ _ _ _ _ outcome => Ends outcome
  | least _ _ _ outcome => Ends outcome
  | greatest _ _ _ outcome => Ends outcome

/-- Whether an answer tells of a best solution for the size that the call asks for. -/
def Answer.IsRight (cs : List (Constraint ℚ)) : Answer → Prop
  | resized true _ _ _ _ outcome => outcome = .ok none
  | resized false width height size strength outcome =>
    ∃ sol, outcome = .ok (some sol) ∧ IsBest cs strength.clipped width height size sol.value
  | least width height strength outcome =>
    ∃ values, outcome = .ok ⟨values width, values height⟩ ∧
      IsBest cs strength.clipped width height ⟨0, 0⟩ values
  | greatest width height strength outcome =>
    ∃ values, outcome = .ok ⟨boundOf (values width), boundOf (values height)⟩ ∧
      IsBest cs strength.clipped width height ⟨probeSentinel, probeSentinel⟩ values

variable {l : Layout ℚ} {cs : List (Constraint ℚ)} {live : Table Handle (Live ℚ)}
variable {width height : Variable} {size : Size ℚ} {strength : Strength ℚ}

theorem Keeps.congr_guard (h : l.Keeps cs live) (guard : Guard) :
    Keeps { l with guard := guard } cs live := h

/-! ### The single calls -/

theorem Ends.of_map {β γ : Type} {r : Except LayoutError β} {f : β → γ} (h : Ends (r.map f)) :
    Ends r := by
  rintro rfl
  exact h rfl

theorem minSize_eq {r : Except LayoutError (Solution ℚ)} {l' : Layout ℚ}
    (h : l.solveWith "get min size" [(width, 0), (height, 0)] strength = (r, l')) :
    l.minSize width height strength
      = (r.map fun sol => ⟨sol.value width, sol.value height⟩, l') := by
  have hedits : ([(width, Scalar.zero), (height, Scalar.zero)] : List (Variable × ℚ))
      = [(width, 0), (height, 0)] := rfl
  unfold minSize
  dsimp only
  rw [hedits, h]
  cases r <;> rfl

theorem maxSize_eq {r : Except LayoutError (Solution ℚ)} {l' : Layout ℚ}
    (h : l.solveWith "get max size" [(width, probeSentinel), (height, probeSentinel)] strength
      = (r, l')) :
    l.maxSize width height strength
      = (r.map fun sol => ⟨boundOf (sol.value width), boundOf (sol.value height)⟩, l') := by
  unfold maxSize
  dsimp only
  rw [h]
  cases r <;> rfl

section Resize

variable {β : Type} {receive : Solution ℚ → Layout ℚ → β × Layout ℚ} {l' : Layout ℚ}

theorem resize_of_active (h : l.guard.active = true) :
    l.resize width height size strength receive = (.ok none, l) := by
  unfold resize Guard.enter
  rw [h]
  rfl

theorem resize_of_error (h : l.guard.active = false) {e : LayoutError}
    (hsolve : solveWith { l with guard := { active := true } } "layout"
      [(width, size.width), (height, size.height)] strength = (.error e, l')) :
    l.resize width height size strength receive
      = (.error e, { l' with guard := l'.guard.leave }) := by
  unfold resize Guard.enter
  rw [h, Bool.not_false]
  dsimp only
  rw [hsolve]

theorem resize_of_ok (h : l.guard.active = false) {sol : Solution ℚ}
    (hsolve : solveWith { l with guard := { active := true } } "layout"
      [(width, size.width), (height, size.height)] strength = (.ok sol, l')) :
    l.resize width height size strength receive
      = (.ok (some (receive sol l').1),
          { (receive sol l').2 with guard := (receive sol l').2.guard.leave }) := by
  unfold resize Guard.enter
  rw [h, Bool.not_false]
  dsimp only
  rw [hsolve]

end Resize

section Single

variable (h : l.Keeps cs live) (hstrengths : ∀ c ∈ cs, 0 ≤ c.strength.value)
  (hne : width ≠ height) (hsoft : strength.clipped.isRequired = false)
include h hstrengths hne hsoft

theorem Keeps.minSize (hends : Ends (l.minSize width height strength).1) :
    (Answer.least width height strength (l.minSize width height strength).1).IsRight cs ∧
      (l.minSize width height strength).2.Keeps cs live := by
  rcases hsolve : l.solveWith "get min size" [(width, 0), (height, 0)] strength with ⟨r, l'⟩
  rw [minSize_eq hsolve] at hends ⊢
  obtain ⟨sol, rfl, hbest, hkeeps⟩ :=
    h.solveWith ⟨0, 0⟩ hstrengths hne hsoft hsolve hends.of_map
  exact ⟨⟨sol.value, rfl, hbest⟩, hkeeps⟩

theorem Keeps.maxSize (hends : Ends (l.maxSize width height strength).1) :
    (Answer.greatest width height strength (l.maxSize width height strength).1).IsRight cs ∧
      (l.maxSize width height strength).2.Keeps cs live := by
  rcases hsolve : l.solveWith "get max size" [(width, probeSentinel), (height, probeSentinel)]
    strength with ⟨r, l'⟩
  rw [maxSize_eq hsolve] at hends ⊢
  obtain ⟨sol, rfl, hbest, hkeeps⟩ :=
    h.solveWith ⟨probeSentinel, probeSentinel⟩ hstrengths hne hsoft hsolve hends.of_map
  exact ⟨⟨sol.value, rfl, hbest⟩, hkeeps⟩

end Single

/-! ### Runs of calls -/

/-- A resize of a layout that is being resized is dropped. -/
theorem make_resize_of_active (h : l.guard.active = true) (inner : List Call) :
    (Call.resize width height size strength inner).make l
      = ([.resized true width height size strength (.ok none)], l) := by
  rw [Call.make]
  dsimp only
  rw [resize_of_active h, h]

mutual

/-- What a call does to a layout that has been set up. -/
theorem Keeps.make {l : Layout ℚ} (hstrengths : ∀ c ∈ cs, 0 ≤ c.strength.value)
    (h : l.Keeps cs live) (call : Call) (hfair : call.IsFair)
    (hends : ∀ answer ∈ (call.make l).1, answer.HasEnded) :
    (∀ answer ∈ (call.make l).1, answer.IsRight cs) ∧ (call.make l).2.Keeps cs live := by
  cases call with
  | resize width height size strength inner =>
    rw [Call.IsFair] at hfair
    obtain ⟨hne, hsoft, hinner⟩ := hfair
    cases hactive : l.guard.active with
    | true =>
      rw [make_resize_of_active hactive]
      refine ⟨?_, h⟩
      intro answer hmem
      rw [List.mem_singleton.1 hmem]
      rfl
    | false =>
      rcases hsolve : Layout.solveWith { l with guard := { active := true } } "layout"
        [(width, size.width), (height, size.height)] strength with ⟨e | sol, l'⟩
      · rw [Call.make] at hends
        dsimp only at hends
        rw [resize_of_error hactive hsolve] at hends
        obtain ⟨sol, heq, -⟩ := (h.congr_guard _).solveWith size hstrengths hne hsoft hsolve
          fun heq => hends _ List.mem_cons_self (by rw [Except.error.inj heq])
        cases heq
      · -- The calls inside see the guard up, and the layout as the edits have left it.
        obtain ⟨sol', heq, hbest, hkeeps⟩ :=
          (h.congr_guard _).solveWith size hstrengths hne hsoft hsolve (by simp)
        cases heq
        rw [Call.make] at hends ⊢
        dsimp only at hends ⊢
        rw [resize_of_ok hactive hsolve] at hends ⊢
        dsimp only at hends ⊢
        have hrest := hkeeps.makeAll hstrengths inner hinner
          fun answer hmem => hends answer (List.mem_cons_of_mem _ hmem)
        refine ⟨?_, hrest.2.congr_guard _⟩
        intro answer hmem
        rcases List.mem_cons.1 hmem with rfl | hmem
        · rw [hactive]
          exact ⟨sol, rfl, hbest⟩
        · exact hrest.1 answer hmem
  | minSize width height strength =>
    rw [Call.IsFair] at hfair
    rw [Call.make] at hends ⊢
    have hspec := h.minSize hstrengths hfair.1 hfair.2 (hends _ List.mem_cons_self)
    refine ⟨?_, hspec.2⟩
    intro answer hmem
    rw [List.mem_singleton.1 hmem]
    exact hspec.1
  | maxSize width height strength =>
    rw [Call.IsFair] at hfair
    rw [Call.make] at hends ⊢
    have hspec := h.maxSize hstrengths hfair.1 hfair.2 (hends _ List.mem_cons_self)
    refine ⟨?_, hspec.2⟩
    intro answer hmem
    rw [List.mem_singleton.1 hmem]
    exact hspec.1

/-- What a list of calls does to a layout that has been set up. -/
theorem Keeps.makeAll {l : Layout ℚ} (hstrengths : ∀ c ∈ cs, 0 ≤ c.strength.value)
    (h : l.Keeps cs live) (calls : List Call) (hfair : AllFair calls)
    (hends : ∀ answer ∈ (Layout.makeAll calls l).1, answer.HasEnded) :
    (∀ answer ∈ (Layout.makeAll calls l).1, answer.IsRight cs) ∧
      (Layout.makeAll calls l).2.Keeps cs live := by
  cases calls with
  | nil =>
    rw [Layout.makeAll]
    refine ⟨?_, h⟩
    intro answer hmem
    cases hmem
  | cons call calls =>
    rw [AllFair] at hfair
    rw [Layout.makeAll] at hends ⊢
    dsimp only at hends ⊢
    obtain ⟨hright, hkeeps⟩ := h.make hstrengths call hfair.1
      fun answer hmem => hends answer (List.mem_append_left _ hmem)
    obtain ⟨hright', hkeeps'⟩ := hkeeps.makeAll hstrengths calls hfair.2
      fun answer hmem => hends answer (List.mem_append_right _ hmem)
    refine ⟨?_, hkeeps'⟩
    intro answer hmem
    rcases List.mem_append.1 hmem with hmem | hmem
    · exact hright answer hmem
    · exact hright' answer hmem

end

/-- After a layout has been set up every resize and every probe of a run finds a best solution for
its own size, and after the run the constraints and the edit variables are those of before. -/
theorem calls_correct (hstrengths : ∀ c ∈ cs, 0 ≤ c.strength.value)
    (hok : (l.setUp cs).1 = .ok ()) {calls : List Call} (hfair : AllFair calls)
    (hends : ∀ answer ∈ (makeAll calls (l.setUp cs).2.2).1, answer.HasEnded) :
    (∀ answer ∈ (makeAll calls (l.setUp cs).2.2).1, answer.IsRight cs) ∧
      ∃ s t, (l.setUp cs).2.2.solver = some s ∧
        (makeAll calls (l.setUp cs).2.2).2.solver = some t ∧ t.live = s.live ∧
        t.edits = s.edits := by
  obtain ⟨s, hsolver, hs⟩ := exists_loaded_of_setUp hstrengths hok
  have hkeeps : (l.setUp cs).2.2.Keeps cs s.live := ⟨s, hsolver, hs, rfl⟩
  obtain ⟨hright, t, hsolver', ht, hlive⟩ := hkeeps.makeAll hstrengths calls hfair hends
  exact ⟨hright, s, t, hsolver, hsolver', hlive, ht.edits.trans hs.edits.symm⟩

instance : DecidablePred Answer.HasEnded
  | .resized _ _ _ _ _ outcome => inferInstanceAs (Decidable (Ends outcome))
  | .least _ _ _ outcome => inferInstanceAs (Decidable (Ends outcome))
  | .greatest _ _ _ outcome => inferInstanceAs (Decidable (Ends outcome))

/-- A resize that is resized and probed inside, and a probe after it. -/
def sampleCalls : List Call :=
  [.resize ⟨0⟩ ⟨1⟩ ⟨30, 20⟩ .medium
      [.resize ⟨0⟩ ⟨1⟩ ⟨1, 1⟩ .medium [], .minSize ⟨0⟩ ⟨1⟩ .medium],
    .maxSize ⟨0⟩ ⟨1⟩ .medium]

theorem calls_sample_correct :
    (makeAll sampleCalls (({} : Layout ℚ).setUp sampleConstraints).2.2).1.length = 4 ∧
      ∀ answer ∈ (makeAll sampleCalls (({} : Layout ℚ).setUp sampleConstraints).2.2).1,
        answer.IsRight sampleConstraints := by
  have hfair : AllFair sampleCalls := by
    simp only [sampleCalls, AllFair, Call.IsFair]
    decide +kernel
  refine ⟨by decide +kernel, ?_⟩
  exact (calls_correct sampleConstraints_nonneg (by decide +kernel) hfair (by decide +kernel)).1

end Layout

end ReactiveView
