import Mathlib
import ReactiveView.Layout.Container
import ReactiveView.Proofs.Simplex.Listing
import ReactiveView.Proofs.Simplex.Optimum

/-!
This module contains what it means to set a layout up: it succeeds just where the constraints are
distinct and the required ones can be met together, and then the others are missed by as little as
possible.
-/

namespace ReactiveView

namespace Solver

/-- A system of the constraints of a list, without edit variables. -/
structure Loaded (s : Solver ℚ) (cs : List (Constraint ℚ)) : Prop where
  consistent : s.Consistent
  pinned : s.Pinned
  edits : s.edits = Table.empty
  lists : s.Lists cs

variable {s t : Solver ℚ} {cs done rest : List (Constraint ℚ)} {c : Constraint ℚ} {key : Handle}
variable {lv : Live ℚ} {values : Variable → ℚ} {r : Except SolverError Unit} {e : SolverError}

/-! ### The listed constraints -/

section Lists

variable (h : s.Lists cs)
include h

variable (ha : s.live.Ascending)
include ha

theorem Lists.isMet_iff : s.IsMet values ↔ Constraint.AllMet cs values := by
  constructor
  · intro hmet c hc
    obtain ⟨lv, hlv, rfl⟩ := (h.mem_iff ha).2 ⟨hc, rfl⟩
    exact hmet _ lv hlv
  · intro hmet key lv hlv
    exact hmet _ ((h.mem_iff ha).1 ⟨lv, hlv, rfl⟩).1

theorem Lists.weighted (hstrengths : ∀ c ∈ cs, 0 ≤ c.strength.value) : s.Weighted := by
  intro key lv hlv
  exact hstrengths _ ((h.mem_iff ha).1 ⟨lv, hlv, rfl⟩).1

omit ha in
theorem Lists.penalty_eq (target : Handle → ℚ) (htarget : ∀ key, target key = 0) :
    s.penalty target values = Constraint.totalPenalty cs values := by
  have hentry : ∀ entry : Handle × Live ℚ, entry.2.penalty values (target entry.1)
      = entry.2.constraint.penalty values := by
    intro entry
    unfold Live.penalty Constraint.penalty
    rw [htarget, Live.gap_zero]
  have hperm := (List.Perm.map (fun entry => entry.2.penalty values) h).sum_eq
  rw [List.map_map, List.map_map] at hperm
  unfold penalty Constraint.totalPenalty
  simp only [hentry]
  exact hperm

end Lists

/-! ### Loading a list -/

theorem loaded_new : Loaded (Solver.new : Solver ℚ) [] where
  consistent := consistent_new
  pinned := pinned_new
  edits := rfl
  lists := .nil

section Loaded

variable (h : s.Loaded cs)
include h

theorem Loaded.ascending : s.live.Ascending :=
  h.consistent.valid.sound.models.tagged.ascending

theorem Loaded.targetOf_eq (key : Handle) : s.targetOf key = 0 := by
  unfold targetOf
  rw [h.edits]
  rfl

theorem Loaded.allMet : Constraint.AllMet cs s.value :=
  (h.lists.isMet_iff h.ascending).1 (h.consistent.valid.sound.isMet h.pinned)

/-- The values miss the constraints by as little as possible. -/
theorem Loaded.totalPenalty_le (hstrengths : ∀ c ∈ cs, 0 ≤ c.strength.value) (ho : s.Optimal)
    (hmet : Constraint.AllMet cs values) :
    Constraint.totalPenalty cs s.value ≤ Constraint.totalPenalty cs values := by
  have hle := h.consistent.valid.sound.penalty_value_le ho (h.lists.weighted h.ascending hstrengths)
    ((h.lists.isMet_iff h.ascending).2 hmet)
  rwa [h.lists.penalty_eq _ h.targetOf_eq, h.lists.penalty_eq _ h.targetOf_eq] at hle

theorem Loaded.add (hperform : s.perform (Solver.add c) = (.ok (), t)) : t.Loaded (cs ++ [c]) := by
  have hadds := h.consistent.performs_addAs hperform
  obtain ⟨hedits, -, -, hnone, -, tag, -, hlive⟩ := hadds.lists ordinary_ok
  exact ⟨h.consistent.add hperform ordinary_ok,
    h.consistent.pinned_add hperform ordinary_ok h.pinned, hedits.trans h.edits,
    h.lists.insert hnone hlive⟩

theorem Loaded.add_error (hstrengths : ∀ c ∈ cs, 0 ≤ c.strength.value) (hc : 0 ≤ c.strength.value)
    (hperform : s.perform (Solver.add c) = (.error e, t))
    (hnodup : ((cs ++ [c]).map Constraint.id).Nodup) (hmet : Constraint.AllMet (cs ++ [c]) values) :
    e = .pivotLimit := by
  have hmet' : s.IsMet values := by
    rw [h.lists.isMet_iff h.ascending]
    intro c' hc'
    exact hmet c' (List.mem_append_left _ hc')
  have herror := (h.consistent.performs_addAs hperform).of_error h.consistent.valid.sound h.pinned
    (h.lists.weighted h.ascending hstrengths) hc (fun _ => h.targetOf_eq _) hmet'
    (hmet c (by simp))
  rcases herror with hlimit | hlive
  · exact hlimit
  · obtain ⟨lv, hlv⟩ := Option.ne_none_iff_exists'.1 hlive
    obtain ⟨hmem, hkey⟩ := (h.lists.mem_iff h.ascending).1 ⟨lv, hlv, rfl⟩
    rw [List.map_append, List.nodup_append] at hnodup
    exact absurd (Handle.given.inj hkey).symm (hnodup.2.2 _ (List.mem_map_of_mem hmem) _ (by simp))

end Loaded

theorem perform_addAll_cons (s : Solver ℚ) (c : Constraint ℚ) (rest : List (Constraint ℚ)) :
    s.perform (Layout.addAll (c :: rest)) =
      match s.perform (Solver.add c) with
      | (.ok (), t) => t.perform (Layout.addAll rest)
      | (.error e, t) => (.error e, t) := by
  have hcons : Layout.addAll (c :: rest) = Solver.add c >>= fun _ => Layout.addAll rest := rfl
  rw [hcons, perform_bind]
  rcases s.perform (Solver.add c) with ⟨_ | _, t⟩ <;> rfl

/-- What becomes of a list of additions. -/
theorem Loaded.addAll (h : s.Loaded done) (hstrengths : ∀ c ∈ done ++ rest, 0 ≤ c.strength.value)
    (hperform : s.perform (Layout.addAll rest) = (r, t)) :
    (r = .ok () ∧ t.Loaded (done ++ rest)) ∨
      ∃ e, r = .error e ∧ (e = .pivotLimit ∨
        ¬(((done ++ rest).map Constraint.id).Nodup ∧
          ∃ values, Constraint.AllMet (done ++ rest) values)) := by
  -- The constraints that are loaded grow at the end as the rest is worked off.
  induction rest generalizing s done with
  | nil =>
    cases hperform
    rw [List.append_nil]
    exact .inl ⟨rfl, h⟩
  | cons c rest ih =>
    have hsplit : done ++ c :: rest = (done ++ [c]) ++ rest := by simp
    rw [hsplit] at hstrengths ⊢
    rw [perform_addAll_cons] at hperform
    rcases hadd : s.perform (Solver.add c) with ⟨e | _, u⟩
    · rw [hadd] at hperform
      cases hperform
      refine .inr ⟨e, rfl, or_iff_not_imp_right.2 fun hfeasible => ?_⟩
      obtain ⟨hnodup, values, hmet⟩ := not_not.1 hfeasible
      rw [List.map_append] at hnodup
      refine h.add_error ?_ ?_ hadd hnodup.of_append_left fun c' hc' =>
        hmet c' (List.mem_append_left _ hc')
      · intro c' hc'
        exact hstrengths c' (by simp [hc'])
      · exact hstrengths c (by simp)
    · rw [hadd] at hperform
      exact ih (h.add hadd) hstrengths hperform

theorem Loaded.congr_autoSolve (h : s.Loaded cs) {enabled : Bool} :
    Loaded { s with autoSolve := enabled } cs :=
  ⟨h.consistent.congr_autoSolve, h.pinned.congr rfl, h.edits, h.lists⟩

/-- Switching minimisation on again ends at an optimum, or at the limit of the loop. -/
theorem Loaded.setAutoSolve (h : s.Loaded cs) (hstrengths : ∀ c ∈ cs, 0 ≤ c.strength.value)
    (hperform : s.perform (Solver.setAutoSolve true) = (r, t)) :
    (r = .ok () ∧ t.Loaded cs ∧ t.Optimal) ∨ r = .error .pivotLimit := by
  rw [perform_setAutoSolve_eq, if_pos rfl] at hperform
  have hs : Loaded { s with autoSolve := true } cs := h.congr_autoSolve
  have hsolves := perform_solve hs.consistent.valid.sound.models.solved.ascending hperform
  have hnames := hsolves.sameNames
  cases r with
  | ok =>
    obtain ⟨ht, -, ho⟩ := hs.consistent.solves hsolves
    exact .inl ⟨rfl, ⟨ht, hsolves.pinned hs.consistent.valid.sound.models.solved hs.pinned,
      hnames.edits.trans h.edits, h.lists.congr hnames.live⟩, ho⟩
  | error e =>
    rw [hsolves.eq_pivotLimit hs.consistent.valid.sound
      (hs.lists.weighted hs.ascending hstrengths)]
    exact .inr rfl

end Solver

namespace Layout

open Solver

variable {l : Layout ℚ} {cs : List (Constraint ℚ)}

/-- What a layout does to be set up. -/
def loading (cs : List (Constraint ℚ)) : Solving ℚ Unit := do
  Solver.setAutoSolve false
  addAll cs
  Solver.setAutoSolve true

theorem perform_loading (cs : List (Constraint ℚ)) :
    (Solver.new : Solver ℚ).perform (loading cs) =
      match Solver.perform { (Solver.new : Solver ℚ) with autoSolve := false } (addAll cs) with
      | (.ok (), s) => s.perform (Solver.setAutoSolve true)
      | (.error e, s) => (.error e, s) := by
  unfold loading
  rw [perform_bind, perform_setAutoSolve_eq, if_neg (by simp)]
  dsimp only
  rw [perform_bind]
  rcases Solver.perform { (Solver.new : Solver ℚ) with autoSolve := false } (addAll cs)
    with ⟨_ | _, s⟩ <;> rfl

/-- How it ends to load a list into an empty system. -/
theorem loading_cases (hstrengths : ∀ c ∈ cs, 0 ≤ c.strength.value) {r : Except SolverError Unit}
    {s : Solver ℚ} (h : (Solver.new : Solver ℚ).perform (loading cs) = (r, s)) :
    (r = .ok () ∧ s.Loaded cs ∧ s.Optimal) ∨
      ∃ e, r = .error e ∧ (e = .pivotLimit ∨
        ¬((cs.map Constraint.id).Nodup ∧ ∃ values, Constraint.AllMet cs values)) := by
  rw [perform_loading] at h
  rcases hadd : Solver.perform { (Solver.new : Solver ℚ) with autoSolve := false } (addAll cs)
    with ⟨r', u⟩
  rw [hadd] at h
  rcases loaded_new.congr_autoSolve.addAll hstrengths hadd with ⟨rfl, hu⟩ | ⟨e, rfl, hcause⟩
  · rcases hu.setAutoSolve hstrengths h with hok | hlimit
    · exact .inl hok
    · exact .inr ⟨_, hlimit, .inl rfl⟩
  · cases h
    exact .inr ⟨e, rfl, hcause⟩

theorem setUp_eq (hnew : l.isInitialized = false) (cs : List (Constraint ℚ)) :
    ((l.setUp cs).1, (l.setUp cs).2.2) =
      match (Solver.new : Solver ℚ).perform (loading cs) with
      | (.ok (), s) => (.ok (), { l with solver := some s })
      | (.error e, _) => (.error (.solver e), l) := by
  unfold setUp
  rw [if_neg (by simp [hnew])]
  have hoperation : (do
      Solver.setAutoSolve false
      addAll cs
      Solver.setAutoSolve true : Solving ℚ Unit) = loading cs := rfl
  dsimp only
  rw [hoperation]
  rcases (Solver.new : Solver ℚ).perform (loading cs) with ⟨_ | _, s⟩ <;> rfl

/-- A layout can be set up just where its constraints are distinct and the required ones can be met
together. Its values then meet them and miss the others by as little as possible. Otherwise it stays
uninitialized. -/
theorem setUp_correct (hnew : l.isInitialized = false)
    (hstrengths : ∀ c ∈ cs, 0 ≤ c.strength.value)
    (hends : (l.setUp cs).1 ≠ .error (.solver .pivotLimit)) :
    ((l.setUp cs).1 = .ok () ↔
      (cs.map Constraint.id).Nodup ∧ ∃ values, Constraint.AllMet cs values) ∧
    ((l.setUp cs).1 = .ok () → ∃ s, (l.setUp cs).2.2.solver = some s ∧
      Constraint.AllMet cs s.value ∧ ∀ values, Constraint.AllMet cs values →
        Constraint.totalPenalty cs s.value ≤ Constraint.totalPenalty cs values) ∧
    ((l.setUp cs).1 ≠ .ok () → (l.setUp cs).2.2.isInitialized = false) := by
  have heq := setUp_eq hnew cs
  rcases hload : (Solver.new : Solver ℚ).perform (loading cs) with ⟨r, s⟩
  rw [hload] at heq
  rcases loading_cases hstrengths hload with ⟨rfl, hs, ho⟩ | ⟨e, rfl, hcause⟩
  · obtain ⟨hok, hlayout⟩ := Prod.mk.inj heq
    rw [hok, hlayout]
    refine ⟨iff_of_true rfl ⟨hs.lists.nodup hs.ascending, s.value, hs.allMet⟩, ?_, ?_⟩
    · intro _
      exact ⟨s, rfl, hs.allMet, fun values hmet => hs.totalPenalty_le hstrengths ho hmet⟩
    · intro hne
      exact absurd rfl hne
  · obtain ⟨herror, hlayout⟩ := Prod.mk.inj heq
    rw [herror] at hends
    rw [herror, hlayout]
    have hne : ¬((cs.map Constraint.id).Nodup ∧ ∃ values, Constraint.AllMet cs values) := by
      rcases hcause with rfl | hne
      · exact absurd rfl hends
      · exact hne
    refine ⟨iff_of_false (by simp) hne, ?_, fun _ => hnew⟩
    intro hok
    cases hok

/-- A width that has to be ten at least, and a wish that it be five. -/
def sampleConstraints : List (Constraint ℚ) :=
  let width : LinearExpr ℚ := .ofVariable ⟨0⟩
  [.between 0 width .atLeast (.ofConstant 10), .make 1 (width.minus (.ofConstant 5)) .equal .weak]

theorem sampleConstraints_nonneg : ∀ c ∈ sampleConstraints, 0 ≤ c.strength.value := by
  decide +kernel

theorem setUp_sample_correct : (({} : Layout ℚ).setUp sampleConstraints).1 = .ok () ∧
    ∃ s, (({} : Layout ℚ).setUp sampleConstraints).2.2.solver = some s ∧
      Constraint.AllMet sampleConstraints s.value ∧
      ∀ values, Constraint.AllMet sampleConstraints values →
        Constraint.totalPenalty sampleConstraints s.value
          ≤ Constraint.totalPenalty sampleConstraints values := by
  have hok : (({} : Layout ℚ).setUp sampleConstraints).1 = .ok () := by decide +kernel
  have hcorrect := setUp_correct (l := {}) rfl sampleConstraints_nonneg (by rw [hok]; simp)
  exact ⟨hok, hcorrect.2.1 hok⟩

/-- What has been set up is loaded. -/
theorem exists_loaded_of_setUp (hstrengths : ∀ c ∈ cs, 0 ≤ c.strength.value)
    (hok : (l.setUp cs).1 = .ok ()) : ∃ s, (l.setUp cs).2.2.solver = some s ∧ s.Loaded cs := by
  have hnew : l.isInitialized = false := by
    by_contra hinitialized
    unfold setUp at hok
    rw [if_pos (by simpa using hinitialized)] at hok
    cases hok
  have heq := setUp_eq hnew cs
  rcases hload : (Solver.new : Solver ℚ).perform (loading cs) with ⟨r, s⟩
  rw [hload, hok] at heq
  rcases loading_cases hstrengths hload with ⟨rfl, hs, -⟩ | ⟨e, rfl, -⟩
  · obtain ⟨-, hlayout⟩ := Prod.mk.inj heq
    exact ⟨s, by rw [hlayout], hs⟩
  · cases (Prod.mk.inj heq).1

end Layout

end ReactiveView
