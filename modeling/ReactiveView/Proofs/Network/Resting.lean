import ReactiveView.Proofs.Network.Realms
import Mathlib

/-!
This module contains that every operation on a network ends at rest: what is alive is held. Objects
that are held no longer go with the work that lets them go.
-/

namespace ReactiveView

open Cascade

namespace Network

/-- What is alive is held. -/
def Rests (net : Network) : Prop := ∀ i, net.store.isAlive i = true → net.holds i = true

/-- An operation that ends at rest if it begins so, and holds nothing by the end. -/
structure Calms (net net' : Network) : Prop where
  busy : net'.busy = net.busy
  rests : net.Rests → net'.Rests

variable {net net' net'' : Network} {n : Nat}

/-- What refers to an object still does, or work in progress holds it. -/
theorem Rests.of_holds (h : net.Rests) (halive : ∀ i, net'.store.isAlive i = net.store.isAlive i)
    (howners : net'.owners = net.owners) (hdesk : net'.desk = net.desk)
    (hlinks : net'.links = net.links) (hbusy : net.busy ⊆ net'.busy)
    (hobjects : ∀ (j : Nat) (obj : Obj) (i : Nat), net.store.objects[j]? = some obj → obj.Refers i →
      i ∈ net'.busy ∨ ∃ obj' : Obj, net'.store.objects[j]? = some obj' ∧ obj'.Refers i) :
    net'.Rests := by
  intro i hi
  have hheld := h i (halive i ▸ hi)
  rw [holds_iff] at hheld ⊢
  rw [howners, hdesk]
  rcases hheld with hi | hi | hi | ⟨j, obj, hobj, hi⟩ | ⟨k, lk, hlk, hi⟩
  · exact .inl hi
  · exact .inr (.inl hi)
  · exact .inr (.inr (.inl (hbusy hi)))
  · rcases hobjects j obj i hobj hi with hi | ⟨obj', hobj', hi⟩
    · exact .inr (.inr (.inl hi))
    · exact .inr (.inr (.inr (.inl ⟨j, obj', hobj', hi⟩)))
  · refine .inr (.inr (.inr (.inr ⟨k, lk, ?_, hi⟩)))
    unfold link? at hlk ⊢
    rwa [hlinks]

theorem Rests.of_busy (h : net.Rests) {busy : List Nat} (hbusy : net.busy ⊆ busy) :
    ({ net with busy } : Network).Rests :=
  h.of_holds (fun _ => rfl) rfl rfl rfl hbusy fun _ obj _ hobj hi => .inr ⟨obj, hobj, hi⟩

theorem Calms.refl (net : Network) : net.Calms net := ⟨rfl, id⟩

theorem Calms.trans (h : net.Calms net') (h' : net'.Calms net'') : net.Calms net'' :=
  ⟨h'.busy.trans h.busy, fun hnet => h'.rests (h.rests hnet)⟩

/-- What refers to objects is still there. -/
theorem calms_of_same (hstore : net'.store = net.store) (howners : net'.owners = net.owners)
    (hdesk : net'.desk = net.desk) (hbusy : net'.busy = net.busy)
    (hlinks : ∀ k lk, net.link? k = some lk → ∃ lk', net'.link? k = some lk' ∧ lk'.body = lk.body) :
    net.Calms net' := by
  refine ⟨hbusy, fun hnet i halive => ?_⟩
  have hheld := hnet i (hstore ▸ halive)
  rw [holds_iff] at hheld ⊢
  rw [howners, hdesk, hbusy, hstore]
  refine hheld.imp_right (.imp_right (.imp_right (.imp_right ?_)))
  rintro ⟨k, lk, hlk, hrefers⟩
  obtain ⟨lk', hlk', hbody⟩ := hlinks k lk hlk
  refine ⟨k, lk', hlk', ?_⟩
  unfold Link.Refers Link.references at hrefers ⊢
  rwa [hbody]

theorem calms_evaluated (scope : Scope) (e : Expr) : net.Calms (net.evaluated scope e) :=
  calms_of_same rfl rfl rfl rfl fun _ lk hlk => ⟨lk, hlk, rfl⟩

theorem calms_subscribe (object : Nat) (attr : String) (handler : Handler) :
    net.Calms (net.subscribe object attr handler).2 :=
  calms_of_same rfl rfl rfl rfl fun _ lk hlk => ⟨lk, hlk, rfl⟩

theorem calms_subscribeAll (handler : Handler) (ds : List Dependency) :
    net.Calms (net.subscribeAll handler ds).2 := by
  induction ds generalizing net with
  | nil => exact .refl net
  | cons d rest ih => exact (calms_subscribe d.object.id d.attr handler).trans ih

theorem calms_modifyLink (k : Nat) {f : Link → Link} (hf : ∀ lk, (f lk).body = lk.body) :
    net.Calms (net.modifyLink k f) := by
  refine calms_of_same rfl rfl rfl rfl fun j lk hlk => ?_
  rw [link?_modifyLink]
  split
  · exact ⟨f lk, by rw [hlk]; rfl, hf lk⟩
  · exact ⟨lk, hlk, rfl⟩

theorem calms_addLink (lk : Link) : net.Calms (net.addLink lk).2 := by
  refine calms_of_same rfl rfl rfl rfl fun j lk' hlk' => ⟨lk', ?_, rfl⟩
  rw [link?_addLink, if_neg (lt_size_of_link? hlk').ne, hlk']

theorem calms_disconnect (k : Nat) : net.Calms (net.disconnect k) := by
  cases hlk : net.link? k with
  | none =>
    rw [disconnect_of_none hlk]
    exact .refl net
  | some lk =>
    rw [disconnect_of_some hlk]
    have hcut : net.Calms { net with
        observers := net.observers.filter fun o => !lk.subscriptions.contains o.id } :=
      calms_of_same rfl rfl rfl rfl fun _ lk hlk => ⟨lk, hlk, rfl⟩
    exact hcut.trans (calms_modifyLink (f := fun l => { l with subscriptions := [] }) k fun _ => rfl)

theorem calms_resubscribed (k : Nat) (scope : Scope) (e : Expr) :
    net.Calms (net.resubscribed k scope e) :=
  ((calms_disconnect k).trans (calms_evaluated scope e)).trans
    ((calms_subscribeAll _ _).trans (calms_modifyLink k fun _ => rfl))

/-! ### Sweeping -/

theorem isAlive_foldl_free (is : List Nat) (i : Nat) :
    (is.foldl free net).store.isAlive i = (!is.contains i && net.store.isAlive i) := by
  induction is generalizing net with
  | nil => rfl
  | cons j rest ih =>
    rw [List.foldl_cons, ih, free, Store.isAlive_free, List.contains_cons, Bool.not_or, bne,
      Bool.beq_comm, ← Bool.and_assoc, Bool.and_comm (!rest.contains i)]

theorem size_foldl_free (is : List Nat) :
    (is.foldl free net).store.objects.size = net.store.objects.size := by
  induction is generalizing net with
  | nil => rfl
  | cons j rest ih => exact ih.trans Store.size_free

/-- The objects that are alive. -/
def living (net : Network) : List Nat :=
  (List.range net.store.objects.size).filter net.store.isAlive

theorem unheld_eq (net : Network) : net.unheld = net.living.filter fun i => !net.holds i := by
  unfold unheld living
  rw [List.filter_filter]
  exact List.filter_congr fun i _ => Bool.and_comm ..

theorem rests_of_unheld (h : net.unheld = []) : net.Rests := by
  intro i halive
  by_contra hnot
  have hmem : i ∈ net.unheld := by
    refine List.mem_filter.2 ⟨List.mem_range.2 (Store.lt_size_of_isAlive halive), ?_⟩
    rw [halive, Bool.eq_false_iff.2 hnot]
    rfl
  rw [h] at hmem
  cases hmem

/-- Every round but the last frees something. -/
theorem rests_sweepFor (h : net.living.length ≤ n) : (sweepFor n net).Rests := by
  induction n generalizing net with
  | zero =>
    refine rests_of_unheld ?_
    rw [sweepFor, unheld_eq, List.length_eq_zero_iff.1 (Nat.le_zero.1 h)]
    rfl
  | succ n ih =>
    rw [sweepFor]
    split
    · next hnil => exact rests_of_unheld hnil
    · next hne =>
      refine ih (Nat.le_of_lt_succ (Nat.lt_of_lt_of_le ?_ h))
      obtain ⟨i, hi⟩ := List.exists_mem_of_ne_nil _ hne
      have hliving : (net.unheld.foldl free net).living
          = net.living.filter fun i => !net.unheld.contains i := by
        unfold living
        rw [size_foldl_free, List.filter_filter]
        exact List.filter_congr fun i _ => isAlive_foldl_free net.unheld i
      rw [hliving]
      refine List.length_filter_lt_length_iff_exists.2 ⟨i, ?_, ?_⟩
      · rw [unheld_eq] at hi
        exact (List.mem_filter.1 hi).1
      · simpa using hi

/-- Where everything is held, nothing is swept. -/
theorem Rests.sweep_eq (h : net.Rests) : net.sweep = net := by
  have hnone : net.unheld = [] := by
    refine List.filter_eq_nil_iff.2 fun i _ hi => ?_
    rw [Bool.and_eq_true, Bool.not_eq_true'] at hi
    exact absurd (h i hi.1) (Bool.eq_false_iff.1 hi.2)
  unfold sweep
  cases net.store.objects.size with
  | zero => rfl
  | succ n =>
    rw [sweepFor, hnone]

theorem rests_sweep (net : Network) : net.sweep.Rests := by
  refine rests_sweepFor ?_
  exact (List.length_filter_le _ _).trans_eq List.length_range

theorem busy_sweep (net : Network) : net.sweep.busy = net.busy := by
  have hfree (is : List Nat) (net : Network) : (is.foldl free net).busy = net.busy := by
    induction is generalizing net with
    | nil => rfl
    | cons i rest ih => exact ih _
  exact sweep_induction (Q := fun m => m.busy = net.busy) (fun m is _ h => (hfree is m).trans h) rfl

/-! ### What a sweep leaves alone -/

/-- Something other than an attribute refers to the object. -/
def Keeps (net : Network) (i : Nat) : Prop :=
  i ∈ net.owners ∨ net.desk.Refers i ∨ i ∈ net.busy ∨ ∃ k lk, net.link? k = some lk ∧ lk.Refers i

theorem Keeps.holds {i : Nat} (h : net.Keeps i) : net.holds i = true := by
  rw [holds_iff]
  exact h.imp_right (.imp_right (.imp_right .inr))

/-- Objects went that only attributes referred to, and nothing else happened. -/
structure Sheds (net net' : Network) : Prop where
  same : net' = { net with store := net'.store, observers := net'.observers }
  objects : ∀ i, net'.store.isAlive i = true → net'.store.objects[i]? = net.store.objects[i]?
  observers : net'.observers ⊆ net.observers
  observed : ∀ o ∈ net.observers, net'.store.isAlive o.object = true → o ∈ net'.observers
  kept : ∀ i, net.Keeps i → net.store.isAlive i = true → net'.store.isAlive i = true

theorem Sheds.isAlive {i : Nat} (h : net.Sheds net') (hi : net'.store.isAlive i = true) :
    net.store.isAlive i = true := by
  have hobject := h.objects i hi
  unfold Store.isAlive at hi ⊢
  rwa [← hobject]

theorem Sheds.at?_eq {s : Slot} (h : net.Sheds net') (hs : net'.store.isAlive s.1 = true) :
    net'.store.at? s = net.store.at? s := by
  unfold Store.at? Store.get? Store.attrs
  rw [h.objects _ hs]

theorem Sheds.shape?_eq {i : Nat} (h : net.Sheds net') (hi : net'.store.isAlive i = true) :
    net'.store.shape? i = net.store.shape? i := by
  unfold Store.shape?
  rw [h.objects i hi]

theorem Sheds.keeps {i : Nat} (h : net.Sheds net') (hi : net.Keeps i) : net'.Keeps i := by
  rw [h.same]
  exact hi

theorem Sheds.trans (h : net.Sheds net') (h' : net'.Sheds net'') : net.Sheds net'' where
  same := by rw [h'.same, h.same]
  objects i hi := (h'.objects i hi).trans (h.objects i (h'.isAlive hi))
  observers := List.Subset.trans h'.observers h.observers
  observed o ho hi := h'.observed o (h.observed o ho (h'.isAlive hi)) hi
  kept i hi halive := h'.kept i (h.keeps hi) (h.kept i hi halive)

theorem Sheds.refl (net : Network) : net.Sheds net :=
  ⟨rfl, fun _ _ => rfl, List.Subset.refl _, fun _ ho _ => ho, fun _ _ hi => hi⟩

theorem sheds_free {i : Nat} (hi : ¬net.Keeps i) : net.Sheds (net.free i) where
  same := rfl
  objects j hj := by
    have hne : i ≠ j := by
      rintro rfl
      rw [free, Store.isAlive_free, bne_self_eq_false] at hj
      cases hj
    rw [free, Store.objects_free, if_neg hne]
  observers _ ho := (List.mem_filter.1 ho).1
  observed o ho halive := by
    refine List.mem_filter.2 ⟨ho, ?_⟩
    rw [free, Store.isAlive_free, Bool.and_eq_true] at halive
    rw [bne_comm]
    exact halive.1
  kept j hj halive := by
    have hne : i ≠ j := by
      rintro rfl
      exact hi hj
    rw [free, Store.isAlive_free, halive, bne_iff_ne.2 hne]
    rfl

theorem sheds_foldl_free {is : List Nat} (his : ∀ i ∈ is, ¬net.Keeps i) :
    net.Sheds (is.foldl free net) := by
  induction is generalizing net with
  | nil => exact .refl net
  | cons i rest ih =>
    have hfree := sheds_free (his i (List.mem_cons_self ..))
    exact hfree.trans (ih fun j hj => his j (List.mem_cons_of_mem _ hj))

theorem sheds_sweep (net : Network) : net.Sheds net.sweep := by
  refine sweep_induction (Q := net.Sheds)
    (fun m is his h => h.trans (sheds_foldl_free ?_)) (.refl net)
  exact fun i hi hkeeps => Bool.eq_false_iff.1 (holds_of_mem_unheld (his i hi)) hkeeps.holds

/-! ### Work in progress -/

/-- Work in progress ends at rest, whatever it did. -/
theorem calms_letGo (net net' : Network) : net.Calms (net'.letGo net.busy) :=
  ⟨busy_sweep _, fun _ => rests_sweep _⟩

theorem calms_leaveLink (k : Nat) : net.Calms (net.leaveLink k) := by
  have hleft : net.Calms (net.modifyLink k fun l => { l with running := l.running - 1 }) :=
    calms_modifyLink k fun _ => rfl
  refine hleft.trans ?_
  unfold leaveLink
  rcases settleLink_eq (net.modifyLink k fun l => { l with running := l.running - 1 }) k with h | h
  · rw [h]
    exact .refl _
  · rw [h]
    exact ⟨(busy_sweep _).trans (calms_disconnect k).busy, fun _ => rests_sweep _⟩

/-! ### Computations -/

theorem calms_announce {change : Change} {u : Unit}
    (h : announce n change net = some (u, net')) : net.Calms net' := by
  cases n with
  | zero => cases h
  | succ n =>
    obtain ⟨net₁, -, rfl⟩ := announce_cases h
    exact calms_letGo net net₁

theorem calms_assign {o : ObjectRef} {attr : String} {v : Value} {r : Except EvalError Bool}
    (h : assign n o attr v net = some (r, net')) : net.Calms net' := by
  cases n with
  | zero => cases h
  | succ n =>
    cases assign_cases h with
    | refused | unchanged => exact .refl net
    | changed h hann =>
      -- The network in between need not be at rest, but an announcement ends so in any case.
      cases n with
      | zero => cases hann
      | succ n =>
        obtain ⟨net₁, -, rfl⟩ := announce_cases hann
        exact calms_letGo net net₁

theorem calms_refresh {k : Nat} {r : Except EvalError Unit}
    (h : refresh n k net = some (r, net')) : net.Calms net' := by
  cases n with
  | zero => cases h
  | succ n =>
    cases refresh_cases h with
    | unbound => exact .refl net
    | failed | dead => exact calms_resubscribed ..
    | @assigned expr target attr scope v r net₁ hbind =>
      exact (calms_resubscribed k scope expr).trans (calms_letGo _ net₁)

theorem calms_connect {binding : Binding} {target : ObjectRef} {attr : String} {scope : Scope}
    {r : Except EvalError (Option Nat)} (h : connect n binding target attr scope net = some (r, net')) :
    net.Calms net' := by
  cases n with
  | zero => cases h
  | succ n =>
    cases connect_cases h with
    | noDefault | noSource => exact calms_evaluated ..
    | default hvalue hassign => exact (calms_evaluated ..).trans (calms_assign hassign)
    | @noBind code expr e net₁ hrefresh =>
      have hbound : net.Calms (net.bound expr target attr scope) := calms_addLink _
      exact (hbound.trans (calms_refresh hrefresh)).trans (calms_leaveLink _)
    | @bind code expr net₁ hrefresh =>
      have hbound : net.Calms (net.bound expr target attr scope) := calms_addLink _
      have howned : net₁.Calms (net₁.ownLink net.links.size) := calms_modifyLink _ fun _ => rfl
      exact ((hbound.trans (calms_refresh hrefresh)).trans howned).trans (calms_leaveLink _)
    | @refused code name object source initial e net₁ =>
      exact (calms_evaluated scope object).trans (calms_letGo (net.evaluated scope object) net₁)
    | @delegate code name object source initial changed net₁ =>
      exact (calms_evaluated scope object).trans (calms_letGo (net.evaluated scope object) _)
    | notify =>
      exact ((calms_addLink _).trans (calms_subscribe ..)).trans (calms_modifyLink _ fun _ => rfl)

end Network

end ReactiveView
