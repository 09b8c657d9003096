import ReactiveView.Proofs.Network.Delegate
import ReactiveView.Proofs.Network.Flooding
import ReactiveView.Proofs.Value.FloatFree
import Mathlib

/-!
This module contains that delegates settle, whatever graph they form: an attribute that is assigned
takes everything that is connected to it along, each attribute changes once at most, and what is
tied has equal values in the end. A delegate that is added does no harm, because it first assigns the
attribute of its target.

An object that only attributes refer to can go when they change. Delegates to it have no effect any
more, and connect nothing.
-/

namespace ReactiveView

open Cascade Network

/--
Attributes, and delegates between them.
-/
structure Mesh where
  /-- The attributes. -/
  slots : Finset Slot
  /-- The delegates. -/
  joints : List Joint
  /-- Both ends of a delegate are among the attributes. -/
  ends : ∀ d ∈ joints, (d.target.id, d.attr) ∈ slots ∧ (d.source.id, d.name) ∈ slots

namespace Mesh

variable {m : Mesh} {store store' : Store} {s t : Slot}

/-- The attributes with one more delegate. -/
def tie (m : Mesh) (d : Joint)
    (hd : (d.target.id, d.attr) ∈ m.slots ∧ (d.source.id, d.name) ∈ m.slots) : Mesh where
  slots := m.slots
  joints := d :: m.joints
  ends e he := (List.mem_cons.1 he).elim (fun he => he ▸ hd) (m.ends e)

/-- The objects of two attributes are alive, and a delegate has the attributes for its ends. -/
inductive Ties (m : Mesh) (store : Store) : Slot → Slot → Prop
  | intro {d : Joint} {x y : ObjectRef} {a b : String} (hd : d ∈ m.joints)
      (hpass : d.Passes x a y b) (hx : store.isAlive x.id = true) (hy : store.isAlive y.id = true) :
      Ties m store (x.id, a) (y.id, b)

/-- Delegates lead from one attribute to the other. -/
def Connected (m : Mesh) (store : Store) : Slot → Slot → Prop :=
  Relation.ReflTransGen (m.Ties store)

open Classical in
/-- Everything that is connected to an attribute. -/
noncomputable def component (m : Mesh) (store : Store) (s : Slot) : Finset Slot :=
  m.slots.filter (m.Connected store s)

theorem Ties.swap (h : m.Ties store s t) : m.Ties store t s := by
  cases h with
  | intro hd hpass hx hy => exact .intro hd hpass.swap hy hx

theorem Ties.mem (h : m.Ties store s t) : t ∈ m.slots := by
  cases h with
  | @intro d _ _ _ _ hd hpass =>
    cases hpass with
    | outward => exact (m.ends d hd).2
    | inward => exact (m.ends d hd).1

theorem Ties.isAlive (h : m.Ties store s t) : store.isAlive t.1 = true := by
  cases h with
  | intro _ _ _ hy => exact hy

theorem Ties.of_alive (h : m.Ties store s t) (hs : store'.isAlive s.1 = true)
    (ht : store'.isAlive t.1 = true) : m.Ties store' s t := by
  cases h with
  | intro hd hpass => exact .intro hd hpass hs ht

theorem Ties.tie {d : Joint}
    {hd : (d.target.id, d.attr) ∈ m.slots ∧ (d.source.id, d.name) ∈ m.slots} (h : m.Ties store s t) : (m.tie d hd).Ties store s t := by
  cases h with
  | intro he hpass hx hy => exact .intro (List.mem_cons_of_mem _ he) hpass hx hy

theorem Connected.mem (h : m.Connected store s t) (hs : s ∈ m.slots) : t ∈ m.slots := by
  cases h with
  | refl => exact hs
  | tail _ hties => exact hties.mem

theorem Connected.isAlive (h : m.Connected store s t) (hs : store.isAlive s.1 = true) :
    store.isAlive t.1 = true := by
  cases h with
  | refl => exact hs
  | tail _ hties => exact hties.isAlive

theorem component_subset : m.component store s ⊆ m.slots := by
  classical
  exact Finset.filter_subset ..

theorem mem_component (hs : s ∈ m.slots) : t ∈ m.component store s ↔ m.Connected store s t := by
  classical
  exact Finset.mem_filter.trans (and_iff_right_of_imp fun h => h.mem hs)

end Mesh

/-- The attribute has a value without floats, or it may be added to its object. -/
def Store.Takes (store : Store) (s : Slot) : Prop :=
  (∃ v, store.at? s = some v ∧ v.floatFree = true) ∨
    store.at? s = none ∧ store.shape? s.1 = some .open

namespace Network

variable {net net' net₁ : Network} {m : Mesh} {s t : Slot} {v old : Value}

/-- The delegates between living objects are in place and in sync, and nothing else observes the
attributes but the host, which only looks. -/
structure Carries (net : Network) (m : Mesh) : Prop where
  live : ∀ d ∈ m.joints, net.store.isAlive d.target.id = true →
    net.store.isAlive d.source.id = true → d.Live net
  inSync : ∀ d ∈ m.joints, d.Live net → d.InSync net
  accepts : ∀ s ∈ m.slots, net.store.isAlive s.1 = true → net.store.shape? s.1 ≠ some .frozen
  takes : ∀ s ∈ m.slots, net.store.isAlive s.1 = true → net.store.Takes s
  /-- Observers that pass values on belong to the delegates, or pass them on to what is gone. -/
  alone : ∀ o ∈ net.observers, o.slot ∈ m.slots → net.store.isAlive o.object = true →
    (∃ id, o.handler = .host id []) ∨ ∃ p b, o.handler.passesTo? = some (p, b) ∧
      (net.store.isAlive p.id = true → m.Ties net.store o.slot (p.id, b))

/-! ### Connected attributes -/

/-- The delegate of two attributes observes them. -/
theorem Carries.tied (h : net.Carries m) (hties : m.Ties net.store s t) :
    ∃ d ∈ m.joints, ∃ x y, d.Passes x s.2 y t.2 ∧ x.id = s.1 ∧ y.id = t.1 ∧ d.Live net := by
  cases hties with
  | @intro d x y _ _ hd hpass hx hy =>
    refine ⟨d, hd, x, y, hpass, rfl, rfl, ?_⟩
    cases hpass with
    | outward => exact h.live d hd hx hy
    | inward => exact h.live d hd hy hx

theorem Carries.equal_of_ties (h : net.Carries m) (hties : m.Ties net.store s t) :
    ∃ v w, net.store.at? s = some v ∧ net.store.at? t = some w ∧ v.equal w = true := by
  obtain ⟨d, hd, x, y, hpass, hx, hy, hlive⟩ := h.tied hties
  obtain ⟨v, w, hv, hw, he⟩ := (Joint.inSync_iff hpass).1 (h.inSync d hd hlive)
  rw [Store.get?_eq_at?, hx] at hv
  rw [Store.get?_eq_at?, hy] at hw
  exact ⟨v, w, hv, hw, he⟩

/-- A value that is there has no floats in it. -/
theorem Carries.floatFree (h : net.Carries m) (hs : s ∈ m.slots)
    (halive : net.store.isAlive s.1 = true) (hv : net.store.at? s = some v) : v.floatFree = true := by
  rcases h.takes s hs halive with ⟨w, hw, hfree⟩ | ⟨hnone, -⟩
  · cases hv.symm.trans hw
    exact hfree
  · cases hv.symm.trans hnone

/-- Connected attributes have equal values: equality of values without floats is transitive. -/
theorem Carries.equal_of_connected (h : net.Carries m) (hs : s ∈ m.slots)
    (halive : net.store.isAlive s.1 = true) (hv : net.store.at? s = some v)
    (hconnected : m.Connected net.store s t) :
    ∃ w, net.store.at? t = some w ∧ v.equal w = true := by
  have hfree := h.floatFree hs halive hv
  induction hconnected with
  | refl => exact ⟨v, hv, Value.equal_self v hfree⟩
  | @tail t u hpath hties ih =>
    obtain ⟨w, hw, he⟩ := ih
    obtain ⟨w', u', hw', hu', he'⟩ := h.equal_of_ties hties
    cases hw.symm.trans hw'
    have hwfree := h.floatFree (Mesh.Connected.mem hpath hs)
      (Mesh.Connected.isAlive hpath halive) hw
    exact ⟨u', hu', (Value.equal_congr v w hfree hwfree he u').trans he'⟩

/-- Nothing is connected to an attribute without a value. -/
theorem Carries.eq_of_connected (h : net.Carries m) (hnone : net.store.at? s = none)
    (hconnected : m.Connected net.store s t) : t = s := by
  rcases hconnected.cases_head with rfl | ⟨u, hties, -⟩
  · rfl
  · obtain ⟨v, -, hv, -⟩ := h.equal_of_ties hties
    cases hnone.symm.trans hv

/-- The value floods what is connected to an attribute that does not have it. -/
theorem Carries.basin (h : net.Carries m) (hs : s ∈ m.slots) (halive : net.store.isAlive s.1 = true)
    (hdiffers : net.store.Differs s old v) (hv : v.floatFree = true) {held : List Nat}
    (hheld : ∀ p ∈ old.references, p.id ∈ held) : net.Basin (m.component net.store s) v held where
  alive t ht := ((Mesh.mem_component hs).1 ht).isAlive halive
  accepts t ht :=
    h.accepts t (Mesh.component_subset ht) (((Mesh.mem_component hs).1 ht).isAlive halive)
  differs t ht := by
    have hconnected := (Mesh.mem_component hs).1 ht
    rcases hdiffers with ⟨hold, hne⟩ | ⟨hnone, hopen⟩
    · obtain ⟨w, hw, he⟩ := h.equal_of_connected hs halive hold hconnected
      have hold' := h.floatFree hs halive hold
      have hw' := h.floatFree (hconnected.mem hs)
        (hconnected.isAlive halive) hw
      refine ⟨w, .inl ⟨hw, (Value.equal_congr old w hold' hw' he v).symm.trans hne⟩, fun p hp => ?_⟩
      have hid : p.id ∈ old.references.map ObjectRef.id := by
        rw [Value.map_id_references old w he]
        exact List.mem_map_of_mem hp
      obtain ⟨q, hq, hqid⟩ := List.mem_map.1 hid
      exact hqid ▸ hheld q hq
    · cases h.eq_of_connected hnone hconnected
      exact ⟨old, .inr ⟨hnone, hopen⟩, hheld⟩
  leads o ho ht := by
    have hconnected := (Mesh.mem_component hs).1 ht
    rcases h.alone o ho (Mesh.component_subset ht) (hconnected.isAlive halive) with
      hwatch | ⟨p, b, hpass, hties⟩
    · exact .inl hwatch
    · exact .inr ⟨p, b, hpass, fun hp => (Mesh.mem_component hs).2 (hconnected.tail (hties hp))⟩
  self := Value.equal_self v hv

/-- What is closed under passing on contains everything that is connected to it. -/
theorem Carries.connected_mem (h : net.Carries m) {D : Finset Slot}
    (hclosed : ∀ o ∈ net.observers, o.slot ∈ D → net.Leads D o) (hs : s ∈ D)
    (hconnected : m.Connected net.store s t) : t ∈ D := by
  induction hconnected with
  | refl => exact hs
  | @tail t u _ hties ih =>
    obtain ⟨d, -, x, y, hpass, hx, hy, hlive⟩ := h.tied hties
    obtain ⟨o, ho, hobject, hattr, hhandler⟩ := hlive.exists_observer hpass
    have hslot : o.slot = t := Prod.ext (hobject.trans hx) hattr
    rcases hclosed o ho (hslot ▸ ih) with ⟨id, hwatch⟩ | ⟨p, b, hpass', hmem⟩
    · rw [hwatch] at hhandler
      cases hhandler
    · cases hhandler.symm.trans hpass'
      have hmem := hmem (hy ▸ hties.isAlive)
      rwa [hy] at hmem

/-- An attribute that changes takes along what is connected to it, before what nothing holds any
more goes. -/
theorem Carries.changes (h : net.Carries m) (hrests : net.Rests) {o : ObjectRef} {attr : String}
    (hs : (o.id, attr) ∈ m.slots) (halive : net.store.isAlive o.id = true)
    (hdiffers : net.store.Differs (o.id, attr) old v) (hv : v.floatFree = true) {n : Nat}
    (hn : 3 * m.slots.card < n) :
    ∃ net₁, assign n o attr v net = some (.ok true, net₁.letGo net.busy) ∧
      net.Floods (m.component net.store (o.id, attr)) v
        (Change.references ⟨o, attr, old, v⟩ ++ net.busy) [] ∅
        (net.hold (Change.references ⟨o, attr, old, v⟩)) (m.component net.store (o.id, attr))
        net₁ := by
  have hold : ∀ p ∈ old.references, p.id ∈ Change.references ⟨o, attr, old, v⟩ ++ net.busy := by
    intro p hp
    refine List.mem_append_left _ (List.mem_cons_of_mem _ ?_)
    exact List.mem_map_of_mem (List.mem_append_left _ hp)
  have hC := h.basin hs halive hdiffers hv hold
  have hself : (o.id, attr) ∈ m.component net.store (o.id, attr) := (Mesh.mem_component hs).2 .refl
  have hcard : (m.component net.store (o.id, attr) \ ∅).card ≤ (m.slots.card - 1) + 1 := by
    rw [Finset.sdiff_empty]
    exact (Finset.card_le_card Mesh.component_subset).trans (by omega)
  have hstart : net.Flooded v (Change.references ⟨o, attr, old, v⟩ ++ net.busy) ∅ net :=
    ⟨rfl, fun _ => rfl, fun _ => rfl, nofun, fun _ _ => rfl,
      hrests.of_busy (List.subset_append_right ..)⟩
  have hpos : 0 < m.slots.card := Finset.card_pos.2 ⟨_, hs⟩
  obtain ⟨n, rfl⟩ := Nat.exists_eq_add_of_le' (show 3 ≤ n by omega)
  obtain ⟨net₁, D, hrun, hfloods, hmem⟩ := hC.change_floods hself (Finset.notMem_empty _)
    (hC.reaches (show 3 * (m.slots.card - 1) + 1 ≤ n by omega)) hstart (Finset.empty_subset _)
    hdiffers hold (List.Subset.refl _) hcard
  have hD : D = m.component net.store (o.id, attr) := by
    refine hfloods.within.antisymm fun t ht => ?_
    exact h.connected_mem (fun o ho hin => hfloods.closed o ho hin (Finset.notMem_empty _)) hmem
      ((Mesh.mem_component hs).1 ht)
  exact ⟨net₁, hrun, hD ▸ hfloods⟩

/-! ### What the delegates come to -/

/-- Delegates that end in the same objects tie what they tied. -/
theorem Carries.of_same (h : net.Carries m) (hobservers : net'.observers = net.observers)
    (halive : ∀ i, net'.store.isAlive i = net.store.isAlive i)
    (hshape : ∀ i, net'.store.shape? i = net.store.shape? i)
    (hinSync : ∀ d ∈ m.joints, d.Live net → d.InSync net')
    (htakes : ∀ s ∈ m.slots, net.store.isAlive s.1 = true → net'.store.Takes s) :
    net'.Carries m where
  live d hd ht hs := by
    rw [halive] at ht hs
    have hlive := h.live d hd ht hs
    exact ⟨hobservers ▸ hlive.outward, hobservers ▸ hlive.inward, (halive _).trans ht,
      (halive _).trans hs⟩
  inSync d hd hlive := by
    refine hinSync d hd ⟨hobservers ▸ hlive.outward, hobservers ▸ hlive.inward, ?_, ?_⟩
    · exact (halive _).symm.trans hlive.target
    · exact (halive _).symm.trans hlive.source
  accepts s hs hi := hshape s.1 ▸ h.accepts s hs (halive s.1 ▸ hi)
  takes s hs hi := htakes s hs (halive s.1 ▸ hi)
  alone o ho hin hi := by
    rw [hobservers] at ho
    rw [halive] at hi
    refine (h.alone o ho hin hi).imp_right fun ⟨p, b, hpass, hties⟩ => ⟨p, b, hpass, fun hp => ?_⟩
    exact (hties (halive p.id ▸ hp)).of_alive ((halive _).trans hi) hp

/-- The delegates are in sync again when everything that is connected has the value. -/
theorem Carries.flooded (h : net.Carries m) (hs : s ∈ m.slots) (hv : v.floatFree = true)
    {held : List Nat} (hflooded : net.Flooded v held (m.component net.store s) net₁) :
    net₁.Carries m := by
  refine h.of_same (by rw [hflooded.same]) hflooded.alive hflooded.shape (fun d hd hlive => ?_)
    fun t ht halive => ?_
  · have hties : m.Ties net.store (d.target.id, d.attr) (d.source.id, d.name) :=
      .intro hd .outward hlive.target hlive.source
    have hiff : (d.target.id, d.attr) ∈ m.component net.store s ↔
        (d.source.id, d.name) ∈ m.component net.store s := by
      rw [Mesh.mem_component hs, Mesh.mem_component hs]
      exact ⟨fun hpath => hpath.tail hties, fun hpath => hpath.tail hties.swap⟩
    unfold Joint.InSync
    rw [Store.get?_eq_at?, Store.get?_eq_at?]
    by_cases hin : (d.target.id, d.attr) ∈ m.component net.store s
    · rw [hflooded.done _ hin, hflooded.done _ (hiff.1 hin)]
      exact ⟨v, v, rfl, rfl, Value.equal_self v hv⟩
    · rw [hflooded.rest _ hin, hflooded.rest _ (mt hiff.2 hin), ← Store.get?_eq_at?,
        ← Store.get?_eq_at?]
      exact h.inSync d hd hlive
  · unfold Store.Takes
    by_cases hin : t ∈ m.component net.store s
    · exact .inl ⟨v, hflooded.done t hin, hv⟩
    · rw [hflooded.rest t hin, hflooded.shape]
      exact h.takes t ht halive

/-- Delegates to objects that went are no longer there; the others are as they were. -/
theorem Carries.sheds (h : net.Carries m) (hsheds : net.Sheds net') : net'.Carries m where
  live d hd ht hs := by
    have hlive := h.live d hd (hsheds.isAlive ht) (hsheds.isAlive hs)
    exact ⟨hsheds.observed _ hlive.outward ht, hsheds.observed _ hlive.inward hs, ht, hs⟩
  inSync d hd hlive := by
    have hinSync := h.inSync d hd ⟨hsheds.observers hlive.outward, hsheds.observers hlive.inward,
      hsheds.isAlive hlive.target, hsheds.isAlive hlive.source⟩
    unfold Joint.InSync at hinSync ⊢
    rw [Store.get?_eq_at?, Store.get?_eq_at?] at hinSync ⊢
    rwa [hsheds.at?_eq hlive.target, hsheds.at?_eq hlive.source]
  accepts s hs hi := by
    rw [hsheds.shape?_eq hi]
    exact h.accepts s hs (hsheds.isAlive hi)
  takes s hs hi := by
    unfold Store.Takes
    rw [hsheds.shape?_eq hi, hsheds.at?_eq hi]
    exact h.takes s hs (hsheds.isAlive hi)
  alone o ho hin hi := by
    refine (h.alone o (hsheds.observers ho) hin (hsheds.isAlive hi)).imp_right
      fun ⟨p, b, hpass, hties⟩ => ⟨p, b, hpass, fun hp => ?_⟩
    exact (hties (hsheds.isAlive hp)).of_alive hi hp

/-- Everything connected to an attribute has a value equal to the given one, and every other
attribute has the value it had, as far as objects are still there. Those that something other than an
attribute refers to are. -/
structure Spreads (net : Network) (m : Mesh) (s : Slot) (v : Value) (net' : Network) : Prop where
  connected : ∀ t, m.Connected net.store s t → net'.store.isAlive t.1 = true →
    ∃ w, net'.store.at? t = some w ∧ w.equal v = true
  others : ∀ t, ¬m.Connected net.store s t → net'.store.isAlive t.1 = true →
    net'.store.at? t = net.store.at? t
  kept : ∀ i, net.Keeps i → net.store.isAlive i = true → net'.store.isAlive i = true

/-- A value has spread. If it was one that the attribute did not have, what is connected to it has
changed once, and nothing else has. -/
structure Settles (net : Network) (m : Mesh) (s : Slot) (v : Value) (changed : Bool)
    (net' : Network) : Prop extends net.Spreads m s v net' where
  same : net' = { net with store := net'.store, observers := net'.observers, events := net'.events }
  seen : ∀ id t, m.Connected net.store s t →
    net'.sightings id t = net.sightings id t + if changed then net.watchers id t else 0
  unseen : ∀ id t, ¬m.Connected net.store s t → net'.sightings id t = net.sightings id t

theorem Spreads.sheds (h : net.Spreads m s v net₁) (hkeeps : ∀ i, net.Keeps i → net₁.Keeps i)
    (hsheds : net₁.Sheds net') : net.Spreads m s v net' where
  connected t ht hi := by
    rw [hsheds.at?_eq hi]
    exact h.connected t ht (hsheds.isAlive hi)
  others t ht hi := (hsheds.at?_eq hi).trans (h.others t ht (hsheds.isAlive hi))
  kept i hi halive := hsheds.kept i (hkeeps i hi) (h.kept i hi halive)

/-- An attribute that is assigned settles. -/
theorem Carries.settles_of_assign (h : net.Carries m) (hrests : net.Rests) {o : ObjectRef}
    {attr : String} (hs : (o.id, attr) ∈ m.slots) (halive : net.store.isAlive o.id = true)
    (hv : v.floatFree = true) {n : Nat} (hn : 3 * m.slots.card < n) :
    ∃ changed net', assign n o attr v net = some (.ok changed, net') ∧
      net.Settles m (o.id, attr) v changed net' ∧ net'.Carries m := by
  have hchanges {old : Value} (hdiffers : net.store.Differs (o.id, attr) old v) :
      ∃ changed net', assign n o attr v net = some (.ok changed, net') ∧
        net.Settles m (o.id, attr) v changed net' ∧ net'.Carries m := by
    obtain ⟨net₁, hrun, hfloods⟩ := h.changes hrests hs halive hdiffers hv hn
    have hflooded := hfloods.flooded
    have hsheds := sheds_sweep { net₁ with busy := net.busy }
    have hkeeps (i : Nat) (hi : net.Keeps i) :
        ({ net₁ with busy := net.busy } : Network).Keeps i := by
      rw [hflooded.same]
      exact hi
    have hspreads : net.Spreads m (o.id, attr) v { net₁ with busy := net.busy } := {
      connected := fun t ht _ =>
        ⟨v, hflooded.done t ((Mesh.mem_component hs).2 ht), Value.equal_self v hv⟩
      others := fun t ht _ => hflooded.rest t (mt (Mesh.mem_component hs).1 ht)
      kept := fun i _ hi => (hflooded.alive i).trans hi }
    have hcarries : ({ net₁ with busy := net.busy } : Network).Carries m :=
      h.flooded hs hv { hflooded with same := by rw [hflooded.same] }
    have hsame : net₁.letGo net.busy = { net with
        store := (net₁.letGo net.busy).store
        observers := (net₁.letGo net.busy).observers
        events := net₁.events } := by
      refine hsheds.same.trans ?_
      rw [hflooded.same]
      rfl
    have hsightings (id : String) (t : Slot) : (net₁.letGo net.busy).sightings id t
        = net.sightings id t +
          if t ∈ m.component net.store (o.id, attr) then net.watchers id t else 0 := by
      have hevents : (net₁.letGo net.busy).events = net₁.events := by rw [hsame]
      unfold sightings
      rw [hevents]
      refine (hfloods.sightings id t).trans ?_
      simp [sightings, hold]
    refine ⟨true, _, hrun, { hspreads.sheds hkeeps hsheds with
      same := by rw [hsame]
      seen := fun id t ht => ?_
      unseen := fun id t ht => ?_ }, hcarries.sheds hsheds⟩
    · rw [hsightings, if_pos ((Mesh.mem_component hs).2 ht), if_pos rfl]
    · rw [hsightings, if_neg (mt (Mesh.mem_component hs).1 ht), Nat.add_zero]
  rcases h.takes _ hs halive with ⟨old, hold, hfree⟩ | ⟨hnone, hopen⟩
  · cases hequal : old.equal v with
    | false => exact hchanges (.inl ⟨hold, hequal⟩)
    | true =>
      have hunchanged : net.store.assign o attr v = .ok .unchanged :=
        Store.assign_eq_unchanged (h.accepts _ hs halive) ((Store.get?_eq_at? ..).trans hold) hequal
      obtain ⟨n, rfl⟩ := Nat.exists_eq_add_of_lt hn
      refine ⟨false, net, assign_of_unchanged hunchanged, {
        connected := fun t ht hi => ?_
        others := fun _ _ _ => rfl
        kept := fun _ _ hi => hi
        same := rfl
        seen := fun _ _ _ => rfl
        unseen := fun _ _ _ => rfl }, h⟩
      obtain ⟨w, hw, he⟩ := h.equal_of_connected hs halive hold ht
      have hwfree := h.floatFree (ht.mem hs) hi hw
      exact ⟨w, hw, (Value.equal_congr old w hfree hwfree he v).symm.trans hequal⟩
  · exact hchanges (.inr ⟨hnone, hopen, rfl⟩)

/-- The host may look at any attribute, so that the changes of all of them can be counted. -/
theorem Carries.watched (h : net.Carries m) (s : Slot) (id : String) :
    (net.subscribe s.1 s.2 (.host id [])).2.Carries m where
  live d hd ht hs := by
    have hlive := h.live d hd ht hs
    exact ⟨List.mem_append_left _ hlive.outward, List.mem_append_left _ hlive.inward, ht, hs⟩
  inSync d hd hlive := h.inSync d hd (h.live d hd hlive.target hlive.source)
  accepts := h.accepts
  takes := h.takes
  alone o ho hin hi := by
    rcases List.mem_append.1 ho with hold | hnew
    · exact h.alone o hold hin hi
    · rw [List.mem_singleton.1 hnew]
      exact .inl ⟨id, rfl⟩

/-! ### One more delegate -/

theorem connect_of_delegate {code name attr : String} {object : Expr} {scope : Scope}
    {target source : ObjectRef} {changed : Bool} {n : Nat}
    (hobject : (net.outcome scope object).1 = .ok (.object source))
    (hvalue : net.store.get? source name = some v)
    (h : assign n target attr v ((net.evaluated scope object).hold [source.id])
      = some (.ok changed, net₁)) :
    connect (n + 1) (.delegate code object name) target attr scope net
      = some (.ok (some net₁.links.size),
          (net₁.delegated target attr source name).letGo net.busy) := by
  simp only [connect, bind_eq_some, evaluate_eq_some]
  refine ⟨_, _, ⟨rfl, rfl⟩, ?_⟩
  simp only [hobject, bind_eq_some, get_eq_some]
  refine ⟨_, _, ⟨rfl, rfl⟩, ?_⟩
  have hvalue' : (net.evaluated scope object).store.get? source name = some v := hvalue
  simp only [hvalue', holding_eq_some, bind_eq_some]
  refine ⟨_, ⟨_, _, h, ?_⟩, rfl⟩
  simp only [bind_eq_some, get_eq_some, set_eq_some, pure_eq_some]
  exact ⟨_, _, ⟨rfl, rfl⟩, (), _, rfl, rfl, rfl⟩

theorem observers_delegated (net : Network) (target : ObjectRef) (attr : String)
    (source : ObjectRef) (name : String) :
    (net.delegated target attr source name).observers = net.observers ++
      [⟨net.nextObserver, target.id, attr, .writeThrough source name⟩,
        ⟨net.nextObserver + 1, source.id, name, .writeBack target attr⟩] := by
  simp [delegated, subscribe, addLink]

theorem link?_delegated {target source : ObjectRef} {attr name : String} {k : Nat} {lk : Link}
    (h : net.link? k = some lk) : (net.delegated target attr source name).link? k = some lk := by
  unfold delegated
  refine (link?_addLink _ _ k).trans ?_
  rw [if_neg]
  · exact h
  · exact (lt_size_of_link? h).ne

/-- A delegate between attributes with equal values is one more delegate that is in sync. -/
theorem Carries.delegated (h : net.Carries m) {target source : ObjectRef} {attr name : String}
    (hends : (target.id, attr) ∈ m.slots ∧ (source.id, name) ∈ m.slots)
    (hinSync : net.store.isAlive target.id = true → net.store.isAlive source.id = true →
      ∃ v w, net.store.get? target attr = some v ∧ net.store.get? source name = some w ∧
        v.equal w = true) :
    (net.delegated target attr source name).Carries
      (m.tie ⟨target, attr, source, name, net.nextObserver, net.nextObserver + 1⟩ hends) where
  live d hd ht hs := by
    rcases List.mem_cons.1 hd with rfl | hd
    · refine ⟨?_, ?_, ht, hs⟩
      · simp [observers_delegated]
      · simp [observers_delegated]
    · have hlive := h.live d hd ht hs
      refine ⟨?_, ?_, ht, hs⟩
      · rw [observers_delegated]
        exact List.mem_append_left _ hlive.outward
      · rw [observers_delegated]
        exact List.mem_append_left _ hlive.inward
  inSync d hd hlive := by
    rcases List.mem_cons.1 hd with rfl | hd
    · exact hinSync hlive.target hlive.source
    · exact h.inSync d hd (h.live d hd hlive.target hlive.source)
  accepts := h.accepts
  takes := h.takes
  alone o ho hin hi := by
    rw [observers_delegated] at ho
    rcases List.mem_append.1 ho with hold | hnew
    · refine (h.alone o hold hin hi).imp_right fun ⟨p, b, hpass, hties⟩ => ?_
      exact ⟨p, b, hpass, fun hp => (hties hp).tie⟩
    · have htie {x y : ObjectRef} {a b : String}
          (hpass : Joint.Passes ⟨target, attr, source, name, net.nextObserver, net.nextObserver + 1⟩
            x a y b) (hx : net.store.isAlive x.id = true) (hy : net.store.isAlive y.id = true) :=
        Mesh.Ties.intro (m := m.tie _ hends) (List.mem_cons_self ..) hpass hx hy
      simp only [List.mem_cons, List.not_mem_nil, or_false] at hnew
      rcases hnew with rfl | rfl
      · exact .inr ⟨source, name, rfl, fun hp => htie .outward hi hp⟩
      · exact .inr ⟨target, attr, rfl, fun hp => htie .inward hi hp⟩

/-- A delegate that is added settles: the attribute of its target takes the value of the attribute
of its source, and then the two are in sync. -/
theorem Carries.settles_of_connect (h : net.Carries m) (hrests : net.Rests)
    {code name attr : String} {object : Expr} {scope : Scope} {target source : ObjectRef}
    (hends : (target.id, attr) ∈ m.slots ∧ (source.id, name) ∈ m.slots)
    (htarget : net.store.isAlive target.id = true) (hsource : net.store.isAlive source.id = true)
    (hobject : (net.outcome scope object).1 = .ok (.object source))
    (hvalue : net.store.get? source name = some v) {n : Nat} (hn : 3 * m.slots.card + 1 < n) :
    ∃ k net' i j, connect n (.delegate code object name) target attr scope net
        = some (.ok (some k), net') ∧ net.Spreads m (target.id, attr) v net' ∧
      net'.Carries (m.tie ⟨target, attr, source, name, i, j⟩ hends) := by
  obtain ⟨n, rfl⟩ := Nat.exists_eq_add_of_lt hn
  have hsource' : net.store.at? (source.id, name) = some v :=
    (Store.get?_eq_at? ..).symm.trans hvalue
  have hfree : v.floatFree = true := h.floatFree hends.2 hsource hsource'
  have hstart : ((net.evaluated scope object).hold [source.id]).Carries m :=
    h.of_same rfl (fun _ => rfl) (fun _ => rfl) h.inSync h.takes
  have hrests' : ((net.evaluated scope object).hold [source.id]).Rests :=
    ((calms_evaluated scope object).rests hrests).of_busy (List.subset_append_right ..)
  obtain ⟨changed, net₁, hrun, hsettles, hcarries⟩ :=
    hstart.settles_of_assign hrests' hends.1 htarget hfree
      (show 3 * m.slots.card < 3 * m.slots.card + 1 + n by omega)
  have hinSync (ht : net₁.store.isAlive target.id = true)
      (hs : net₁.store.isAlive source.id = true) :
      ∃ v w, net₁.store.get? target attr = some v ∧ net₁.store.get? source name = some w ∧
        v.equal w = true := by
    obtain ⟨w, hw, he⟩ := hsettles.connected (target.id, attr) .refl ht
    rw [Store.get?_eq_at?, Store.get?_eq_at?]
    rcases Classical.em (m.Connected net.store (target.id, attr) (source.id, name)) with
      hpath | hpath
    · obtain ⟨w', hw', he'⟩ := hsettles.connected _ hpath hs
      have hwfree := hcarries.floatFree hends.1 ht hw
      refine ⟨w, w', hw, hw', ?_⟩
      rw [Value.equal_congr w v hwfree hfree he, Value.equal_comm, he']
    · exact ⟨w, v, hw, (hsettles.others _ hpath hs).trans hsource', he⟩
  have hdelegated := hcarries.delegated hends hinSync
  have hleft : ({ net₁.delegated target attr source name with busy := net.busy } : Network).Carries
      (m.tie ⟨target, attr, source, name, net₁.nextObserver, net₁.nextObserver + 1⟩ hends) :=
    hdelegated.of_same rfl (fun _ => rfl) (fun _ => rfl) hdelegated.inSync hdelegated.takes
  have hspreads : net.Spreads m (target.id, attr) v
      { net₁.delegated target attr source name with busy := net.busy } := {
    connected := hsettles.connected
    others := hsettles.others
    kept := fun i hi =>
      hsettles.kept i (hi.imp_right (.imp_right (.imp_left (List.mem_append_right _)))) }
  have hkeeps (i : Nat) (hi : net.Keeps i) :
      ({ net₁.delegated target attr source name with busy := net.busy } : Network).Keeps i := by
    have howners : net₁.owners = net.owners := by rw [hsettles.same]; rfl
    have hdesk : net₁.desk = net.desk := by rw [hsettles.same]; rfl
    have hlinks : net₁.links = net.links := by rw [hsettles.same]; rfl
    rcases hi with hi | hi | hi | ⟨k, lk, hlk, hi⟩
    · exact .inl (howners.symm ▸ hi)
    · exact .inr (.inl (hdesk.symm ▸ hi))
    · exact .inr (.inr (.inl hi))
    · refine .inr (.inr (.inr ⟨k, lk, link?_delegated ?_, hi⟩))
      unfold link? at hlk ⊢
      rwa [hlinks]
  have hsheds := sheds_sweep { net₁.delegated target attr source name with busy := net.busy }
  exact ⟨net₁.links.size, _, _, _, connect_of_delegate hobject hvalue hrun,
    hspreads.sheds hkeeps hsheds, hleft.sheds hsheds⟩

/-- Delegates settle. An assignment to any attribute and one more delegate between any two of them
both come to an end, at a depth of calls that is bounded by the count of the attributes, and they
leave every delegate in sync. -/
theorem Carries.settles (h : net.Carries m) (hrests : net.Rests) :
    (∀ (o : ObjectRef) (attr : String) (v : Value) (n : Nat), (o.id, attr) ∈ m.slots →
      net.store.isAlive o.id = true → v.floatFree = true → 3 * m.slots.card < n →
      ∃ changed net', assign n o attr v net = some (.ok changed, net') ∧
        net.Settles m (o.id, attr) v changed net' ∧ net'.Carries m ∧ net'.Rests) ∧
    ∀ (target source : ObjectRef) (attr name code : String) (object : Expr) (scope : Scope)
      (v : Value) (n : Nat) (hends : (target.id, attr) ∈ m.slots ∧ (source.id, name) ∈ m.slots),
      net.store.isAlive target.id = true → net.store.isAlive source.id = true →
      (net.outcome scope object).1 = .ok (.object source) →
      net.store.get? source name = some v → 3 * m.slots.card + 1 < n →
      ∃ k net' i j, connect n (.delegate code object name) target attr scope net
          = some (.ok (some k), net') ∧ net.Spreads m (target.id, attr) v net' ∧
        net'.Carries (m.tie ⟨target, attr, source, name, i, j⟩ hends) ∧ net'.Rests := by
  constructor
  · intro o attr v n hs halive hv hn
    obtain ⟨changed, net', hrun, hsettles, hcarries⟩ := h.settles_of_assign hrests hs halive hv hn
    exact ⟨changed, net', hrun, hsettles, hcarries, (calms_assign hrun).rests hrests⟩
  · intro target source attr name code object scope v n hends htarget hsource hobject hvalue hn
    obtain ⟨k, net', i, j, hrun, hspreads, hcarries⟩ :=
      h.settles_of_connect hrests hends htarget hsource hobject hvalue hn
    exact ⟨k, net', i, j, hrun, hspreads, hcarries, (calms_connect hrun).rests hrests⟩

/-- The boxes that a host keeps, by number. -/
def box (i : Nat) : ObjectRef := ⟨i, "Box"⟩

/-- A cycle of three boxes, one of its delegates twice, and a delegate of a box to itself. -/
def boxMesh : Mesh where
  slots := {(0, "x"), (1, "x"), (2, "x"), (3, "x")}
  joints := [⟨box 0, "x", box 1, "x", 0, 1⟩, ⟨box 1, "x", box 2, "x", 2, 3⟩,
    ⟨box 2, "x", box 0, "x", 4, 5⟩, ⟨box 0, "x", box 1, "x", 6, 7⟩, ⟨box 1, "x", box 1, "x", 8, 9⟩]
  ends := by decide

/-- The boxes of the cycle and another one, which the host keeps. It looks at two of them. -/
def boxes : Network where
  store := { objects := Array.replicate 4 ⟨"Box", .open, Table.ofList [("x", .str "a")], true⟩ }
  observers := boxMesh.joints.flatMap (fun d =>
    [⟨d.outward, d.target.id, d.attr, .writeThrough d.source d.name⟩,
      ⟨d.inward, d.source.id, d.name, .writeBack d.target d.attr⟩]) ++
    [⟨10, 1, "x", .host "seen" []⟩, ⟨11, 3, "x", .host "seen" []⟩]
  nextObserver := 12
  desk := { objects := Table.ofList [("a", box 0), ("b", box 1), ("c", box 2), ("d", box 3)] }

theorem isAlive_boxes {i : Nat} : boxes.store.isAlive i = decide (i < 4) := by
  unfold Store.isAlive boxes
  rw [Array.getElem?_replicate]
  by_cases hi : i < 4 <;> simp [hi]

theorem at?_boxes {i : Nat} (hi : i < 4) : boxes.store.at? (i, "x") = some (.str "a") := by
  unfold Store.at? Store.get? Store.attrs boxes
  rw [Array.getElem?_replicate, if_pos hi]
  rfl

theorem boxes_carries : boxes.Carries boxMesh := by
  have hslots : ∀ s ∈ boxMesh.slots, s.1 < 4 ∧ s.2 = "x" := by decide
  have hboxes {s : Slot} (hs : s ∈ boxMesh.slots) : boxes.store.at? s = some (.str "a") := by
    obtain ⟨i, attr⟩ := s
    obtain ⟨hi, rfl⟩ := hslots _ hs
    exact at?_boxes hi
  have halive {s : Slot} (hs : s ∈ boxMesh.slots) : boxes.store.isAlive s.1 = true :=
    isAlive_boxes.trans (decide_eq_true (hslots s hs).1)
  refine ⟨fun d hd ht hs => ⟨?_, ?_, ht, hs⟩, fun d hd _ => ?_, fun s hs _ => ?_, fun s hs _ => ?_,
    fun o ho _ _ => ?_⟩
  · refine List.mem_append_left _ (List.mem_flatMap.2 ⟨d, hd, ?_⟩)
    exact List.mem_cons_self ..
  · refine List.mem_append_left _ (List.mem_flatMap.2 ⟨d, hd, ?_⟩)
    exact List.mem_cons_of_mem _ (List.mem_cons_self ..)
  · refine ⟨.str "a", .str "a", ?_, ?_, by simp [Value.equal]⟩
    · exact (Store.get?_eq_at? ..).trans (hboxes (boxMesh.ends d hd).1)
    · exact (Store.get?_eq_at? ..).trans (hboxes (boxMesh.ends d hd).2)
  · have hi := (hslots s hs).1
    unfold Store.shape? boxes
    rw [Array.getElem?_replicate, if_pos hi]
    exact nofun
  · exact .inl ⟨.str "a", hboxes hs, rfl⟩
  · rcases List.mem_append.1 ho with ho | ho
    · obtain ⟨d, hd, ho⟩ := List.mem_flatMap.1 ho
      have ⟨ht, hs⟩ := boxMesh.ends d hd
      simp only [List.mem_cons, List.not_mem_nil, or_false] at ho
      rcases ho with rfl | rfl
      · exact .inr ⟨d.source, d.name, rfl, fun _ => .intro hd .outward (halive ht) (halive hs)⟩
      · exact .inr ⟨d.target, d.attr, rfl, fun _ => .intro hd .inward (halive hs) (halive ht)⟩
    · simp only [List.mem_cons, List.not_mem_nil, or_false] at ho
      rcases ho with rfl | rfl
      · exact .inl ⟨"seen", rfl⟩
      · exact .inl ⟨"seen", rfl⟩

theorem boxes_keeps {i : Nat} (hi : i < 4) : boxes.Keeps i := by
  refine .inr (.inl (.inl ⟨box i, ?_, rfl⟩))
  have hnames : boxes.desk.objects.values = [box 0, box 1, box 2, box 3] := by rfl
  rw [hnames]
  interval_cases i <;> simp

theorem boxes_rests : boxes.Rests := by
  intro i hi
  rw [isAlive_boxes, decide_eq_true_eq] at hi
  exact (boxes_keeps hi).holds

theorem Carries.settles_boxes :
    (∃ changed net', assign 13 (box 0) "x" (.str "b") boxes = some (.ok changed, net') ∧
      boxes.Settles boxMesh (0, "x") (.str "b") changed net' ∧ net'.Carries boxMesh) ∧
    ∃ k net', ∃ d : Joint, connect 14 (.delegate "a.x" (.name "a") "x") (box 3) "x"
        { layers := [Table.ofList [("a", .object (box 0))]] } boxes = some (.ok (some k), net') ∧
      d.target = box 3 ∧ d.source = box 0 ∧ d.InSync net' := by
  have hcard : boxMesh.slots.card = 4 := by rfl
  constructor
  · obtain ⟨changed, net', hrun, hsettles, hcarries, -⟩ :=
      (Carries.settles boxes_carries boxes_rests).1 (box 0) "x" (.str "b") 13 (by decide) (by rfl)
        (by rfl) (by omega)
    exact ⟨changed, net', hrun, hsettles, hcarries⟩
  · obtain ⟨k, net', i, j, hrun, hspreads, hcarries, -⟩ :=
      (Carries.settles boxes_carries boxes_rests).2 (box 3) (box 0) "x" "x" "a.x" (.name "a")
        { layers := [Table.ofList [("a", .object (box 0))]] } (.str "a") 14 (by decide) (by rfl)
        (by rfl) (by rfl) (by rfl) (by omega)
    have hkept {i : Nat} (hi : i < 4) : net'.store.isAlive i = true :=
      hspreads.kept i (boxes_keeps hi) (isAlive_boxes.trans (decide_eq_true hi))
    refine ⟨k, net', _, hrun, rfl, rfl, hcarries.inSync _ (List.mem_cons_self ..) ?_⟩
    exact hcarries.live _ (List.mem_cons_self ..) (hkept (show 3 < 4 by decide))
      (hkept (show 0 < 4 by decide))

end Network

end ReactiveView
