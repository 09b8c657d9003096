import ReactiveView.Proofs.Network.Resting
import Mathlib

/-!
This module contains how a value floods attributes that pass it on to each other. The search is
depth first: an attribute that changes passes the value on to its neighbours one after the other, and an
attribute that has the value already stops it. An attribute that has changed has passed the value on
to all its neighbours by the time its own change is over, so what has changed by the end is closed
under passing on, and nothing in it has changed twice.
-/

namespace ReactiveView

open Cascade Network

/-- The attribute that an observer observes. -/
def Observer.slot (o : Observer) : Slot := (o.object, o.attr)

/-- Whether this is an observer of the host, under the given name, that does nothing but look. -/
def Handler.watches (id : String) : Handler → Bool
  | .host id' [] => id' == id
  | _ => false

/-- Whether an observer of the host, under the given name, saw a change of the attribute. -/
def Event.tells (id : String) (s : Slot) : Event → Bool
  | .changed id' c => id' == id && decide ((c.object.id, c.attr) = s)
  | _ => false

section Steps

variable {n : Nat} {net net' : Network} {o p : ObjectRef} {attr : String} {v old : Value}
  {store : Store} {change : Change} {handler : Handler}

/-! ### Single steps -/

theorem assign_of_unchanged (h : net.store.assign o attr v = .ok .unchanged) :
    assign (n + 1) o attr v net = some (.ok false, net) := by
  simp only [assign, bind_eq_some, get_eq_some]
  refine ⟨_, _, ⟨rfl, rfl⟩, ?_⟩
  rw [h]
  rfl

theorem assign_of_changed (h : net.store.assign o attr v = .ok (.changed store old))
    (hannounce : announce n ⟨o, attr, old, v⟩ { net with store } = some ((), net')) :
    assign (n + 1) o attr v net = some (.ok true, net') := by
  simp only [assign, bind_eq_some, get_eq_some]
  refine ⟨_, _, ⟨rfl, rfl⟩, ?_⟩
  rw [h]
  simp only [bind_eq_some, set_eq_some, pure_eq_some]
  exact ⟨(), _, rfl, _, _, hannounce, trivial, rfl⟩

theorem announce_of_forM
    (h : ((net.observersOf change.object.id change.attr).forM fun o => react n change o.handler)
      (net.hold change.references) = some ((), net')) :
    announce (n + 1) change net = some ((), net'.letGo net.busy) := by
  simp only [announce, bind_eq_some, get_eq_some]
  exact ⟨_, _, ⟨rfl, rfl⟩, holding_eq_some.2 ⟨_, h, rfl⟩⟩

theorem react_of_passes {b : Bool} (hpass : handler.passesTo? = some (p, attr))
    (halive : net.store.isAlive p.id = true)
    (h : assign n p attr change.new net = some (.ok b, net')) :
    react (n + 1) change handler net = some ((), net') := by
  cases handler with
  | writeThrough source name | writeBack target name =>
    cases hpass
    simp only [react, bind_eq_some, get_eq_some]
    refine ⟨_, _, ⟨rfl, rfl⟩, ?_⟩
    rw [if_pos halive]
    simp only [bind_eq_some]
    exact ⟨_, _, h, rfl⟩
  | _ => cases hpass

theorem react_of_dead (hpass : handler.passesTo? = some (p, attr))
    (hdead : ¬net.store.isAlive p.id = true) :
    react (n + 1) change handler net = some ((), net) := by
  cases handler with
  | writeThrough source name | writeBack target name =>
    cases hpass
    simp only [react, bind_eq_some, get_eq_some]
    refine ⟨_, _, ⟨rfl, rfl⟩, ?_⟩
    rw [if_neg hdead]
    rfl
  | _ => cases hpass

theorem react_of_watches (id : String) :
    react (n + 1) change (.host id []) net = some ((), net.happened (.changed id change)) := by
  simp only [react, bind_eq_some, modify_eq_some]
  exact ⟨(), _, rfl, rfl⟩

end Steps

namespace Network

variable {net net' net'' base : Network} {D D' D'' C : Finset Slot} {v : Value} {held : List Nat}
  {s t : Slot} {i : Nat}

/-- How many observers of the host, under the given name, look at the attribute. -/
def watchers (net : Network) (id : String) (s : Slot) : Nat :=
  (net.observersOf s.1 s.2).countP fun o => o.handler.watches id

/-- How many changes of the attribute observers of the host have seen under the given name. -/
def sightings (net : Network) (id : String) (s : Slot) : Nat := net.events.countP (Event.tells id s)

theorem sightings_happened (net : Network) (e : Event) (id : String) (s : Slot) :
    (net.happened e).sightings id s = net.sightings id s + if e.tells id s then 1 else 0 :=
  Array.countP_push ..

theorem mem_observersOf_iff {o : Observer} :
    o ∈ net.observersOf s.1 s.2 ↔ o ∈ net.observers ∧ o.slot = s := by
  unfold observersOf Observer.slot
  simp [Prod.ext_iff]

/-! ### Where a value is passed on to -/

/-- The observer only looks, or it passes values on to an attribute of the set or to an object that
is gone. -/
def Leads (base : Network) (C : Finset Slot) (o : Observer) : Prop :=
  (∃ id, o.handler = .host id []) ∨ ∃ p attr, o.handler.passesTo? = some (p, attr) ∧
    (base.store.isAlive p.id = true → (p.id, attr) ∈ C)

theorem Leads.mono {o : Observer} (h : base.Leads D o) (hD : D ⊆ D') : base.Leads D' o :=
  h.imp_right fun ⟨p, attr, hpass, hmem⟩ => ⟨p, attr, hpass, fun halive => hD (hmem halive)⟩

/-- Attributes that pass values on to each other only, and do not have the value that one of them is
about to be assigned. -/
structure Basin (base : Network) (C : Finset Slot) (v : Value) (held : List Nat) : Prop where
  alive : ∀ s ∈ C, base.store.isAlive s.1 = true
  accepts : ∀ s ∈ C, base.store.shape? s.1 ≠ some .frozen
  /-- Work in progress holds whatever the old values refer to. -/
  differs : ∀ s ∈ C, ∃ old, base.store.Differs s old v ∧ ∀ o ∈ old.references, o.id ∈ held
  leads : ∀ o ∈ base.observers, o.slot ∈ C → base.Leads C o
  self : v.equal v = true

/-- Some attributes have been given the value, and nothing else has happened but what observers of
the host saw. -/
structure Flooded (base : Network) (v : Value) (held : List Nat) (D : Finset Slot) (net : Network) :
    Prop where
  same : net = { base with store := net.store, events := net.events, busy := net.busy }
  alive : ∀ i, net.store.isAlive i = base.store.isAlive i
  shape : ∀ i, net.store.shape? i = base.store.shape? i
  done : ∀ s ∈ D, net.store.at? s = some v
  rest : ∀ s ∉ D, net.store.at? s = base.store.at? s
  rests : ({ net with busy := held } : Network).Rests

/-- What happens when more attributes are given the value: each of them passes it on, and its
observers, and those that have been told on the way, see the change once. -/
structure Floods (base : Network) (C : Finset Slot) (v : Value) (held : List Nat)
    (told : List Observer) (D : Finset Slot) (net : Network) (D' : Finset Slot) (net' : Network) :
    Prop where
  flooded : base.Flooded v held D' net'
  grows : D ⊆ D'
  within : D' ⊆ C
  busy : net'.busy = net.busy
  closed : ∀ o ∈ base.observers, o.slot ∈ D' → o.slot ∉ D → base.Leads D' o
  led : ∀ o ∈ told, base.Leads D' o
  sightings : ∀ id s, net'.sightings id s = net.sightings id s +
    (if s ∈ D' ∧ s ∉ D then base.watchers id s else 0) +
    told.countP fun o => decide (o.slot = s) && o.handler.watches id

variable {told told' : List Observer}

/-- The observers of an attribute that look at it under a name. -/
theorem countP_watches (net : Network) (id : String) (s : Slot) (i : Nat) (attr : String) :
    ((net.observersOf i attr).countP fun o => decide (o.slot = s) && o.handler.watches id)
      = if s = (i, attr) then net.watchers id s else 0 := by
  have hslot {o : Observer} (ho : o ∈ net.observersOf i attr) : o.slot = (i, attr) :=
    (mem_observersOf_iff (s := (i, attr)).1 ho).2
  split
  · next hs =>
    subst hs
    refine List.countP_congr fun o ho => ?_
    simp [hslot ho]
  · next hs =>
    refine List.countP_eq_zero.2 fun o ho => ?_
    simp [hslot ho, Ne.symm hs]

theorem Flooded.observersOf (h : base.Flooded v held D net) (i : Nat) (attr : String) :
    net.observersOf i attr = base.observersOf i attr := by
  rw [h.same]
  rfl

theorem Flooded.hold (h : base.Flooded v held D net) (ids : List Nat) :
    base.Flooded v held D (net.hold ids) :=
  { h with same := by rw [h.same]; rfl }

theorem Floods.refl (h : base.Flooded v held D net) (hD : D ⊆ C) :
    base.Floods C v held [] D net D net where
  flooded := h
  grows := subset_rfl
  within := hD
  busy := rfl
  closed _ _ hin hout := absurd hin hout
  led := nofun
  sightings id s := by simp

theorem Floods.trans (h : base.Floods C v held told D net D' net')
    (h' : base.Floods C v held told' D' net' D'' net'') :
    base.Floods C v held (told ++ told') D net D'' net'' where
  flooded := h'.flooded
  grows := h.grows.trans h'.grows
  within := h'.within
  busy := h'.busy.trans h.busy
  closed o ho hin hout := by
    rcases Decidable.em (o.slot ∈ D') with hmem | hmem
    · exact (h.closed o ho hmem hout).mono h'.grows
    · exact h'.closed o ho hin hmem
  led o ho := (List.mem_append.1 ho).elim (fun ho => (h.led o ho).mono h'.grows) (h'.led o)
  sightings id s := by
    have hgrows := @h.grows s
    have hgrows' := @h'.grows s
    rw [h'.sightings, h.sightings, List.countP_append]
    by_cases h₁ : s ∈ D <;> by_cases h₂ : s ∈ D' <;> by_cases h₃ : s ∈ D'' <;>
      simp_all <;> omega

/-! ### The search -/

/-- An assignment puts the value into one more attribute. -/
theorem Basin.put (hC : base.Basin C v held) (h : base.Flooded v held D net) {o : ObjectRef}
    {attr : String} (hs : (o.id, attr) ∈ C) (hout : (o.id, attr) ∉ D) {old : Value}
    (hdiffers : base.store.Differs (o.id, attr) old v) (hheld : ∀ p ∈ old.references, p.id ∈ held) :
    base.Flooded v held (insert (o.id, attr) D) { net with store := net.store.put o attr v } := by
  have hsize : o.id < net.store.objects.size :=
    Store.lt_size_of_isAlive ((h.alive o.id).trans (hC.alive _ hs))
  refine ⟨?_, fun i => ?_, fun i => ?_, fun t ht => ?_, fun t ht => ?_, ?_⟩
  · rw [h.same]
  · rw [Store.isAlive_put, h.alive]
  · rw [Store.shape?_put, h.shape]
  · rw [Store.at?_put hsize]
    split
    · rfl
    · next hne => exact h.done t ((Finset.mem_insert.1 ht).resolve_left hne)
  · rw [Finset.mem_insert, not_or] at ht
    rw [Store.at?_put hsize, if_neg ht.1, h.rest t ht.2]
  · refine h.rests.of_holds (fun i => Store.isAlive_put) rfl rfl rfl (List.Subset.refl _) ?_
    intro j obj i hobj hrefers
    change net.store.objects[j]? = some obj at hobj
    change i ∈ held ∨ ∃ obj' : Obj, (net.store.put o attr v).objects[j]? = some obj' ∧ obj'.Refers i
    rw [Store.objects_put]
    split
    · next hj =>
      obtain ⟨w, hw, r, hr, rfl⟩ := hrefers
      obtain ⟨e, he, rfl⟩ := List.mem_map.1 hw
      rcases Table.mem_insertEntry_of_mem (k := attr) (a := v) he with he | hlookup
      · refine .inr ⟨_, by rw [hobj]; rfl, e.2, List.mem_map_of_mem he, r, hr, rfl⟩
      · -- The value that is replaced is the one that work in progress holds the references of.
        have hold : net.store.at? (o.id, attr) = some e.2 := by
          rw [← Store.get?_eq_at?]
          unfold Store.get? Store.attrs
          rw [hj, hobj]
          exact hlookup
        rw [h.rest _ hout] at hold
        rcases hdiffers with ⟨hget, -⟩ | ⟨hget, -⟩
        · cases hold.symm.trans hget
          exact .inl (hheld r hr)
        · cases hold.symm.trans hget
    · exact .inr ⟨obj, hobj, hrefers⟩


/-- One observer of a changed attribute is told, if whatever it passes the value on to takes it. -/
theorem Basin.react_floods (hC : base.Basin C v held) (h : base.Flooded v held D net) (hD : D ⊆ C)
    {o : Observer} (ho : o ∈ base.observers) {change : Change} {n : Nat}
    (hslot : o.slot = (change.object.id, change.attr)) (hin : o.slot ∈ D) (hnew : change.new = v)
    (hassign : ∀ (p : ObjectRef) (attr : String), (p.id, attr) ∈ C → ∃ b net' D',
      assign n p attr v net = some (.ok b, net') ∧ base.Floods C v held [] D net D' net' ∧
        (p.id, attr) ∈ D') :
    ∃ net' D', react (n + 1) change o.handler net = some ((), net') ∧
      base.Floods C v held [o] D net D' net' := by
  have hrefl := Floods.refl h hD
  rcases hC.leads o ho (hD hin) with ⟨id, hwatch⟩ | ⟨p, attr, hpass, hmem⟩
  · rw [hwatch]
    refine ⟨_, D, react_of_watches id, { hrefl with
      flooded := { h with same := by rw [h.same]; rfl }
      led := fun o' ho' => .inl ⟨id, List.mem_singleton.1 ho' ▸ hwatch⟩
      sightings := fun id' s => ?_ }⟩
    have htells : Event.tells id' s (.changed id change)
        = (decide (o.slot = s) && o.handler.watches id') := by
      rw [hslot, hwatch, Bool.and_comm]
      rfl
    rw [sightings_happened, htells, List.countP_singleton]
    simp
  · have hunseen (id : String) : o.handler.watches id = false := by
      cases hhandler : o.handler with
      | host => rw [hhandler] at hpass; cases hpass
      | _ => rfl
    have htold {net' : Network} {D' : Finset Slot} (h' : base.Floods C v held [] D net D' net')
        (hin : base.store.isAlive p.id = true → (p.id, attr) ∈ D') :
        base.Floods C v held [o] D net D' net' := { h' with
      led := fun o' ho' => List.mem_singleton.1 ho' ▸ .inr ⟨p, attr, hpass, hin⟩
      sightings := fun id s => by
        rw [h'.sightings, List.countP_singleton, hunseen, Bool.and_false]
        rfl }
    by_cases halive : base.store.isAlive p.id = true
    · obtain ⟨b, net', D', hrun, hfloods, hp⟩ := hassign p attr (hmem halive)
      exact ⟨net', D', react_of_passes hpass ((h.alive p.id).trans halive) (hnew ▸ hrun),
        htold hfloods fun _ => hp⟩
    · exact ⟨net, D, react_of_dead hpass (h.alive p.id ▸ halive),
        htold hrefl fun h => absurd h halive⟩

/-- With the budget, and so many attributes left at most, every assignment floods. -/
def Reaches (base : Network) (C : Finset Slot) (v : Value) (held : List Nat) (k n : Nat) : Prop :=
  ∀ {net : Network} {D : Finset Slot}, base.Flooded v held D net → D ⊆ C → held ⊆ net.busy →
    (C \ D).card ≤ k → ∀ (p : ObjectRef) (attr : String), (p.id, attr) ∈ C →
    ∃ b net' D', assign n p attr v net = some (.ok b, net') ∧
      base.Floods C v held [] D net D' net' ∧ (p.id, attr) ∈ D'

/-- The observers of a changed attribute are told one after the other. -/
theorem Basin.forM_floods (hC : base.Basin C v held) (change : Change) {n k : Nat}
    (hslot : (change.object.id, change.attr) ∈ D) (hnew : change.new = v) {l : List Observer}
    (hl : ∀ o ∈ l, o ∈ base.observers ∧ o.slot = (change.object.id, change.attr))
    (hreaches : base.Reaches C v held k n)
    (h : base.Flooded v held D net) (hD : D ⊆ C) (hheld : held ⊆ net.busy)
    (hk : (C \ D).card ≤ k) :
    ∃ net' D', (l.forM fun o => react (n + 1) change o.handler) net = some ((), net') ∧
      base.Floods C v held l D net D' net' := by
  induction l generalizing net D with
  | nil => exact ⟨net, D, rfl, .refl h hD⟩
  | cons o rest ih =>
    have ⟨ho, hoslot⟩ := hl o (List.mem_cons_self ..)
    obtain ⟨net₁, D₁, hreact, h₁⟩ := hC.react_floods h hD ho hoslot (hoslot ▸ hslot) hnew
      (hreaches h hD hheld hk)
    obtain ⟨net₂, D₂, hrest, h₂⟩ := ih (h₁.grows hslot)
      (fun o ho => hl o (List.mem_cons_of_mem _ ho)) h₁.flooded h₁.within (h₁.busy ▸ hheld)
      ((Finset.card_le_card (Finset.sdiff_subset_sdiff subset_rfl h₁.grows)).trans hk)
    exact ⟨net₂, D₂, bind_eq_some.2 ⟨(), net₁, hreact, hrest⟩, h₁.trans h₂⟩

/-- An attribute changes, and all that follows has happened but that work in progress lets go of
what it held. -/
theorem Basin.change_floods (hC : base.Basin C v held) {o : ObjectRef} {attr : String} {n k : Nat}
    (hs : (o.id, attr) ∈ C) (hout : (o.id, attr) ∉ D)
    (hreaches : base.Reaches C v held k n)
    (h : base.Flooded v held D net) (hD : D ⊆ C) {old : Value}
    (hdiffers : base.store.Differs (o.id, attr) old v)
    (hold : ∀ p ∈ old.references, p.id ∈ held)
    (hheld : held ⊆ Change.references ⟨o, attr, old, v⟩ ++ net.busy)
    (hk : (C \ D).card ≤ k + 1) :
    ∃ net' D', assign (n + 3) o attr v net = some (.ok true, net'.letGo net.busy) ∧
      base.Floods C v held [] D (net.hold (Change.references ⟨o, attr, old, v⟩)) D' net' ∧
      (o.id, attr) ∈ D' := by
  have hstore : net.store.assign o attr v = .ok (.changed (net.store.put o attr v) old) := by
    refine Store.assign_eq_changed ((h.alive o.id).trans (hC.alive _ hs)) ?_ ?_
    · rw [h.shape]
      exact hC.accepts _ hs
    · unfold Store.Differs at hdiffers ⊢
      rwa [h.rest _ hout, h.shape]
  have hput := (hC.put h hs hout hdiffers hold).hold (Change.references ⟨o, attr, old, v⟩)
  have hinsert : insert (o.id, attr) D ⊆ C := Finset.insert_subset hs hD
  have hk' : (C \ insert (o.id, attr) D).card ≤ k := by
    rw [Finset.sdiff_insert, Finset.card_erase_of_mem (Finset.mem_sdiff.2 ⟨hs, hout⟩)]
    omega
  obtain ⟨net', D', hrun, h'⟩ := hC.forM_floods ⟨o, attr, old, v⟩
    (l := net.observersOf o.id attr) (Finset.mem_insert_self ..) rfl
    (fun o' ho' => by
      rw [h.observersOf] at ho'
      exact mem_observersOf_iff.1 ho') hreaches hput hinsert hheld hk'
  have hmem : (o.id, attr) ∈ D' := h'.grows (Finset.mem_insert_self ..)
  refine ⟨net', D', assign_of_changed hstore (announce_of_forM hrun), ?_, hmem⟩
  exact {
    flooded := h'.flooded
    grows := (Finset.subset_insert ..).trans h'.grows
    within := h'.within
    busy := h'.busy
    led := nofun
    closed := fun o' ho' hin hnot => by
      -- The observers of the attribute itself have been told; those of others are known.
      rcases eq_or_ne o'.slot (o.id, attr) with heq | hne
      · refine h'.led o' ?_
        rw [h.observersOf]
        exact mem_observersOf_iff.2 ⟨ho', heq⟩
      · refine h'.closed o' ho' hin fun hmem => ?_
        exact (Finset.mem_insert.1 hmem).elim hne hnot
    sightings := fun id s => by
      rw [h'.sightings, h.observersOf, countP_watches]
      change net.sightings id s + _ + _ = net.sightings id s + _ + 0
      by_cases heq : s = (o.id, attr)
      · subst heq
        simp [hmem, hout]
      · simp [heq, Finset.mem_insert] }

/-- An attribute that has the value stops it. -/
theorem Basin.stops (hC : base.Basin C v held) (h : base.Flooded v held D net) (hD : D ⊆ C)
    {p : ObjectRef} {attr : String} (hin : (p.id, attr) ∈ D) {n : Nat} (hn : 0 < n) :
    ∃ b net' D', assign n p attr v net = some (.ok b, net') ∧
      base.Floods C v held [] D net D' net' ∧ (p.id, attr) ∈ D' := by
  obtain ⟨n, rfl⟩ := Nat.exists_eq_add_of_lt hn
  refine ⟨false, net, D, assign_of_unchanged ?_, .refl h hD, hin⟩
  refine Store.assign_eq_unchanged ?_ ((Store.get?_eq_at? ..).trans (h.done _ hin)) hC.self
  rw [h.shape]
  exact hC.accepts _ (hD hin)

/-- An assignment floods whatever is left. The induction is on how much that is: what has changed is
not left any more when it passes the value on. -/
theorem Basin.reaches (hC : base.Basin C v held) {k n : Nat} (hn : 3 * k + 1 ≤ n) :
    base.Reaches C v held k n := by
  induction k generalizing n with
  | zero =>
    intro net D h hD hheld hk p attr hs
    have hempty : C \ D = ∅ := Finset.card_eq_zero.1 (Nat.le_zero.1 hk)
    exact hC.stops h hD (Finset.sdiff_eq_empty_iff_subset.1 hempty hs) hn
  | succ k ih =>
    intro net D h hD hheld hk p attr hs
    rcases Decidable.em ((p.id, attr) ∈ D) with hin | hout
    · exact hC.stops h hD hin (Nat.lt_of_lt_of_le (Nat.succ_pos _) hn)
    obtain ⟨n, rfl⟩ := Nat.exists_eq_add_of_le' (show 3 ≤ n by omega)
    obtain ⟨old, hdiffers, hold⟩ := hC.differs _ hs
    obtain ⟨net', D', hrun, h', hmem⟩ := hC.change_floods hs hout
      (ih (show 3 * k + 1 ≤ n by omega)) h hD hdiffers hold
      (List.subset_append_of_subset_right _ hheld) hk
    -- Work in progress holds what the old values refer to, so nothing goes with this change.
    have hletGo : net'.letGo net.busy = { net' with busy := net.busy } :=
      (h'.flooded.rests.of_busy hheld).sweep_eq
    refine ⟨true, _, D', hrun, ?_, hmem⟩
    rw [hletGo]
    exact { h' with
      flooded := { h'.flooded with same := by rw [h'.flooded.same] }
      busy := rfl }

end Network

end ReactiveView
