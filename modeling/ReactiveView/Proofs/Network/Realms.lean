import ReactiveView.Proofs.Expr.Pairing
import ReactiveView.Proofs.Network.Coupling
import ReactiveView.Proofs.Network.Recoding
import ReactiveView.Proofs.Table.Ascending
import Mathlib

/-!
This module contains realms. A realm is what belongs to one party of a network: objects, bindings and
subscriptions, and everything that is yet to be made. A party that keeps to its realm changes nothing
outside of it, as long as what is in the realm refers to nothing outside of it but objects that nobody
can change.
-/

namespace ReactiveView

/-- An attribute of the object refers to another object. -/
def Obj.Refers (obj : Obj) (i : Nat) : Prop := ∃ v ∈ obj.attrs.values, ∃ o ∈ v.references, o.id = i

/-- The binding refers to an object. -/
def Link.Refers (lk : Link) (i : Nat) : Prop := ∃ o ∈ lk.references, o.id = i

/-- The host refers to an object. -/
def Desk.Refers (desk : Desk) (i : Nat) : Prop :=
  (∃ o ∈ desk.objects.values, o.id = i) ∨ (∃ w ∈ desk.watches.values, w.object.id = i) ∨
    ∃ o ∈ desk.scope.references, o.id = i

/-- Who holds an object. -/
theorem Network.holds_iff {net : Network} {i : Nat} : net.holds i = true ↔
    i ∈ net.owners ∨ net.desk.Refers i ∨ i ∈ net.busy ∨
      (∃ (j : Nat) (obj : Obj), net.store.objects[j]? = some obj ∧ obj.Refers i) ∨
      ∃ k lk, net.link? k = some lk ∧ lk.Refers i := by
  have hstore : (net.store.objects.any fun obj =>
      obj.attrs.values.any fun v => v.references.any (·.id == i)) = true ↔
      ∃ (j : Nat) (obj : Obj), net.store.objects[j]? = some obj ∧ obj.Refers i := by
    rw [Array.any_eq_true]
    constructor
    · rintro ⟨j, hj, hany⟩
      refine ⟨j, _, Array.getElem?_eq_getElem hj, ?_⟩
      simpa [Obj.Refers] using hany
    · rintro ⟨j, obj, hobj, hrefers⟩
      obtain ⟨hj, rfl⟩ := Array.getElem?_eq_some_iff.1 hobj
      exact ⟨j, hj, by simpa [Obj.Refers] using hrefers⟩
  have hlinks : (net.links.any fun slot => slot.any fun link =>
      link.references.any (·.id == i)) = true ↔ ∃ k lk, net.link? k = some lk ∧ lk.Refers i := by
    rw [any_links_eq_true_iff]
    simp [Link.Refers]
  unfold holds
  simp only [Bool.or_eq_true, hstore, hlinks, Desk.Refers]
  simp only [List.contains_iff_mem, List.any_eq_true, beq_iff_eq]
  exact Iff.of_eq (by ac_rfl)

/--
What belongs to one party.
-/
structure Realm where
  /-- Its objects. -/
  objects : Nat → Prop
  /-- Objects that belong to nobody, which everybody may refer to. -/
  shared : Nat → Prop
  /-- Its bindings. -/
  links : Nat → Prop
  /-- Its subscriptions. -/
  observers : Nat → Prop
  /-- Its components. -/
  components : Nat → Prop

namespace Realm

variable (R : Realm)

/-- An object that what is in the realm may refer to. -/
def Within (i : Nat) : Prop := R.objects i ∨ R.shared i

/-- The value refers to nothing else. -/
def Knows (v : Value) : Prop := ∀ o ∈ v.references, R.Within o.id

/-- The scope refers to nothing else. -/
def Sees (scope : Scope) : Prop := ∀ o ∈ scope.references, R.Within o.id

open Classical in
/-- Whether a subscription is in the realm. -/
noncomputable def follows (ob : Observer) : Bool := decide (R.observers ob.id)

/-- The handler does nothing outside of the realm. -/
def Admits : Handler → Prop
  | .refresh k => R.links k
  | .run k => R.links k
  | .writeThrough o _ => R.Within o.id
  | .writeBack o _ => R.Within o.id
  | .hint w => R.components w
  | .host _ actions => actions = []

/-- The binding refers to nothing else. -/
def Binds : LinkBody → Prop
  | .bind _ target _ scope => R.Within target.id ∧ R.Sees scope
  | .delegate => True
  | .notify _ scope => R.Sees scope

/-- The binding is one of the realm, and so are its subscriptions. -/
structure Ties (lk : Link) : Prop where
  body : R.Binds lk.body
  subscriptions : ∀ i ∈ lk.subscriptions, R.observers i

/-- Something in the realm refers to the object. -/
def HeldInside (net : Network) (i : Nat) : Prop :=
  (∃ j obj, R.objects j ∧ net.store.objects[j]? = some obj ∧ obj.Refers i) ∨
    ∃ k lk, R.links k ∧ net.link? k = some lk ∧ lk.Refers i

/-- The host or something else outside of the realm refers to the object. -/
def HeldOutside (net : Network) (i : Nat) : Prop :=
  net.desk.Refers i ∨ (∃ j obj, ¬R.objects j ∧ net.store.objects[j]? = some obj ∧ obj.Refers i) ∨
    ∃ k lk, ¬R.links k ∧ net.link? k = some lk ∧ lk.Refers i

/--
What lies around the realm: nobody changes what is shared, and what is outside is held outside.
-/
structure Borders (net : Network) : Prop where
  apart : ∀ i, R.shared i → ¬R.objects i
  shared : ∀ i, R.shared i → ∃ obj, net.store.objects[i]? = some obj ∧ obj.shape = .frozen ∧
    ∀ v ∈ obj.attrs.values, ∀ o ∈ v.references, R.shared o.id
  held : ∀ i, ¬R.objects i → net.store.isAlive i = true → i ∈ net.owners ∨ R.HeldOutside net i

/--
A network of which only the realm differs from what it was at first.
-/
structure Confines (base net : Network) : Prop where
  borders : R.Borders base
  /-- What is outside is as it was. -/
  objects : ∀ i, ¬R.objects i → net.store.objects[i]? = base.store.objects[i]?
  links : ∀ k, ¬R.links k → net.link? k = base.link? k
  observers : net.observers.filter (fun ob => !R.follows ob)
    = base.observers.filter fun ob => !R.follows ob
  owners : ∀ i, ¬R.objects i → (i ∈ net.owners ↔ i ∈ base.owners)
  desk : net.desk = base.desk
  /-- Bindings and subscriptions that are yet to be made are in the realm. -/
  nextLink : ∀ k, net.links.size ≤ k → R.links k
  nextObserver : ∀ i, net.nextObserver ≤ i → R.observers i
  /-- What is in the realm refers to nothing outside. -/
  known : ∀ i obj, R.objects i → net.store.objects[i]? = some obj →
    ∀ v ∈ obj.attrs.values, R.Knows v
  ties : ∀ k lk, R.links k → net.link? k = some lk → R.Ties lk
  /-- Who observes something in the realm is in it too. -/
  watched : ∀ ob ∈ net.observers, R.objects ob.object → R.observers ob.id
  admitted : ∀ ob ∈ net.observers, R.observers ob.id → R.Within ob.object ∧ R.Admits ob.handler
  busy : ∀ i ∈ net.busy, R.Within i
  signals : ∀ w ∈ net.signals, R.components w

variable {R}

@[simp]
theorem follows_eq_true_iff {ob : Observer} : R.follows ob = true ↔ R.observers ob.id := by
  unfold follows
  exact @decide_eq_true_iff _ (Classical.propDecidable _)

theorem follows_eq_false_iff {ob : Observer} : R.follows ob = false ↔ ¬R.observers ob.id := by
  rw [Bool.eq_false_iff, ne_eq, follows_eq_true_iff]

@[simp]
theorem knows_object {o : ObjectRef} : R.Knows (.object o) ↔ R.Within o.id := by
  simp [Knows, Value.references]

theorem holds_iff {net : Network} {i : Nat} : net.holds i = true ↔
    i ∈ net.owners ∨ i ∈ net.busy ∨ R.HeldInside net i ∨ R.HeldOutside net i := by
  rw [Network.holds_iff]
  unfold HeldInside HeldOutside
  constructor
  · rintro (h | h | h | ⟨j, obj, hobj, href⟩ | ⟨k, lk, hlk, href⟩)
    · exact .inl h
    · exact .inr (.inr (.inr (.inl h)))
    · exact .inr (.inl h)
    · by_cases hj : R.objects j
      · exact .inr (.inr (.inl (.inl ⟨j, obj, hj, hobj, href⟩)))
      · exact .inr (.inr (.inr (.inr (.inl ⟨j, obj, hj, hobj, href⟩))))
    · by_cases hk : R.links k
      · exact .inr (.inr (.inl (.inr ⟨k, lk, hk, hlk, href⟩)))
      · exact .inr (.inr (.inr (.inr (.inr ⟨k, lk, hk, hlk, href⟩))))
  · rintro (h | h | (⟨j, obj, -, h⟩ | ⟨k, lk, -, h⟩) | h | ⟨j, obj, -, h⟩ | ⟨k, lk, -, h⟩)
    · exact .inl h
    · exact .inr (.inr (.inl h))
    · exact .inr (.inr (.inr (.inl ⟨j, obj, h⟩)))
    · exact .inr (.inr (.inr (.inr ⟨k, lk, h⟩)))
    · exact .inr (.inl h)
    · exact .inr (.inr (.inr (.inl ⟨j, obj, h⟩)))
    · exact .inr (.inr (.inr (.inr ⟨k, lk, h⟩)))

namespace Confines

variable {base net net' : Network} {i k : Nat}

theorem heldOutside_iff (h : R.Confines base net) :
    R.HeldOutside net i ↔ R.HeldOutside base i := by
  unfold HeldOutside
  rw [h.desk]
  refine or_congr Iff.rfl (or_congr ?_ ?_)
  · exact exists₂_congr fun j obj => and_congr_right fun hj => by rw [h.objects j hj]
  · exact exists₂_congr fun k lk => and_congr_right fun hk => by rw [h.links k hk]

/-- What is outside and alive is held. -/
theorem holds (h : R.Confines base net) (hi : ¬R.objects i) (halive : net.store.isAlive i = true) :
    net.holds i = true := by
  have hbase : base.store.isAlive i = true := by
    unfold Store.isAlive at halive ⊢
    rwa [h.objects i hi] at halive
  rcases h.borders.held i hi hbase with howned | hheld
  · exact (holds_iff (R := R)).2 (.inl ((h.owners i hi).2 howned))
  · exact holds_iff.2 (.inr (.inr (.inr (h.heldOutside_iff.2 hheld))))

theorem objects_of_mem_unheld (h : R.Confines base net) (hi : i ∈ net.unheld) : R.objects i := by
  by_contra hnot
  have hheld := (List.mem_filter.1 hi).2
  rw [Bool.and_eq_true, Bool.not_eq_true'] at hheld
  rw [h.holds hnot hheld.1] at hheld
  cases hheld.2

/-- What is shared is there and cannot be assigned to. -/
theorem shared (h : R.Confines base net) (hi : R.shared i) :
    ∃ obj, net.store.objects[i]? = some obj ∧ obj.shape = .frozen ∧
      ∀ v ∈ obj.attrs.values, R.Knows v := by
  obtain ⟨obj, hobj, hfrozen, hvalues⟩ := h.borders.shared i hi
  exact ⟨obj, (h.objects i (h.borders.apart i hi)).trans hobj, hfrozen,
    fun v hv o ho => .inr (hvalues v hv o ho)⟩

/-- What objects refer to that the realm may refer to is again of that kind. -/
theorem knows (h : R.Confines base net) (hi : R.Within i) {obj : Obj}
    (hobj : net.store.objects[i]? = some obj) {v : Value} (hv : v ∈ obj.attrs.values) :
    R.Knows v := by
  rcases hi with hi | hi
  · exact h.known i obj hi hobj v hv
  · obtain ⟨obj', hobj', -, hvalues⟩ := h.shared hi
    cases hobj.symm.trans hobj'
    exact hvalues v hv

/-! ### Steps -/

/-- What is not part of a realm may change. -/
theorem same (h : R.Confines base net) (hstore : net'.store = net.store)
    (hlinks : net'.links = net.links) (hobservers : net'.observers = net.observers)
    (howners : net'.owners = net.owners) (hdesk : net'.desk = net.desk)
    (hnext : net'.nextObserver = net.nextObserver) (hbusy : ∀ i ∈ net'.busy, R.Within i)
    (hsignals : ∀ w ∈ net'.signals, R.components w) : R.Confines base net' := by
  have hlink : net'.link? = net.link? := by
    unfold Network.link?
    rw [hlinks]
  constructor
  · exact h.borders
  · rw [hstore]
    exact h.objects
  · rw [hlink]
    exact h.links
  · rw [hobservers]
    exact h.observers
  · rw [howners]
    exact h.owners
  · rw [hdesk]
    exact h.desk
  · rw [hlinks]
    exact h.nextLink
  · rw [hnext]
    exact h.nextObserver
  · rw [hstore]
    exact h.known
  · rw [hlink]
    exact h.ties
  · rw [hobservers]
    exact h.watched
  · rw [hobservers]
    exact h.admitted
  · exact hbusy
  · exact hsignals

theorem hold (h : R.Confines base net) {is : List Nat} (his : ∀ i ∈ is, R.Within i) :
    R.Confines base (net.hold is) :=
  h.same rfl rfl rfl rfl rfl rfl (List.forall_mem_append.2 ⟨his, h.busy⟩) h.signals

theorem signal (h : R.Confines base net) {w : Nat} (hw : R.components w) :
    R.Confines base { net with signals := net.signals ++ [w] } :=
  h.same rfl rfl rfl rfl rfl rfl h.busy
    (List.forall_mem_append.2 ⟨h.signals, by simpa using hw⟩)

theorem evaluated (h : R.Confines base net) (scope : Scope) (e : Expr) :
    R.Confines base (net.evaluated scope e) :=
  h.same rfl rfl rfl rfl rfl rfl h.busy h.signals

/-- Objects of the realm may change, if they refer to nothing outside. -/
theorem stored (h : R.Confines base net) {store : Store}
    (hobjects : ∀ i, ¬R.objects i → store.objects[i]? = net.store.objects[i]?)
    (hknown : ∀ i obj, R.objects i → store.objects[i]? = some obj →
      ∀ v ∈ obj.attrs.values, R.Knows v) : R.Confines base { net with store } where
  borders := h.borders
  objects i hi := (hobjects i hi).trans (h.objects i hi)
  links := h.links
  observers := h.observers
  owners := h.owners
  desk := h.desk
  nextLink := h.nextLink
  nextObserver := h.nextObserver
  known := hknown
  ties := h.ties
  watched := h.watched
  admitted := h.admitted
  busy := h.busy
  signals := h.signals

theorem put (h : R.Confines base net) {o : ObjectRef} (ho : R.objects o.id) (attr : String)
    {v : Value} (hv : R.Knows v) :
    R.Confines base { net with store := net.store.put o attr v } := by
  refine h.stored (fun i hi => ?_) fun i obj hi hobj w hw => ?_
  · rw [Store.objects_put, if_neg fun heq : o.id = i => hi (heq ▸ ho)]
  · rw [Store.objects_put] at hobj
    split at hobj
    · obtain ⟨old, hold, rfl⟩ := Option.map_eq_some_iff.1 hobj
      obtain ⟨e, he, rfl⟩ := List.mem_map.1 hw
      rcases Table.mem_insertEntry he with rfl | he
      · exact hv
      · exact h.known i old hi hold _ (List.mem_map_of_mem he)
    · exact h.known i obj hi hobj w hw

/-- Subscriptions of the realm may end. -/
theorem unfollow (h : R.Confines base net) {p : Observer → Bool}
    (hp : ∀ ob ∈ net.observers, ¬R.observers ob.id → p ob = true) :
    R.Confines base { net with observers := net.observers.filter p } where
  borders := h.borders
  objects := h.objects
  links := h.links
  observers := by
    refine Eq.trans ?_ h.observers
    dsimp only
    rw [List.filter_filter]
    refine List.filter_congr fun ob hob => ?_
    cases hfollows : R.follows ob with
    | true => rfl
    | false =>
      rw [hp ob hob fun hmine => ?_]
      · rfl
      · rw [follows_eq_true_iff.2 hmine] at hfollows
        cases hfollows
  owners := h.owners
  desk := h.desk
  nextLink := h.nextLink
  nextObserver := h.nextObserver
  known := h.known
  ties := h.ties
  watched ob hob := h.watched ob (List.mem_filter.1 hob).1
  admitted ob hob := h.admitted ob (List.mem_filter.1 hob).1
  busy := h.busy
  signals := h.signals

theorem free (h : R.Confines base net) (hi : R.objects i) : R.Confines base (net.free i) := by
  have hcut := h.unfollow (p := fun ob => ob.object != i) fun ob hob hnot => by
    rw [bne_iff_ne]
    rintro rfl
    exact hnot (h.watched ob hob hi)
  refine hcut.stored (fun j hj => ?_) fun j obj hj hobj v hv => ?_
  · rw [Store.objects_free, if_neg fun heq : i = j => hj (heq ▸ hi)]
  · rw [Store.objects_free] at hobj
    split at hobj
    · obtain ⟨old, -, rfl⟩ := Option.map_eq_some_iff.1 hobj
      cases hv
    · exact h.known j obj hj hobj v hv

/-- A binding of the realm may change. -/
theorem relinked (h : R.Confines base net) (links : Array (Option Link))
    (hlinks : ∀ k, ¬R.links k → (net.relinked links).link? k = net.link? k)
    (hsize : net.links.size ≤ links.size)
    (hties : ∀ k lk, R.links k → (net.relinked links).link? k = some lk → R.Ties lk) :
    R.Confines base (net.relinked links) where
  borders := h.borders
  objects := h.objects
  links k hk := (hlinks k hk).trans (h.links k hk)
  observers := h.observers
  owners := h.owners
  desk := h.desk
  nextLink k hk := h.nextLink k (hsize.trans hk)
  nextObserver := h.nextObserver
  known := h.known
  ties := hties
  watched := h.watched
  admitted := h.admitted
  busy := h.busy
  signals := h.signals

theorem modifyLink (h : R.Confines base net) (hk : R.links k) {f : Link → Link}
    (hf : ∀ lk, R.Ties lk → R.Ties (f lk)) : R.Confines base (net.modifyLink k f) := by
  refine h.relinked (net.links.modify k (Option.map f)) (fun j hj => ?_)
    Array.size_modify.ge fun j lk hj hlk => ?_
  · exact (Network.link?_modifyLink net k f j).trans (if_neg fun heq : k = j => hj (heq ▸ hk))
  · have hlk := (Network.link?_modifyLink net k f j).symm.trans hlk
    split at hlk
    · obtain ⟨old, hold, rfl⟩ := Option.map_eq_some_iff.1 hlk
      exact hf old (h.ties j old hj hold)
    · exact h.ties j lk hj hlk

theorem withoutLink (h : R.Confines base net) (hk : R.links k) :
    R.Confines base (net.withoutLink k) := by
  refine h.relinked (net.links.modify k fun _ => none) (fun j hj => ?_)
    Array.size_modify.ge fun j lk hj hlk => ?_
  · exact (Network.link?_withoutLink net k j).trans (if_neg fun heq : k = j => hj (heq ▸ hk))
  · have hlk := (Network.link?_withoutLink net k j).symm.trans hlk
    split at hlk
    · cases hlk
    · exact h.ties j lk hj hlk

theorem addLink (h : R.Confines base net) (lk : Link) (hlk : R.Ties lk) :
    R.Confines base (net.addLink lk).2 := by
  refine h.relinked (net.links.push (some lk)) (fun j hj => ?_)
    ((Nat.le_succ _).trans_eq (Array.size_push _).symm) fun j lk' hj hlk' => ?_
  · refine (Network.link?_addLink net lk j).trans (if_neg ?_)
    rintro rfl
    exact hj (h.nextLink _ le_rfl)
  · have hlk' := (Network.link?_addLink net lk j).symm.trans hlk'
    split at hlk'
    · cases hlk'
      exact hlk
    · exact h.ties j lk' hj hlk'

theorem disconnect (h : R.Confines base net) (hk : R.links k) :
    R.Confines base (net.disconnect k) := by
  cases hlk : net.link? k with
  | none => rwa [Network.disconnect_of_none hlk]
  | some lk =>
    rw [Network.disconnect_of_some hlk]
    have hcut := h.unfollow (p := fun ob => !lk.subscriptions.contains ob.id) fun ob _ hnot => by
      rw [Bool.not_eq_true', ← Bool.not_eq_true, List.contains_iff_mem]
      exact fun hmem => hnot ((h.ties k lk hk hlk).subscriptions _ hmem)
    exact hcut.modifyLink hk (f := fun l => { l with subscriptions := [] }) fun lk hlk =>
      ⟨hlk.body, List.forall_mem_nil _⟩

theorem subscribe (h : R.Confines base net) {object : Nat} (hobject : R.Within object)
    (attr : String) (handler : Handler) (hhandler : R.Admits handler) :
    R.Confines base (net.subscribe object attr handler).2 where
  borders := h.borders
  objects := h.objects
  links := h.links
  observers := by
    have hmine : R.follows ⟨net.nextObserver, object, attr, handler⟩ = true :=
      follows_eq_true_iff.2 (h.nextObserver _ le_rfl)
    unfold Network.subscribe
    dsimp only
    rw [List.filter_append, List.filter_cons_of_neg (by simp [hmine]), List.filter_nil,
      List.append_nil]
    exact h.observers
  owners := h.owners
  desk := h.desk
  nextLink := h.nextLink
  nextObserver i hi := h.nextObserver i (Nat.le_of_succ_le hi)
  known := h.known
  ties := h.ties
  watched ob hob hmine := by
    rcases List.mem_append.1 hob with hob | hob
    · exact h.watched ob hob hmine
    · rw [List.mem_singleton.1 hob]
      exact h.nextObserver _ le_rfl
  admitted ob hob hmine := by
    rcases List.mem_append.1 hob with hob | hob
    · exact h.admitted ob hob hmine
    · rw [List.mem_singleton.1 hob]
      exact ⟨hobject, hhandler⟩
  busy := h.busy
  signals := h.signals

theorem subscribeAll (h : R.Confines base net) (handler : Handler) (hhandler : R.Admits handler)
    {ds : List Dependency} (hds : ∀ d ∈ ds, R.Within d.object.id) :
    R.Confines base (net.subscribeAll handler ds).2 ∧
      ∀ i ∈ (net.subscribeAll handler ds).1, R.observers i := by
  induction ds generalizing net with
  | nil => exact ⟨h, List.forall_mem_nil _⟩
  | cons d rest ih =>
    rw [List.forall_mem_cons] at hds
    obtain ⟨hrest, hids⟩ := ih (h.subscribe hds.1 d.attr handler hhandler) hds.2
    exact ⟨hrest, List.forall_mem_cons.2 ⟨h.nextObserver _ le_rfl, hids⟩⟩

theorem bound (h : R.Confines base net) (e : Expr) {o : ObjectRef} (ho : R.Within o.id)
    (attr : String) {scope : Scope} (hscope : R.Sees scope) :
    R.Confines base (net.bound e o attr scope) :=
  h.addLink _ ⟨⟨ho, hscope⟩, List.forall_mem_nil _⟩

theorem delegated (h : R.Confines base net) {o source : ObjectRef} (ho : R.Within o.id)
    (hsource : R.Within source.id) (attr name : String) :
    R.Confines base (net.delegated o attr source name) := by
  have hthrough := h.subscribe ho attr (.writeThrough source name) hsource
  have hback := hthrough.subscribe hsource name (.writeBack o attr) ho
  refine hback.addLink _ ⟨trivial, ?_⟩
  rw [List.forall_mem_cons, List.forall_mem_singleton]
  exact ⟨h.nextObserver _ le_rfl, hthrough.nextObserver _ le_rfl⟩

theorem notified (h : R.Confines base net) (statements : List Statement) {scope : Scope}
    (hscope : R.Sees scope) {o : ObjectRef} (ho : R.Within o.id) (attr : String) :
    R.Confines base (net.notified statements scope o attr) := by
  have hlink : R.links net.links.size := h.nextLink _ le_rfl
  have hadded := h.addLink { body := .notify statements scope, owned := true }
    ⟨hscope, List.forall_mem_nil _⟩
  have hsub := hadded.subscribe ho attr (.run net.links.size) hlink
  exact hsub.modifyLink hlink fun lk hlk =>
    ⟨hlk.body, List.forall_mem_singleton.2 (h.nextObserver _ le_rfl)⟩

end Confines

end Realm

end ReactiveView
