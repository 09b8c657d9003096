import ReactiveView.Proofs.Component.Locality
import ReactiveView.Proofs.Component.Parties
import ReactiveView.Proofs.Document.Nodes
import ReactiveView.Proofs.View.Keeping
import ReactiveView.Proofs.View.Quiet
import Mathlib

/-!
This module contains that a view comes to the same in two scenes that are the same in a realm, if its
code sees nothing else and the realm has room for all that is made: the same component tree with the
same identifiers, or the same error.
-/

namespace ReactiveView

/-- A network with one more object of a class, which a widget refers to. -/
def Network.housed (net : Network) (cls : WidgetClass) : Network :=
  { net with
    store := (cls.newObject net.store).2
    owners := net.store.objects.size :: net.owners }

theorem Network.Rests.housed {net : Network} (h : net.Rests) (cls : WidgetClass) :
    (net.housed cls).Rests := by
  intro i hi
  rw [holds_iff]
  rcases Nat.lt_trichotomy i net.store.objects.size with hlt | rfl | hgt
  · have hold {j : Nat} (hj : j < net.store.objects.size) :
        (net.housed cls).store.objects[j]? = net.store.objects[j]? :=
      Array.getElem?_push.trans (if_neg hj.ne)
    have halive : net.store.isAlive i = true := by
      unfold Store.isAlive at hi ⊢
      rwa [hold hlt] at hi
    rcases holds_iff.1 (h i halive) with hi | hi | hi | ⟨j, obj, hobj, hi⟩ | hi
    · exact .inl (List.mem_cons_of_mem _ hi)
    · exact .inr (.inl hi)
    · exact .inr (.inr (.inl hi))
    · have hj := (Array.getElem?_eq_some_iff.1 hobj).1
      exact .inr (.inr (.inr (.inl ⟨j, obj, (hold hj).trans hobj, hi⟩)))
    · exact .inr (.inr (.inr (.inr hi)))
  · exact .inl (List.mem_cons_self ..)
  · have hsize : (net.housed cls).store.objects.size = net.store.objects.size + 1 := Array.size_push _
    have hlt := Store.lt_size_of_isAlive hi
    omega

namespace Blueprint

/-- The defaults of its classes refer to nothing but what is shared. -/
def Shares (shared : Nat → Prop) (b : Blueprint) : Prop :=
  ∀ node ∈ b.realized, ∀ entry ∈ node.widgetClass.attributes, ∀ o ∈ entry.2.references, shared o.id

theorem shares_mk {shared : Nat → Prop} {widgetClass : WidgetClass} {identifier : Option String}
    {children notes : List Blueprint} {assignments notifiers : List (String × Binding)}
    (h : ({ widgetClass, identifier, children, notes, assignments, notifiers } :
      Blueprint).Shares shared) :
    (∀ entry ∈ widgetClass.attributes, ∀ o ∈ entry.2.references, shared o.id) ∧
      (∀ note ∈ notes, ∀ entry ∈ note.widgetClass.attributes, ∀ o ∈ entry.2.references,
        shared o.id) ∧ ∀ b ∈ children, b.Shares shared := by
  unfold Shares at h
  rw [realized, List.forall_mem_cons, List.forall_mem_append] at h
  refine ⟨h.1, h.2.1, fun b hb node hnode => h.2.2 node ?_⟩
  clear h
  induction children with
  | nil => cases hb
  | cons first rest ih =>
    rw [realizedAll, List.mem_append]
    rcases List.mem_cons.1 hb with rfl | hb
    · exact .inl hnode
    · exact .inr (ih hb)

end Blueprint

namespace Realm

open Scene Network

variable {R : Realm} {α : Type} {base base' s t u : Scene α} {c p : Nat}

/-! ### New objects -/

section

variable {first first' a b net : Network}

theorem Confines.housed (h : R.Confines first net) (hnew : R.objects net.store.objects.size)
    {cls : WidgetClass} (hcls : ∀ entry ∈ cls.attributes, R.Knows entry.2) :
    R.Confines first (net.housed cls) where
  borders := h.borders
  objects i hi := by
    refine Array.getElem?_push.trans ((if_neg ?_).trans (h.objects i hi))
    exact fun heq => hi (heq ▸ hnew)
  links := h.links
  observers := h.observers
  owners i hi := by
    refine (List.mem_cons.trans (or_iff_right ?_)).trans (h.owners i hi)
    exact fun heq => hi (heq ▸ hnew)
  desk := h.desk
  nextLink := h.nextLink
  nextObserver := h.nextObserver
  known i obj hi hobj v hv := by
    have hobj := Array.getElem?_push.symm.trans hobj
    split at hobj
    · cases hobj
      exact knows_of_mem_ofList hcls v hv
    · exact h.known i obj hi hobj v hv
  ties := h.ties
  watched := h.watched
  admitted := h.admitted
  busy := h.busy
  signals := h.signals

theorem Same.housed (h : R.Same a b) (cls : WidgetClass) : R.Same (a.housed cls) (b.housed cls) :=
  { h with
    objects := fun i hi => by
      refine Array.getElem?_push.trans (Eq.trans ?_ Array.getElem?_push.symm)
      rw [h.objects i hi, h.objectCount]
    objectCount :=
      (Array.size_push _).trans ((congrArg (· + 1) h.objectCount).trans (Array.size_push _).symm)
    owners := fun i hi => by
      refine List.mem_cons.trans (Iff.trans ?_ List.mem_cons.symm)
      rw [h.objectCount, h.owners i hi] }

theorem Nets.housed (h : R.Nets first first' a b) (hnew : R.objects a.store.objects.size)
    {cls : WidgetClass} (hcls : ∀ entry ∈ cls.attributes, R.Knows entry.2) :
    R.Nets first first' (a.housed cls) (b.housed cls) :=
  ⟨h.left.housed hnew hcls, h.right.housed (h.same.objectCount ▸ hnew) hcls, h.same.housed cls, h.held⟩

/-- A component follows its own attributes. -/
theorem Nets.watch (h : R.Nets first first' a b) {o : ObjectRef} (ho : R.Within o.id)
    (hc : R.components c) (attrs : List String) :
    (Scene.watch b o c attrs).1 = (Scene.watch a o c attrs).1 ∧
      R.Nets first first' (Scene.watch a o c attrs).2 (Scene.watch b o c attrs).2 := by
  induction attrs generalizing a b with
  | nil => exact ⟨rfl, h⟩
  | cons attr rest ih =>
    have hfirst : R.Nets first first' (a.subscribe o.id attr (.hint c)).2
        (b.subscribe o.id attr (.hint c)).2 :=
      ⟨h.left.subscribe ho attr (.hint c) hc, h.right.subscribe ho attr (.hint c) hc,
        h.same.subscribe o.id attr (.hint c), h.held⟩
    obtain ⟨hids, hrest⟩ := ih hfirst
    exact ⟨congrArg₂ List.cons h.same.nextObserver hids, hrest⟩

end

theorem calms_watch (net : Network) (o : ObjectRef) (c : Nat) (attrs : List String) :
    net.Calms (Scene.watch net o c attrs).2 := by
  induction attrs generalizing net with
  | nil => exact .refl net
  | cons attr rest ih => exact (calms_subscribe o.id attr (.hint c)).trans (ih _)

theorem signals_watch (net : Network) (o : ObjectRef) (c : Nat) (attrs : List String) :
    (Scene.watch net o c attrs).2.signals = net.signals := by
  induction attrs generalizing net with
  | nil => rfl
  | cons attr rest ih => exact ih _

theorem still_housed {net : Network} (h : net.Still) (cls : WidgetClass) (o : ObjectRef) (c : Nat)
    (attrs : List String) : (Scene.watch (net.housed cls) o c attrs).2.Still where
  busy := (calms_watch ..).busy.trans h.busy
  signals := (signals_watch ..).trans h.signals
  rests := (calms_watch ..).rests (h.rests.housed cls)

/-! ### New components -/

theorem Encloses.added (h : R.Encloses base s) {network : Network}
    (hnetwork : R.Confines base.network network) (hstill : network.Still) {comp : Component α}
    (hnew : R.components s.components.size) (hcomp : R.Owns comp) (nextVariable : Nat) :
    R.Encloses base { s with
      network, components := s.components.push (some comp), nextVariable } where
  network := hnetwork
  still := hstill
  components c hc := by
    refine Eq.trans ?_ (h.components c hc)
    unfold component?
    rw [Array.getElem?_push, if_neg fun heq : c = s.components.size => hc (heq ▸ hnew)]
  tasks := h.tasks
  owns c a hc ha := by
    unfold component? at ha
    rw [Array.getElem?_push] at ha
    split at ha
    · cases ha
      exact hcomp
    · exact h.owns c a hc ha
  bears := h.bears

theorem Scenes.newComponent [Scalar α] (h : R.Scenes base base' s t)
    (hobject : R.objects s.objectCount) (hnew : R.components s.components.size)
    {cls : WidgetClass} (hcls : ∀ entry ∈ cls.attributes, R.Knows entry.2)
    (identifier : Option String) :
    (t.newComponent cls identifier).1 = (s.newComponent cls identifier).1 ∧
      R.Scenes base base' (s.newComponent cls identifier).2 (t.newComponent cls identifier).2 := by
  have hnets := h.nets.housed hobject hcls
  have ho : (cls.newObject t.network.store).1 = (cls.newObject s.network.store).1 :=
    congrArg (ObjectRef.mk · cls.name) h.same.objectCount
  obtain ⟨hids, hwatched⟩ := hnets.watch (o := (cls.newObject s.network.store).1) (.inl hobject) hnew
    cls.watched
  have howns (watchers : List Nat) (box : Box) : R.Owns ({
      widgetClass := cls, identifier, object := (cls.newObject s.network.store).1, box, watchers,
      size := Size.zero } : Component α) :=
    ⟨hobject, List.forall_mem_nil _, nofun, List.forall_mem_nil _⟩
  have hstill {u base : Scene α} (hu : R.Encloses base u) (o : ObjectRef) (c : Nat) :=
    still_housed hu.still cls o c cls.watched
  refine ⟨h.componentCount, ?_⟩
  have hright : (t.newComponent cls identifier).2 = { t with
      network := (Scene.watch (t.network.housed cls) (cls.newObject s.network.store).1
        s.components.size cls.watched).2
      components := t.components.push (some {
        widgetClass := cls, identifier, object := (cls.newObject s.network.store).1
        box := Box.starting s.nextVariable
        watchers := (Scene.watch (s.network.housed cls) (cls.newObject s.network.store).1
          s.components.size cls.watched).1
        size := Size.zero })
      nextVariable := s.nextVariable + 4 } := by
    rw [← hids, ← ho, ← h.componentCount, ← h.nextVariable]
    rfl
  rw [hright]
  exact {
    left := h.left.added hwatched.left (hstill h.left _ _) hnew (howns _ _) _
    right := h.right.added hwatched.right (hstill h.right _ _) (h.componentCount ▸ hnew) (howns _ _) _
    same := hwatched.same
    held := h.held
    components := fun c hc => by
      unfold Scene.newComponent component?
      dsimp only
      rw [Array.getElem?_push, Array.getElem?_push, h.componentCount]
      split
      · rfl
      · exact h.components c hc
    componentCount :=
      (Array.size_push _).trans ((congrArg (· + 1) h.componentCount).trans (Array.size_push _).symm)
    tasks := h.tasks
    nextVariable := rfl
    nextConstraint := h.nextConstraint
    config := h.config }

theorem Scenes.newNote (h : R.Scenes base base' s t) (hobject : R.objects s.objectCount)
    (hc : R.components c) {cls : WidgetClass} (hcls : ∀ entry ∈ cls.attributes, R.Knows entry.2) :
    (t.newNote c cls).1 = (s.newNote c cls).1 ∧
      R.Scenes base base' (s.newNote c cls).2 (t.newNote c cls).2 := by
  have ho : (cls.newObject t.network.store).1 = (cls.newObject s.network.store).1 :=
    congrArg (ObjectRef.mk · cls.name) h.same.objectCount
  have hstill {u base : Scene α} (hu : R.Encloses base u) : (u.network.housed cls).Still :=
    ⟨hu.still.busy, hu.still.signals, hu.still.rests.housed cls⟩
  have hmade := h.renet (h.nets.housed hobject hcls) (hstill h.left) (hstill h.right)
  refine ⟨ho, ?_⟩
  have hnoted := hmade.update hc (f := fun comp =>
    { comp with notes := comp.notes ++ [(cls.newObject s.network.store).1] }) fun a ha =>
      { ha with notes := List.forall_mem_append.2 ⟨ha.notes, List.forall_mem_singleton.2 hobject⟩ }
  have hright : (t.newNote c cls).2 = ({ t with network := t.network.housed cls } : Scene α).update c
      fun comp => { comp with notes := comp.notes ++ [(cls.newObject s.network.store).1] } := by
    rw [← ho]
    rfl
  rw [hright]
  exact hnoted

/-! ### Building -/

/-- The numbers given out between two scenes are those of the realm. -/
structure Room (R : Realm) (s u : Scene α) : Prop where
  objects : ∀ i, s.objectCount ≤ i → i < u.objectCount → R.objects i
  components : ∀ c, s.components.size ≤ c → c < u.components.size → R.components c

/-- There are at least as many objects and components as before. -/
structure Ampler (s u : Scene α) : Prop where
  objects : s.objectCount ≤ u.objectCount
  components : s.components.size ≤ u.components.size

theorem Ampler.refl (s : Scene α) : Ampler s s := ⟨le_rfl, le_rfl⟩

theorem Ampler.trans (h : Ampler s t) (h' : Ampler t u) : Ampler s u :=
  ⟨h.objects.trans h'.objects, h.components.trans h'.components⟩

theorem Room.left (h : R.Room s u) (hu : Ampler t u) : R.Room s t :=
  ⟨fun i hi hlt => h.objects i hi (hlt.trans_le hu.objects),
    fun c hc hlt => h.components c hc (hlt.trans_le hu.components)⟩

theorem Room.right (h : R.Room s u) (hs : Ampler s t) : R.Room t u :=
  ⟨fun i hi => h.objects i (hs.objects.trans hi),
    fun c hc => h.components c (hs.components.trans hc)⟩

theorem ampler_newNote (c : Nat) (cls : WidgetClass) : Ampler s (s.newNote c cls).2 :=
  ⟨(Nat.le_succ _).trans_eq (Array.size_push _).symm, Array.size_modify.ge⟩

theorem ampler_buildNotes (c : Nat) (notes : List Blueprint) (identifiers : Namespace)
    (s : Scene α) : Ampler s (buildNotes c notes identifiers s).2 := by
  induction notes generalizing identifiers s with
  | nil => exact .refl s
  | cons note rest ih => exact (ampler_newNote c note.widgetClass).trans (ih _ _)

theorem ampler_attach (s : Scene α) (p c : Nat) : Ampler s (s.attach p c) :=
  ⟨le_rfl, (size_attach s p c).ge⟩

section

variable [Scalar α]

theorem ampler_newComponent (s : Scene α) (cls : WidgetClass) (identifier : Option String) :
    Ampler s (s.newComponent cls identifier).2 := by
  obtain ⟨-, -, -, -, hsize, hcount, -⟩ := s.newComponent_spec cls identifier
  exact ⟨(Nat.le_succ _).trans_eq hcount.symm, (Nat.le_succ _).trans_eq hsize.symm⟩

theorem ampler_build (b : Blueprint) (identifiers : Namespace) (s : Scene α) :
    Ampler s (build b identifiers s).2.2 := by
  obtain ⟨-, -, -, hbuilds⟩ := build_spec b identifiers s
  exact ⟨(Nat.le_add_right ..).trans_eq hbuilds.count.symm, hbuilds.le⟩

theorem ampler_buildChildren (p : Nat) (bs : List Blueprint) (identifiers : Namespace)
    (s : Scene α) : Ampler s (buildChildren p bs identifiers s).2 := by
  induction bs generalizing identifiers s with
  | nil => exact .refl s
  | cons b rest ih =>
    exact (ampler_build b identifiers s).trans ((ampler_attach _ p _).trans (ih _ _))

end

/-- Identifiers for what has been made, and the scenes that it was made in. -/
structure Makes (R : Realm) (base base' : Scene α) (x y : Namespace × Scene α) : Prop where
  names : y.1 = x.1
  knows : ∀ v ∈ x.1.values, R.Knows v
  scenes : R.Scenes base base' x.2 y.2

theorem knows_identify {identifiers : Namespace} (h : ∀ v ∈ identifiers.values, R.Knows v)
    (identifier : Option String) {o : ObjectRef} (ho : R.Within o.id) :
    ∀ v ∈ (identify identifiers identifier o).values, R.Knows v := by
  unfold identify
  split
  · intro v hv
    obtain ⟨e, he, rfl⟩ := List.mem_map.1 hv
    rcases Table.mem_insertEntry he with rfl | he
    · exact knows_object.2 ho
    · exact h _ (List.mem_map_of_mem he)
  · exact h

theorem buildNotes_cons (c : Nat) (note : Blueprint) (rest : List Blueprint)
    (identifiers : Namespace) (s : Scene α) : buildNotes c (note :: rest) identifiers s
      = buildNotes c rest (identify identifiers note.identifier (s.newNote c note.widgetClass).1)
        (s.newNote c note.widgetClass).2 := rfl

theorem Scenes.buildNotes (h : R.Scenes base base' s t) (hc : R.components c) {notes : List Blueprint}
    (hnotes : ∀ note ∈ notes, ∀ entry ∈ note.widgetClass.attributes, R.Knows entry.2)
    {identifiers : Namespace} (hidentifiers : ∀ v ∈ identifiers.values, R.Knows v)
    (hroom : R.Room s (Scene.buildNotes c notes identifiers s).2) :
    R.Makes base base' (Scene.buildNotes c notes identifiers s)
      (Scene.buildNotes c notes identifiers t) := by
  induction notes generalizing identifiers s t with
  | nil => exact ⟨rfl, hidentifiers, h⟩
  | cons note rest ih =>
    rw [List.forall_mem_cons] at hnotes
    have hfirst := ampler_newNote (s := s) c note.widgetClass
    have hrest := ampler_buildNotes c rest
      (identify identifiers note.identifier (s.newNote c note.widgetClass).1)
      (s.newNote c note.widgetClass).2
    have hobject : R.objects s.objectCount := hroom.objects _ le_rfl
      (Nat.lt_of_lt_of_le ((Nat.lt_succ_self _).trans_eq (Array.size_push _).symm) hrest.objects)
    obtain ⟨ho, hmade⟩ := h.newNote hobject hc hnotes.1
    rw [buildNotes_cons, buildNotes_cons, ho]
    exact ih hmade hnotes.2 (knows_identify hidentifiers note.identifier (.inl hobject))
      (hroom.right hfirst)

section

variable [Scalar α]

/-- A component is made, then the notes on it, and then what is in it. -/
theorem build_mk (widgetClass : WidgetClass) (identifier : Option String)
    (children notes : List Blueprint) (assignments notifiers : List (String × Binding))
    (identifiers : Namespace) (s : Scene α) :
    build { widgetClass, identifier, children, notes, assignments, notifiers } identifiers s
      = (s.components.size, Scene.buildChildren s.components.size children
        (Scene.buildNotes s.components.size notes
          (identify identifiers identifier (widgetClass.newObject s.network.store).1)
          (s.newComponent widgetClass identifier).2).1
        (Scene.buildNotes s.components.size notes
          (identify identifiers identifier (widgetClass.newObject s.network.store).1)
          (s.newComponent widgetClass identifier).2).2) := by
  have hnew : ∃ comp, (s.newComponent widgetClass identifier).2.component? s.components.size
      = some comp ∧ comp.object = (widgetClass.newObject s.network.store).1 := by
    unfold component? Scene.newComponent
    dsimp only
    rw [Array.getElem?_push_size]
    exact ⟨_, rfl, rfl⟩
  obtain ⟨comp, hcomp, hobject⟩ := hnew
  have hindex : (s.newComponent widgetClass identifier).1 = s.components.size := rfl
  rw [build, ← hobject]
  simp only [hindex, hcomp]

theorem buildChildren_cons (p : Nat) (b : Blueprint) (rest : List Blueprint)
    (identifiers : Namespace) (s : Scene α) : buildChildren p (b :: rest) identifiers s
      = Scene.buildChildren p rest (build b identifiers s).2.1
        ((build b identifiers s).2.2.attach p (build b identifiers s).1) := rfl

mutual

/-- The same is made of a blueprint in both scenes. -/
theorem Scenes.build : (b : Blueprint) → b.Shares R.shared → {identifiers : Namespace} →
    (∀ v ∈ identifiers.values, R.Knows v) → {s t : Scene α} → R.Scenes base base' s t →
    R.Room s (Scene.build b identifiers s).2.2 →
    (Scene.build b identifiers t).1 = (Scene.build b identifiers s).1 ∧
      R.components (Scene.build b identifiers s).1 ∧
      R.Makes base base' (Scene.build b identifiers s).2 (Scene.build b identifiers t).2
  | { widgetClass, identifier, children, notes, assignments, notifiers }, hb, identifiers, hids,
      s, t, h, hroom => by
    obtain ⟨hcls, hnotes, hchildren⟩ := Blueprint.shares_mk hb
    have hfirst := ampler_newComponent s widgetClass identifier
    have ho : (widgetClass.newObject t.network.store).1 = (widgetClass.newObject s.network.store).1 :=
      congrArg (ObjectRef.mk · widgetClass.name) h.same.objectCount
    obtain ⟨-, -, -, -, hsize, hcount, -⟩ := s.newComponent_spec widgetClass identifier
    rw [build_mk] at hroom ⊢
    rw [build_mk, ho, h.componentCount]
    have hsecond := ampler_buildNotes s.components.size notes
      (identify identifiers identifier (widgetClass.newObject s.network.store).1)
      (s.newComponent widgetClass identifier).2
    have hthird := ampler_buildChildren s.components.size children
      (Scene.buildNotes s.components.size notes
        (identify identifiers identifier (widgetClass.newObject s.network.store).1)
        (s.newComponent widgetClass identifier).2).1
      (Scene.buildNotes s.components.size notes
        (identify identifiers identifier (widgetClass.newObject s.network.store).1)
        (s.newComponent widgetClass identifier).2).2
    -- The component itself comes first, so the room for the rest begins behind it.
    have hroom₁ := hroom.left (hsecond.trans hthird)
    have hobject : R.objects s.objectCount :=
      hroom₁.objects _ le_rfl ((Nat.lt_succ_self _).trans_eq hcount.symm)
    have hc : R.components s.components.size :=
      hroom₁.components _ le_rfl ((Nat.lt_succ_self _).trans_eq hsize.symm)
    obtain ⟨-, hmade⟩ := h.newComponent hobject hc (fun e he o ho => .inr (hcls e he o ho)) identifier
    have hnoted := hmade.buildNotes hc (fun note hnote e he o ho => .inr (hnotes note hnote e he o ho))
      (knows_identify hids identifier (o := (widgetClass.newObject s.network.store).1) (.inl hobject))
      ((hroom.right hfirst).left hthird)
    refine ⟨rfl, hc, ?_⟩
    have hfilled := Scenes.buildChildren hc children hchildren hnoted.knows hnoted.scenes
      (hroom.right (hfirst.trans hsecond))
    rw [hnoted.names]
    exact hfilled

theorem Scenes.buildChildren {p : Nat} (hp : R.components p) : (bs : List Blueprint) →
    (∀ b ∈ bs, b.Shares R.shared) → {identifiers : Namespace} →
    (∀ v ∈ identifiers.values, R.Knows v) → {s t : Scene α} → R.Scenes base base' s t →
    R.Room s (Scene.buildChildren p bs identifiers s).2 →
    R.Makes base base' (Scene.buildChildren p bs identifiers s)
      (Scene.buildChildren p bs identifiers t)
  | [], _, identifiers, hids, s, t, h, _ => ⟨rfl, hids, h⟩
  | b :: rest, hbs, identifiers, hids, s, t, h, hroom => by
    rw [List.forall_mem_cons] at hbs
    rw [buildChildren_cons] at hroom ⊢
    rw [buildChildren_cons]
    have hattached := ampler_attach (Scene.build b identifiers s).2.2 p (Scene.build b identifiers s).1
    have hrest := ampler_buildChildren p rest (Scene.build b identifiers s).2.1
      ((Scene.build b identifiers s).2.2.attach p (Scene.build b identifiers s).1)
    have hfirst := ampler_build b identifiers s
    obtain ⟨hroot, hc, hmade⟩ :=
      Scenes.build b hbs.1 hids h (hroom.left (hattached.trans hrest))
    rw [hroot, hmade.names]
    exact Scenes.buildChildren hp rest hbs.2 hmade.knows (hmade.scenes.attach hp hc)
      (hroom.right (hfirst.trans hattached))

end

end

/-! ### Tying -/

/-- What a network computation comes to in both scenes, its signals having become tasks. -/
theorem Scenes.heed {β : Type} (h : R.Scenes base base' s t) {x : Network → Option (β × Network)}
    {S : β → β → Prop}
    (hagree : Agree (R.Nets base.network base'.network) S (x s.network) (x t.network))
    (hcalms : ∀ net b net', x net = some (b, net') → net.Calms net') :
    Option.Rel (fun p q => S p.1 q.1 ∧ R.Scenes base base' ({ s with network := p.2 }.heedSignals)
      ({ t with network := q.2 }.heedSignals)) (x s.network) (x t.network) := by
  have hleft := hcalms s.network
  have hright := hcalms t.network
  unfold Agree at hagree
  generalize x s.network = p at hagree hleft ⊢
  generalize x t.network = q at hagree hright ⊢
  cases hagree with
  | none => exact .none
  | @some p q hpair =>
    have hp := hleft p.1 p.2 rfl
    have hq := hright q.1 q.2 rfl
    exact .some ⟨hpair.1, h.heedSignals hpair.2 (hp.busy.trans h.left.still.busy)
      (hp.rests h.left.still.rests) (hq.rests h.right.still.rests)⟩

section

variable {scope : Scope}

theorem Scenes.tie (h : R.Scenes base base' s t) {owner : Nat} (howner : R.components owner)
    (label : String) {target : ObjectRef} (htarget : R.Within target.id) (hscope : R.Sees scope)
    (attr : String) (binding : Binding) :
    R.Accord base base' (Scene.tie owner label target scope attr binding).run
      (Scene.tie owner label target scope attr binding).run s t := by
  have hties := h.heed (x := fun net => net.connect? binding target attr scope)
    (h.nets.agree_connect hscope htarget nestingLimit binding) fun _ _ _ => calms_connect
  refine accord_run_get_bind ?_
  generalize s.network.connect? binding target attr scope = p at hties ⊢
  generalize t.network.connect? binding target attr scope = q at hties ⊢
  cases hties with
  | none => exact accord_run_throw h _
  | @some p q hpair =>
    obtain ⟨r, a⟩ := p
    obtain ⟨r', b⟩ := q
    obtain ⟨hr, hheeded⟩ := hpair
    cases hr
    cases r with
    | error cause => exact accord_run_throw hheeded _
    | ok link =>
      cases link with
      | none => exact accord_run_pure hheeded _
      | some link => exact accord_run_modify (hheeded.update_same howner fun _ => ⟨rfl, rfl, rfl, rfl⟩)

theorem Scenes.tieTo (h : R.Scenes base base' s t) {owner : Nat} (howner : R.components owner)
    (b : Blueprint) {target : ObjectRef} (htarget : R.Within target.id) (hscope : R.Sees scope) :
    R.Accord base base' (Scene.tieTo owner b target scope).run (Scene.tieTo owner b target scope).run
      s t := by
  have hself : R.Sees (scope.push (Table.ofList [("self", .object target)])) := by
    refine hscope.push (knows_of_mem_ofList ?_)
    rw [List.forall_mem_singleton, knows_object]
    exact htarget
  exact accord_forM h fun entry _ _ _ h => h.tie howner b.label htarget hself entry.1 entry.2

theorem Scenes.tieNotes (h : R.Scenes base base' s t) {owner : Nat} (howner : R.components owner)
    (hscope : R.Sees scope) {notes : List (Blueprint × ObjectRef)}
    (hnotes : ∀ entry ∈ notes, R.objects entry.2.id) :
    R.Accord base base' (Scene.tieNotes owner scope notes).run (Scene.tieNotes owner scope notes).run
      s t := by
  induction notes generalizing s t with
  | nil => exact accord_run_pure h _
  | cons entry rest ih =>
    rw [List.forall_mem_cons] at hnotes
    exact (h.tieTo howner entry.1 (.inl hnotes.1) hscope).run_bind fun _ _ _ h => ih h hnotes.2

mutual

/-- The code of a blueprint is tied to the same in both scenes. -/
theorem Scenes.tieAll (hscope : R.Sees scope) : (b : Blueprint) → {c : Nat} → R.components c →
    {s t : Scene α} → R.Scenes base base' s t →
    R.Accord base base' (Scene.tieAll scope b c).run (Scene.tieAll scope b c).run s t
  | { widgetClass, identifier, children, notes, assignments, notifiers }, c, hc, s, t, h => by
    rw [Scene.tieAll]
    refine accord_run_get_bind ?_
    rw [h.components c hc]
    cases hcomp : s.component? c with
    | none => exact accord_run_pure h _
    | some comp =>
      have howns := h.left.owns c comp hc hcomp
      have hnotes : ∀ entry ∈ notes.zip comp.notes, R.objects entry.2.id := fun entry hentry =>
        howns.notes entry.2 (List.of_mem_zip hentry).2
      dsimp only
      refine (h.tieTo hc _ (.inl howns.object) hscope).run_bind fun _ _ _ h => ?_
      refine (h.tieNotes hc hscope hnotes).run_bind fun _ _ _ h => ?_
      exact Scenes.tieChildren hscope children howns.children h

theorem Scenes.tieChildren (hscope : R.Sees scope) : (bs : List Blueprint) → {cs : List Nat} →
    (∀ c ∈ cs, R.components c) → {s t : Scene α} → R.Scenes base base' s t →
    R.Accord base base' (Scene.tieChildren scope bs cs).run (Scene.tieChildren scope bs cs).run s t
  | b :: rest, c :: more, hcs, s, t, h => by
    rw [List.forall_mem_cons] at hcs
    rw [Scene.tieChildren]
    exact (Scenes.tieAll hscope b hcs.1 h).run_bind fun _ _ _ h =>
      Scenes.tieChildren hscope rest hcs.2 h
  | [], _, _, _, _, h => by
    unfold Scene.tieChildren
    exact accord_run_pure h _
  | _ :: _, [], _, _, _, h => by
    unfold Scene.tieChildren
    exact accord_run_pure h _

end

/-! ### Whole views -/

theorem accord_run_modifyGet_bind {β γ ε : Type} {f g : Scene α → γ × Scene α}
    {x y : γ → ExceptT ε (StateM (Scene α)) β}
    (h : R.Accord base base' (x (f s).1).run (y (g t).1).run (f s).2 (g t).2) :
    R.Accord base base' (modifyGet f >>= x).run (modifyGet g >>= y).run s t := h

theorem accord_run_adapt {β ε ε' : Type} {x y : ExceptT ε (StateM (Scene α)) β} {f : ε → ε'}
    (h : R.Accord base base' x.run y.run s t) :
    R.Accord base base' (x.adapt f).run (y.adapt f).run s t :=
  ⟨congrArg (Except.mapError f) h.1, h.2⟩

theorem sees_scope {v : CompiledDocument} {context : Namespace}
    (himports : ∀ w ∈ v.imports.values, R.Knows w) (hcontext : ∀ w ∈ context.values, R.Knows w) :
    R.Sees (v.scope context) := by
  have hempty : R.Sees {} := List.forall_mem_nil _
  refine ((hempty.push himports).push hcontext).push (knows_of_mem_ofList fun e he => ?_)
  obtain ⟨b, -, rfl⟩ := List.mem_map.1 he
  intro o ho
  simp [Value.references] at ho

variable [Scalar α]

/-- What can be seen of a view that has been made is in the realm. -/
def Shows (R : Realm) (view : View) : Prop :=
  R.components view.root ∧ ∀ w ∈ view.identifiers.values, R.Knows w

theorem Scenes.construct (h : R.Scenes base base' s t) {b : Blueprint} (hb : b.Shares R.shared)
    (hscope : R.Sees scope) (hroom : R.Room s (Scene.build b Table.empty s).2.2) :
    R.Accord base base' (Scene.construct b scope).run (Scene.construct b scope).run s t ∧
      Leads (Scene.construct b scope).run s fun r _ => ∀ view, r = .ok view → R.Shows view := by
  obtain ⟨hroot, hc, hmade⟩ := Scenes.build b hb (List.forall_mem_nil _) h hroom
  have htied := Scenes.tieAll (hscope.push hmade.knows) b hc hmade.scenes
  constructor
  · refine accord_run_modifyGet_bind ?_
    change R.Accord base base' (Scene.tieAll _ b (Scene.build b Table.empty s).1 >>= fun _ => pure
      ({ root := (Scene.build b Table.empty s).1
         identifiers := (Scene.build b Table.empty s).2.1 } : View)).run
      (Scene.tieAll _ b (Scene.build b Table.empty t).1 >>= fun _ => pure
      ({ root := (Scene.build b Table.empty t).1
         identifiers := (Scene.build b Table.empty t).2.1 } : View)).run _ _
    rw [hroot, hmade.names]
    exact htied.run_bind fun _ _ _ h => accord_run_pure h _
  · refine (leads_construct b scope s).mono fun r _ hr view hview => ?_
    obtain ⟨hviewRoot, hidentifiers, -⟩ := hr view hview
    exact ⟨hviewRoot ▸ hc, hidentifiers ▸ hmade.knows⟩

/-- A view comes to the same in both scenes, whether or not it can be built. -/
theorem Scenes.instantiate (h : R.Scenes base base' s t) {v : CompiledDocument} {context : Namespace}
    (hroot : v.root.Shares R.shared) (himports : ∀ w ∈ v.imports.values, R.Knows w)
    (hcontext : ∀ w ∈ context.values, R.Knows w)
    (hroom : R.Room s (Scene.build v.root Table.empty s).2.2) :
    R.Accord base base' (Scene.instantiate v context).run (Scene.instantiate v context).run s t ∧
      Leads (Scene.instantiate v context).run s fun r _ => ∀ view, r = .ok view → R.Shows view := by
  obtain ⟨hconstruct, hshows⟩ := h.construct hroot (sees_scope himports hcontext) hroom
  rw [instantiate_eq]
  constructor
  · refine hconstruct.run_bind_leads hshows fun view _ _ hview h => ?_
    refine (accord_run_adapt (h.activate hview.1)).run_bind fun _ _ _ h => ?_
    exact accord_run_modify_bind (accord_run_pure (h.logAll ..) _)
  · refine hshows.run_bind (fun view t hview => ?_) fun _ _ _ => nofun
    have hlive : Leads ((Scene.activate view.root).adapt ViewError.layout).run t
        fun _ _ => True := trivial
    refine hlive.run_bind (fun _ _ _ => ?_) fun _ _ _ => nofun
    refine leads_run_modify_bind.2 (leads_run_pure.2 ?_)
    rintro _ ⟨⟩
    exact hview view rfl

end

end Realm

end ReactiveView
