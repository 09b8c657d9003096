import ReactiveView.Proofs.Component.Keeping
import ReactiveView.Proofs.Network.Signals

/-!
This module contains that components attend to their objects. A component follows every declared
attribute that its size hint or its size policy can depend on, and goes on following it whatever happens
on the network. So if such an attribute comes to another value, there is a signal, and if the parent is
live, a task that renews the hint.
-/

namespace ReactiveView

open Network

/-- No value is kept under a key that no pair has. -/
theorem Table.get?_ofList_eq_none {κ β : Type} [DecidableEq κ] [Ord κ] {l : List (κ × β)} {k : κ}
    (h : ∀ entry ∈ l, entry.1 ≠ k) : (ofList l).get? k = none := by
  unfold ofList
  refine List.foldlRecOn (motive := fun t : Table κ β => t.get? k = none) l _ (get?_empty k)
    fun t ht entry hentry => ?_
  rw [get?_insert_ne t (h entry hentry).symm]
  exact ht

namespace Network

variable {K W W' : Keeping} {net net' : Network} {k : Nat} {cls : WidgetClass} {o : ObjectRef}
  {attr : String}

/-- A component of a class keeps an object of its own alive, that has no attributes but the declared
ones, and follows it. -/
structure Watches (W : Keeping) (net : Network) (k : Nat) (cls : WidgetClass) (o : ObjectRef) :
    Prop where
  owned : o.id ∈ net.owners
  alive : net.store.isAlive o.id = true
  declared : net.store.shape? o.id = some .declared
  unnamed : net.Unnamed o.id
  lacks : ∀ attr, cls.declares attr = false → net.store.get? o attr = none
  follows : ∀ attr ∈ cls.watched, ∃ i a, W a i ∧ ⟨i, o.id, attr, .hint k⟩ ∈ net.observers

/-- A component goes on following its object while others are made. -/
theorem Watches.grow (h : net.Watches W k cls o)
    (hstore : ∀ id < net.store.objects.size, net'.store.objects[id]? = net.store.objects[id]?)
    (howners : net.owners ⊆ net'.owners) (hdesk : net'.desk = net.desk)
    (hobservers : net.observers ⊆ net'.observers) (hW : ∀ a i, W a i → W' a i) :
    net'.Watches W' k cls o := by
  have hobject := hstore o.id (Store.lt_size_of_isAlive h.alive)
  refine ⟨howners h.owned, ?_, ?_, fun name o' hname => ?_, fun attr hattr => ?_,
    fun attr hattr => ?_⟩
  · have halive := h.alive
    unfold Store.isAlive at halive ⊢
    rwa [hobject]
  · have hdeclared := h.declared
    unfold Store.shape? at hdeclared ⊢
    rwa [hobject]
  · rw [hdesk] at hname
    exact h.unnamed name o' hname
  · have hnone := h.lacks attr hattr
    unfold Store.get? Store.attrs at hnone ⊢
    rwa [hobject]
  · obtain ⟨i, a, hi, ho⟩ := h.follows attr hattr
    exact ⟨i, a, hW a i hi, hobservers ho⟩

/-- A component goes on following its object whatever happens on the network. -/
theorem Watches.later (h : net.Watches W k cls o) (hnet : net.Tidy K W []) (hsignals : net.Signals net')
    (hlasts : net.Lasts W net') (hW : ∀ a i, W a i → W' a i) : net'.Watches W' k cls o := by
  have halive := hsignals.owned o.id h.owned h.alive
  refine ⟨hsignals.owners ▸ h.owned, halive, (hsignals.shape o.id).trans h.declared,
    h.unnamed.later hsignals.toLater, fun attr hattr => ?_, fun attr hattr => ?_⟩
  · exact hsignals.lacks o attr h.unnamed halive h.declared (h.lacks attr hattr)
  · obtain ⟨i, a, hi, ho⟩ := h.follows attr hattr
    exact ⟨i, a, hW a i hi, hlasts.spares _ ho (hnet.numbered _ ho) h.alive halive ⟨.inr a, hi⟩⟩

/-- What the size hint and the size policy of a component can depend on does not change without a
signal. -/
theorem Watches.signalled (h : net.Watches W k cls o) (hnet : net.Tidy K W [])
    (hsignals : net.Signals net') (hlasts : net.Lasts W net')
    (hattr : attr ∈ WidgetClass.policyAttributes ++ cls.hintAttributes)
    (hne : net'.store.get? o attr ≠ net.store.get? o attr) : k ∈ net'.signals := by
  have halive := hsignals.owned o.id h.owned h.alive
  cases hdeclares : cls.declares attr with
  | false =>
    have hnone := h.lacks attr hdeclares
    exact absurd ((hsignals.lacks o attr h.unnamed halive h.declared hnone).trans hnone.symm) hne
  | true =>
    obtain ⟨i, a, hi, ho⟩ := h.follows attr (List.mem_filter.2 ⟨hattr, hdeclares⟩)
    have hnumber := hnet.numbered _ ho
    exact hsignals.told i o attr k (hlasts.spares _ ho hnumber h.alive halive ⟨.inr a, hi⟩) hnumber
      h.unnamed halive hne

/-- The network with one more object, made for a widget. -/
def furnished (net : Network) (cls : WidgetClass) : Network :=
  { net with
    store := (cls.newObject net.store).2
    owners := net.store.objects.size :: net.owners }

theorem objects_furnished (net : Network) (cls : WidgetClass) (id : Nat) :
    (net.furnished cls).store.objects[id]? = if id = net.store.objects.size then
      some
        { className := cls.name
          shape := .declared
          attrs := Table.ofList cls.attributes }
    else net.store.objects[id]? := Array.getElem?_push

/-- The others go on following their objects. -/
theorem Watches.furnished (h : net.Watches W k cls o) (other : WidgetClass) :
    (net.furnished other).Watches W k cls o :=
  h.grow (fun id hid => (objects_furnished net other id).trans (if_neg hid.ne))
    (List.subset_cons_self _ _) rfl (List.Subset.refl _) fun _ _ hi => hi

/-- An object that has just been made is as its class declares it. -/
theorem watches_furnished (hnamed : ∀ name o, net.desk.objects.get? name = some o →
      o.id < net.store.objects.size) (hstore : net'.store = (net.furnished cls).store)
    (howners : net'.owners = (net.furnished cls).owners) (hdesk : net'.desk = net.desk)
    (hfollows : ∀ attr ∈ cls.watched, ∃ i a, W a i ∧
      ⟨i, (cls.newObject net.store).1.id, attr, .hint k⟩ ∈ net'.observers) :
    net'.Watches W k cls (cls.newObject net.store).1 := by
  have hobject := objects_furnished net cls net.store.objects.size
  rw [if_pos rfl] at hobject
  refine ⟨howners ▸ List.mem_cons_self, ?_, ?_, fun name o hname => ?_, fun attr hattr => ?_,
    hfollows⟩
  · rw [hstore]
    unfold Store.isAlive
    rw [show (cls.newObject net.store).1.id = net.store.objects.size from rfl, hobject]
  · rw [hstore]
    exact congrArg (Option.map Obj.shape) hobject
  · rw [hdesk] at hname
    exact (hnamed name o hname).ne
  · rw [hstore]
    unfold Store.get? Store.attrs
    rw [show (cls.newObject net.store).1.id = net.store.objects.size from rfl, hobject]
    refine Table.get?_ofList_eq_none fun entry hentry heq => ?_
    exact Bool.eq_false_iff.1 hattr (List.any_eq_true.2 ⟨entry, hentry, beq_iff_eq.2 heq⟩)

end Network

namespace Scene

variable {α : Type} {s t : Scene α} {c k p : Nat} {comp child parent : Component α}

/-! ### Following -/

theorem watch_eq (net : Network) (o : ObjectRef) (c : Nat) (attrs : List String) :
    ∃ news nextObserver, (watch net o c attrs).2
      = { net with nextObserver, observers := net.observers ++ news } := by
  induction attrs generalizing net with
  | nil => exact ⟨[], net.nextObserver, by rw [List.append_nil]; rfl⟩
  | cons attr rest ih =>
    obtain ⟨news, next, hnet⟩ := ih (net.subscribe o.id attr (.hint c)).2
    exact ⟨_, next, hnet.trans (by rw [subscribe, List.append_assoc])⟩

theorem exists_mem_watch (net : Network) (o : ObjectRef) (c : Nat) {attrs : List String}
    {attr : String} (hattr : attr ∈ attrs) :
    ∃ i ∈ (watch net o c attrs).1, ⟨i, o.id, attr, .hint c⟩ ∈ (watch net o c attrs).2.observers := by
  induction attrs generalizing net with
  | nil => cases hattr
  | cons first rest ih =>
    rcases List.mem_cons.1 hattr with rfl | hrest
    · refine ⟨net.nextObserver, List.mem_cons_self, ?_⟩
      obtain ⟨news, next, hnet⟩ := watch_eq (net.subscribe o.id attr (.hint c)).2 o c rest
      change _ ∈ (watch (net.subscribe o.id attr (.hint c)).2 o c rest).2.observers
      rw [hnet]
      exact List.mem_append_left _ (List.mem_append_right _ (List.mem_singleton_self _))
    · obtain ⟨i, hi, ho⟩ := ih (net.subscribe o.id first (.hint c)).2 hrest
      exact ⟨i, List.mem_cons_of_mem _ hi, ho⟩

/-- Every component follows its object, and the host has names for no objects that are still to be
made. -/
structure Attended (s : Scene α) : Prop where
  follows : ∃ K W, s.network.Tidy K W [] ∧
    ∀ k cls o, s.subject? k = some (cls, o) → s.network.Watches W k cls o
  named : ∀ name o, s.network.desk.objects.get? name = some o → o.id < s.network.store.objects.size

theorem subject?_eq (h : s.component? k = some comp) :
    s.subject? k = some (comp.widgetClass, comp.object) := by
  unfold subject?
  rw [h]
  rfl

theorem Attended.lt_size (hs : s.Attended) (h : s.component? k = some comp) :
    comp.object.id < s.network.store.objects.size := by
  obtain ⟨K, W, -, hwatches⟩ := hs.follows
  exact Store.lt_size_of_isAlive (hwatches k _ _ (subject?_eq h)).alive

/-- What is logged and signalled, and what else there is about components, does not count. -/
theorem Attended.echo (hs : s.Attended) (hecho : s.network.Echoes t.network)
    (hsubjects : t.subject? = s.subject?) : t.Attended := by
  obtain ⟨K, W, htidy, hwatches⟩ := hs.follows
  refine ⟨⟨K, W, (htidy.echoes hecho).tidy, fun k cls o hsubject => ?_⟩, fun name o hname => ?_⟩
  · rw [hsubjects] at hsubject
    refine (hwatches k cls o hsubject).grow (fun id _ => by rw [hecho.store]) ?_ hecho.desk ?_
      fun _ _ hi => hi
    · exact hecho.owners ▸ List.Subset.refl _
    · exact hecho.observers ▸ List.Subset.refl _
  · rw [hecho.desk] at hname
    rw [hecho.store]
    exact hs.named name o hname

theorem Aloof.attended (h : s.Aloof t) (hs : s.Attended) : t.Attended :=
  hs.echo h.network h.subjects

theorem attended_start (hcomponents : s.components = #[]) (hobservers : s.network.observers = [])
    (hlinks : s.network.links = #[]) (hnamed : ∀ name o,
      s.network.desk.objects.get? name = some o → o.id < s.network.store.objects.size) :
    s.Attended := by
  refine ⟨⟨fun _ _ => False, fun _ _ => False, ?_, fun k cls o hsubject => ?_⟩, hnamed⟩
  · exact tidy_of_empty hobservers hlinks (fun _ _ => id) fun _ _ => id
  · unfold subject? component? at hsubject
    rw [hcomponents] at hsubject
    cases hsubject

/-! ### On the network -/

theorem Attended.moves {network : Network} (hs : s.Attended) (hmoves : s.network.Moves network) :
    Attended { s with network } := by
  obtain ⟨K, W, htidy, hwatches⟩ := hs.follows
  obtain ⟨K', W', hW, htidy', hlasts⟩ := hmoves.tidy htidy
  have hsignals := hmoves.signals htidy.hosts
  exact ⟨⟨K', W', htidy', fun k cls o hsubject => (hwatches k cls o hsubject).later htidy hsignals
    hlasts hW⟩, fun name o hname =>
      (hs.named name o (hsignals.names name o hname)).trans_le hlasts.objects⟩

/-- What the size hint and the size policy of a component depend on changes only with a signal. -/
theorem Attended.signalled {network : Network} {attr : String} (hs : s.Attended)
    (hmoves : s.network.Moves network) (hk : s.component? k = some comp)
    (hattr : attr ∈ WidgetClass.policyAttributes ++ comp.widgetClass.hintAttributes)
    (hne : network.store.get? comp.object attr ≠ s.network.store.get? comp.object attr) :
    k ∈ network.signals := by
  obtain ⟨K, W, htidy, hwatches⟩ := hs.follows
  obtain ⟨K', W', -, -, hlasts⟩ := hmoves.tidy htidy
  exact (hwatches k _ _ (subject?_eq hk)).signalled htidy (hmoves.signals htidy.hosts) hlasts hattr hne

/-! ### New objects -/

theorem Attended.get?_furnished (hs : s.Attended) (hk : s.component? k = some comp)
    (widgetClass : WidgetClass) (attr : String) :
    (s.network.furnished widgetClass).store.get? comp.object attr
      = s.network.store.get? comp.object attr := by
  have hobject := objects_furnished s.network widgetClass comp.object.id
  rw [if_neg (hs.lt_size hk).ne] at hobject
  unfold Store.get? Store.attrs
  rw [hobject]

theorem Attended.newNote (hs : s.Attended) (c : Nat) (widgetClass : WidgetClass) :
    (s.newNote c widgetClass).2.Attended := by
  obtain ⟨K, W, htidy, hwatches⟩ := hs.follows
  have hmade : Attended { s with network := s.network.furnished widgetClass } := by
    have hcreate : Tidied W s.network K [] (s.network.furnished widgetClass) := htidy.create ..
    exact ⟨⟨K, W, hcreate.tidy, fun k cls o hsubject =>
      (hwatches k cls o hsubject).furnished widgetClass⟩, fun name o hname =>
        (hs.named name o hname).trans_le hcreate.lasts.objects⟩
  let f (comp : Component α) : Component α :=
    { comp with notes := comp.notes ++ [(widgetClass.newObject s.network.store).1] }
  exact (aloof_update _ c (f := f) (fun _ => rfl) fun _ => rfl).attended hmade

variable [Scalar α]

theorem subject?_newComponent (s : Scene α) (widgetClass : WidgetClass) (identifier : Option String)
    (k : Nat) : (s.newComponent widgetClass identifier).2.subject? k
      = if k = s.components.size then some (widgetClass, (widgetClass.newObject s.network.store).1)
        else s.subject? k := by
  unfold subject? component? Scene.newComponent
  dsimp only
  rw [Array.getElem?_push]
  split <;> rfl

theorem network_newComponent (s : Scene α) (widgetClass : WidgetClass) (identifier : Option String) :
    ∃ news nextObserver, (s.newComponent widgetClass identifier).2.network
      = { s.network.furnished widgetClass with
          nextObserver, observers := s.network.observers ++ news } :=
  watch_eq (s.network.furnished widgetClass) ..

theorem Attended.newComponent (hs : s.Attended) (widgetClass : WidgetClass)
    (identifier : Option String) : (s.newComponent widgetClass identifier).2.Attended := by
  obtain ⟨K, W, htidy, hwatches⟩ := hs.follows
  let made := s.network.furnished widgetClass
  let c := s.components.size
  let o := (widgetClass.newObject s.network.store).1
  have hmade : Tidied W s.network K [] made := htidy.create ..
  obtain ⟨htidy', -⟩ := tidy_watch hmade.tidy o c (.component c) widgetClass.watched
  obtain ⟨news, next, hnet⟩ := watch_eq made o c widgetClass.watched
  have hnetwork : (s.newComponent widgetClass identifier).2.network
      = { made with nextObserver := next, observers := made.observers ++ news } := hnet
  refine ⟨⟨K, _, htidy', fun k cls o' hsubject => ?_⟩, fun name o' hname => ?_⟩
  · rw [hnetwork]
    rw [subject?_newComponent] at hsubject
    split at hsubject
    · next hk =>
      cases hsubject
      refine watches_furnished hs.named rfl rfl rfl fun attr hattr => ?_
      obtain ⟨i, hi, ho⟩ := exists_mem_watch made o c hattr
      rw [hnet] at ho
      exact ⟨i, .component c, .inr ⟨rfl, hi⟩, hk ▸ ho⟩
    · exact ((hwatches k cls o' hsubject).furnished widgetClass).grow (fun _ _ => rfl)
        (List.Subset.refl _) rfl (List.subset_append_left _ _) fun _ _ => .inl
  · rw [hnetwork] at hname ⊢
    exact (hs.named name o' hname).trans_le hmade.lasts.objects

end Scene

end ReactiveView
