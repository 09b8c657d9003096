import Mathlib.Data.List.Sort
import ReactiveView.Proofs.Network.Keeping

/-!
This module contains what keepers begin and end themselves: they subscribe, end subscriptions, give
bindings up, and hand bindings on to each other. As long as they keep the same, the observers stay
the same, but for the binds that are evaluated again.
-/

namespace ReactiveView

/-- A handle takes over what the host has. -/
def Keeper.takeOver (name : String) : Keeper → Keeper
  | .host => .handle name
  | .handle other => if other = name then .host else .handle other
  | .component c => .component c

theorem Keeper.takeOver_takeOver (name : String) (a : Keeper) :
    (a.takeOver name).takeOver name = a := by
  cases a with
  | host => simp [takeOver]
  | component => rfl
  | handle other => by_cases h : other = name <;> simp [takeOver, h]

namespace Network

/-- A keeper keeps all of a list in addition. -/
def Keeping.addAll (K : Keeping) (a : Keeper) (is : List Nat) : Keeping :=
  fun b j => K b j ∨ b = a ∧ j ∈ is

/-- A keeper keeps nothing any more. -/
def Keeping.except (K : Keeping) (a : Keeper) : Keeping := fun b j => b ≠ a ∧ K b j

variable {K W : Keeping} {A : List Nat} {net net' : Network} {a : Keeper} {i : Nat} {is : List Nat}

theorem Keeping.addAll_nil (K : Keeping) (a : Keeper) : K.addAll a [] = K := by
  funext b j
  simp [addAll]

theorem Keeping.addAll_cons (K : Keeping) (a : Keeper) (i : Nat) (is : List Nat) :
    K.addAll a (i :: is) = (K.add a i).addAll a is := by
  funext b j
  simp only [addAll, add, List.mem_cons, and_or_left, or_assoc]

theorem Keeping.without_nil (K : Keeping) : K.without [] = K := by
  funext b j
  simp [without]

theorem Keeping.without_cons (K : Keeping) (i : Nat) (is : List Nat) :
    K.without (i :: is) = (K.without [i]).without is := by
  funext b j
  simp only [without, List.mem_cons, List.not_mem_nil, or_false, not_or, and_assoc]

/-- Where all have one keeper, what is given up by one is given up. -/
theorem Keeping.without_eq_except (hkeeper : ∀ a b i, K a i → K b i → a = b)
    (his : ∀ i, K a i ↔ i ∈ is) : K.without is = K.except a := by
  funext b i
  refine propext ⟨fun ⟨hb, hi⟩ => ⟨fun hab => hi ((his i).1 (hab ▸ hb)), hb⟩, fun ⟨hab, hb⟩ => ⟨hb, ?_⟩⟩
  exact fun hi => hab (hkeeper b a i hb ((his i).2 hi))

/-! ### Subscribing -/

/-- A subscription that a keeper makes for itself. -/
theorem Allotted.subscribe (h : net.Allotted W) (object : Nat) (attr : String) (handler : Handler)
    (a : Keeper) :
    (net.subscribe object attr handler).2.Allotted (W.add a net.nextObserver) := by
  have hnew (c : Nat ⊕ Keeper) (hc : net.Claims W net.nextObserver c) : False :=
    Nat.lt_irrefl _ (h.claimed _ c hc)
  have hclaims (i : Nat) (c : Nat ⊕ Keeper)
      (hc : (net.subscribe object attr handler).2.Claims (W.add a net.nextObserver) i c) :
      net.Claims W i c ∨ c = .inr a ∧ i = net.nextObserver := by
    rcases c with k | b
    · exact .inl hc
    · exact (show W b i ∨ b = a ∧ i = _ from hc).imp_right fun ⟨hb, hi⟩ => ⟨congrArg _ hb, hi⟩
  refine ⟨?_, fun o ho => ?_, fun i c hc => ?_, fun i c d hc hd => ?_⟩
  · refine (List.map_append (f := Observer.id)).symm ▸ List.pairwise_append.2
      ⟨h.sorted, List.pairwise_singleton .., fun i hi j hj => ?_⟩
    obtain ⟨o, ho, rfl⟩ := List.mem_map.1 hi
    cases List.mem_singleton.1 hj
    exact h.numbered o ho
  · rcases List.mem_append.1 ho with ho | ho
    · exact Nat.lt_succ_of_lt (h.numbered o ho)
    · cases List.mem_singleton.1 ho
      exact Nat.lt_succ_self _
  · rcases hclaims i c hc with hold | ⟨-, rfl⟩
    · exact Nat.lt_succ_of_lt (h.claimed i c hold)
    · exact Nat.lt_succ_self _
  · rcases hclaims i c hc with hc | ⟨rfl, rfl⟩ <;> rcases hclaims _ d hd with hd | ⟨rfl, hi⟩
    · exact h.unique i c d hc hd
    · exact (hnew c (hi ▸ hc)).elim
    · exact (hnew d hd).elim
    · rfl

theorem Listed.subscribe (h : net.Listed W) (object : Nat) (attr : String) {handler : Handler}
    (hstands : handler.Stands) (a : Keeper) :
    (net.subscribe object attr handler).2.Listed (W.add a net.nextObserver) where
  toAllotted := h.toAllotted.subscribe object attr handler a
  serves o ho := by
    rcases List.mem_append.1 ho with ho | ho
    · exact (h.serves o ho).imp_right fun ⟨hs, b, hb⟩ => ⟨hs, b, .inl hb⟩
    · cases List.mem_singleton.1 ho
      exact .inr ⟨hstands, a, .inr ⟨rfl, rfl⟩⟩

theorem lasts_subscribe (object : Nat) (attr : String) (handler : Handler) :
    net.Lasts W (net.subscribe object attr handler).2 :=
  { (.refl net : net.Lasts W net) with
    next := Nat.le_succ _
    old := fun o ho hi => (List.mem_append.1 ho).resolve_right fun hnew => by
      cases List.mem_singleton.1 hnew
      exact Nat.lt_irrefl _ hi
    spares := fun o ho _ _ _ _ => List.mem_append_left _ ho }

theorem Tidy.subscribe (h : net.Tidy K W A) (object : Nat) (attr : String) {handler : Handler}
    (hstands : handler.Stands) (a : Keeper) :
    (net.subscribe object attr handler).2.Tidy K (W.add a net.nextObserver) A :=
  ⟨h.toListed.subscribe object attr hstands a, h.life, h.keeper⟩

/-- Nobody looks at what the host keeps by name. -/
theorem Tidy.desk (h : net.Tidy K W A) (desk : Desk) : Network.Tidy K W A { net with desk } :=
  ⟨⟨⟨h.sorted, h.numbered, h.claimed, h.unique⟩, h.serves⟩, h.life, h.keeper⟩

/-- An observer of the host is the host's. -/
theorem Tidy.watched (h : net.Tidy K W A) (o : ObjectRef) (attr id : String)
    {actions : List Command} (hactions : ∀ c ∈ actions, c.Modest) :
    (net.watched o attr id actions).Tidy K (W.add .host net.nextObserver) A ∧
      net.Lasts W (net.watched o attr id actions) := by
  let watch : Watch := { object := o, attr, observer := net.nextObserver }
  let desk : Desk := { net.desk with watches := net.desk.watches.insert id watch }
  have hstands : (Handler.host id actions).Stands := hactions
  have hsubscribed := h.subscribe o.id attr hstands .host
  have hsubscribes : net.Lasts W (net.subscribe o.id attr (.host id actions)).2 :=
    lasts_subscribe o.id attr (.host id actions)
  obtain ⟨htidy, hlasts⟩ := (hsubscribed.desk desk).sweep
  have hdesk : (net.subscribe o.id attr (.host id actions)).2.Lasts W
      { (net.subscribe o.id attr (.host id actions)).2 with desk } :=
    { (.refl _ : Network.Lasts W _ _) with handles := rfl }
  exact ⟨htidy, hsubscribes.trans (hdesk.trans (hlasts.mono fun _ _ => .inl))⟩

/-- A subscription is ended. Its keeper may go on to claim it. -/
theorem Tidy.unsubscribe (h : net.Tidy K W A) (i : Nat) : (net.unsubscribe i).Tidy K W A where
  sorted := h.sorted.sublist (List.filter_sublist.map _)
  numbered o ho := h.numbered o (List.mem_filter.1 ho).1
  claimed := h.claimed
  unique := h.unique
  serves o ho := h.serves o (List.mem_filter.1 ho).1
  life := h.life
  keeper := h.keeper

/-- Subscriptions that no binding lists are ended and given up. -/
theorem Tidy.retire (h : net.Tidy K W A) (his : ∀ i ∈ is, ∀ k, ¬net.Lists k i) :
    Tidied (W.without is) net K A (is.foldl Network.unsubscribe net) := by
  rw [foldl_unsubscribe]
  have hspared {o : Observer} (ho : o ∈ net.observers) (hi : o.id ∉ is) :
      o ∈ net.observers.filter fun o => !is.contains o.id := by
    simp [ho, hi]
  have hclaims (i : Nat) (c : Nat ⊕ Keeper) (hc : net.Claims (W.without is) i c) :
      net.Claims W i c ∧ i ∉ is := by
    rcases c with k | b
    · exact ⟨hc, fun hi => his i hi k hc⟩
    · exact hc
  refine ⟨⟨⟨⟨?_, fun o ho => ?_, fun i c hc => ?_, fun i c d hc hd => ?_⟩, fun o ho => ?_⟩,
    h.life, h.keeper⟩, { (.refl net : net.Lasts (W.without is) net) with
      old := fun o ho _ => (List.mem_filter.1 ho).1
      spares := fun o ho _ _ _ ⟨c, hc⟩ => hspared ho (hclaims o.id c hc).2 }⟩
  · exact h.sorted.sublist (List.filter_sublist.map _)
  · exact h.numbered o (List.mem_filter.1 ho).1
  · exact h.claimed i c (hclaims i c hc).1
  · exact h.unique i c d (hclaims i c hc).1 (hclaims i d hd).1
  · obtain ⟨ho, hi⟩ := List.mem_filter.1 ho
    refine (h.serves o ho).imp_right fun ⟨hs, b, hb⟩ => ⟨hs, b, hb, fun hmem => ?_⟩
    simp [hmem] at hi

/-! ### New objects -/

theorem isAlive_create (store : Store) (className : String) (shape : Shape)
    (attrs : Table String Value) {id : Nat} (hid : id < store.objects.size) :
    (store.create className shape attrs).2.isAlive id = store.isAlive id := by
  unfold Store.isAlive Store.create
  dsimp only
  rw [Array.getElem?_push, if_neg (Nat.ne_of_lt hid)]

theorem Tidy.create (h : net.Tidy K W A) (className : String) (shape : Shape)
    (attrs : Table String Value) (owners : List Nat) :
    Tidied W net K A { net with store := (net.store.create className shape attrs).2, owners } :=
  ⟨⟨⟨⟨h.sorted, h.numbered, h.claimed, h.unique⟩, h.serves⟩, h.life, h.keeper⟩,
    { (.refl net : net.Lasts W net) with
      objects := Nat.le_trans (Nat.le_succ _) (Nat.le_of_eq (Array.size_push _).symm)
      alive := fun id hid halive => by rwa [isAlive_create _ _ _ _ hid] at halive
      spares := fun o ho _ _ _ _ => ho }⟩

/-! ### Giving up and handing on -/

theorem Kept.dropLinks (h : net.Kept K A) (ks : List Nat) :
    (ks.foldl Network.dropLink net).Kept (K.without ks) A := by
  induction ks generalizing net K with
  | nil => exact K.without_nil.symm ▸ h
  | cons k rest ih =>
    rw [K.without_cons]
    exact ih (h.dropLink k)

theorem ebbs_dropLinks (h : net.Allotted W) (ks : List Nat) :
    net.Ebbs W (ks.foldl Network.dropLink net) := by
  induction ks generalizing net with
  | nil => exact .refl net
  | cons k rest ih =>
    have hdropped := ebbs_dropLink h k
    exact hdropped.trans (ih (h.ebb hdropped))

theorem Tidy.dropLinks (h : net.Tidy K W A) (ks : List Nat) :
    Tidied W net (K.without ks) A (ks.foldl Network.dropLink net) := by
  have he := ebbs_dropLinks h.toAllotted ks
  exact ⟨⟨h.toListed.ebb he, h.toKept.dropLinks ks⟩, he.lasts⟩

/-- Keepers change their names. -/
theorem Kept.swap {f : Keeper → Keeper} (h : net.Kept K A) (hf : ∀ a, f (f a) = a) :
    net.Kept (fun a => K (f a)) A := by
  refine ⟨fun k => (h.life k).trans (lifeBy_congr ⟨?_, fun ⟨a, ha⟩ => ⟨f a, ha⟩⟩ rfl), ?_⟩
  · rintro ⟨a, ha⟩
    refine ⟨f a, ?_⟩
    change K (f (f a)) k
    rwa [hf]
  · intro a b k ha hb
    rw [← hf a, ← hf b, h.keeper (f a) (f b) k ha hb]

theorem Tidy.swap {f : Keeper → Keeper} (h : net.Tidy K W A) (hf : ∀ a, f (f a) = a) :
    net.Tidy (fun a => K (f a)) W A :=
  ⟨h.toListed, h.toKept.swap hf⟩

/-- The bindings of handles that lose them when a binding gets the name of a handle. -/
theorem handled_eq (net : Network) (handle : String) (link : Option Nat) :
    net.handled handle link = (net.desk.handles.get? handle).join.toList.foldl Network.dropLink
      { net with desk := { net.desk with handles := net.desk.handles.insert handle link } } := by
  unfold handled
  cases (net.desk.handles.get? handle).join <;> rfl

theorem released_eq (net : Network) (handle : String) (link : Option Nat) :
    net.released handle link = link.toList.foldl Network.dropLink
      { net with desk := { net.desk with handles := net.desk.handles.erase handle } } := by
  cases link <;> rfl

/-! ### What outlasts -/

/-- A bind has other subscriptions than before: it was evaluated again. -/
def Renews (net net' : Network) (k : Nat) : Prop :=
  ∃ lk lk', net.link? k = some lk ∧ net'.link? k = some lk' ∧ lk.body.IsBind ∧
    lk'.subscriptions ≠ lk.subscriptions

/-- A subscription of a bind that was evaluated again. -/
def Renewed (net net' : Network) (o : Observer) : Prop :=
  ∃ k, o.handler = .refresh k ∧ net.Renews net' k

section

variable (h : net.Tidy K W A) (h' : net'.Tidy K W A) (hlasts : net.Lasts W net')

include h h'

theorem Tidy.link?_eq_none_iff (k : Nat) : net'.link? k = none ↔ net.link? k = none :=
  h'.toKept.link?_eq_none_iff.trans h.toKept.link?_eq_none_iff.symm

include hlasts

/-- A binding that is kept lists what it listed, or is a bind that was evaluated again. -/
theorem Lasts.link {k : Nat} {lk : Link} (hlk : net.link? k = some lk) :
    ∃ lk', net'.link? k = some lk' ∧ lk'.body = lk.body ∧
      (lk'.subscriptions = lk.subscriptions ∨ lk.body.IsBind ∧ net.Renews net' k) := by
  obtain ⟨lk', hlk'⟩ := Option.ne_none_iff_exists'.1
    (mt (h.link?_eq_none_iff h' k).1 (Option.ne_none_iff_exists'.2 ⟨lk, hlk⟩))
  obtain ⟨old, hold, hbody, hsame⟩ := hlasts.links k (lt_size_of_link? hlk) lk' hlk'
  cases hlk.symm.trans hold
  refine ⟨lk', hlk', hbody, or_iff_not_imp_left.2 fun hne => ?_⟩
  have hbind := hsame.resolve_left hne
  exact ⟨hbind, lk, lk', hlk, hlk', hbind, hne⟩

/-- An observer is one of before, or that of a bind that was evaluated again. -/
theorem Lasts.mem_or_renewed {o : Observer} (ho : o ∈ net'.observers) :
    o ∈ net.observers ∨ net.Renewed net' o := by
  refine or_iff_not_imp_left.2 fun hnew => ?_
  have hid : ¬o.id < net.nextObserver := fun hid => hnew (hlasts.old o ho hid)
  rcases h'.serves o ho with ⟨k, lk', hlk', hlists, hserves⟩ | ⟨-, a, ha⟩
  · obtain ⟨lk, hlk⟩ := Option.ne_none_iff_exists'.1
      (mt (h.link?_eq_none_iff h' k).2 (Option.ne_none_iff_exists'.2 ⟨lk', hlk'⟩))
    obtain ⟨last, hlast, hbody, hsame⟩ := hlasts.link h h' hlk
    cases hlk'.symm.trans hlast
    rcases hsame with hsame | ⟨hbind, hrenews⟩
    · exact absurd (h.claimed o.id (.inl k) ⟨lk, hlk, hsame ▸ hlists⟩) hid
    · exact ⟨k, (hbody ▸ hserves : o.handler.Serves k lk.body).eq_refresh hbind, hrenews⟩
  · exact absurd (h.claimed o.id (.inr a) ha) hid

/-- An observer of an object that is still there is there as well, unless it is that of a bind that
was evaluated again. -/
theorem Lasts.mem_or_renewed_of_mem {o : Observer} (ho : o ∈ net.observers)
    (halive : net.store.isAlive o.object = true) (halive' : net'.store.isAlive o.object = true) :
    o ∈ net'.observers ∨ net.Renewed net' o := by
  have hspared := hlasts.spares o ho (h.numbered o ho) halive halive'
  rcases h.serves o ho with ⟨k, lk, hlk, hlists, hserves⟩ | ⟨-, a, ha⟩
  · obtain ⟨lk', hlk', -, hsame | ⟨hbind, hrenews⟩⟩ := hlasts.link h h' hlk
    · exact .inl (hspared ⟨.inl k, lk', hlk', hsame ▸ hlists⟩)
    · exact .inr ⟨k, hserves.eq_refresh hbind, hrenews⟩
  · exact .inl (hspared ⟨.inr a, ha⟩)

open Classical in
/-- Apart from binds that were evaluated again, what is still there has the same observers. -/
theorem Lasts.observersOf_eq {id : Nat} (attr : String) (halive : net.store.isAlive id = true)
    (halive' : net'.store.isAlive id = true) :
    (net'.observersOf id attr).filter (fun o => ¬net.Renewed net' o)
      = (net.observersOf id attr).filter fun o => ¬net.Renewed net' o := by
  have : Std.Antisymm fun a b : Observer => a.id < b.id :=
    ⟨fun a b hab hba => absurd hab (Nat.lt_asymm hba)⟩
  have : Std.Irrefl fun a b : Observer => a.id < b.id := ⟨fun a => Nat.lt_irrefl a.id⟩
  have hsorted {net : Network} (hnet : (net.observers.map Observer.id).Pairwise (· < ·))
      (p : Observer → Bool) : ((net.observersOf id attr).filter p).Pairwise fun a b => a.id < b.id :=
    (List.pairwise_map.1 hnet).sublist (List.filter_sublist.trans List.filter_sublist)
  -- Both lists are in the order of the subscriptions, so it is enough that the members are the same.
  refine (hsorted h'.sorted _).eq_of_mem_iff (hsorted h.sorted _) fun o => ?_
  simp only [observersOf, List.mem_filter, Bool.and_eq_true, beq_iff_eq, decide_eq_true_eq]
  refine ⟨fun ⟨⟨ho, hid, hattr⟩, hnot⟩ => ⟨⟨?_, hid, hattr⟩, hnot⟩,
    fun ⟨⟨ho, hid, hattr⟩, hnot⟩ => ⟨⟨?_, hid, hattr⟩, hnot⟩⟩
  · exact (hlasts.mem_or_renewed h h' ho).resolve_right hnot
  · subst hid
    exact (hlasts.mem_or_renewed_of_mem h h' ho halive halive').resolve_right hnot

end

end Network

end ReactiveView
