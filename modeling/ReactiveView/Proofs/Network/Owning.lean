import ReactiveView.Proofs.Network.Links

/-!
This module contains who keeps what on a network. A binding is kept by a component or by the host, or
by a run of it that is in progress. A subscription belongs to the binding that lists it, or stands
on its own, for a component or for the host, and it belongs to nothing else.
-/

namespace ReactiveView

/-- A command that neither makes nor ends subscriptions and bindings. -/
def Command.Modest : Command → Prop
  | .observe .. | .unobserve .. | .connect .. | .drop .. => False
  | _ => True

/-- A command whose observer, if it makes one, runs modest commands. -/
def Command.Prudent : Command → Prop
  | .observe _ _ _ actions => ∀ c ∈ actions, c.Modest
  | _ => True

/-- Whether a binding is evaluated again on changes, and subscribed anew then. -/
def LinkBody.IsBind : LinkBody → Prop
  | .bind .. => True
  | _ => False

instance : DecidablePred LinkBody.IsBind
  | .bind .. => .isTrue trivial
  | .delegate | .notify .. => .isFalse id

namespace Handler

/-- The handler of a subscription of a binding. -/
def Serves (k : Nat) : LinkBody → Handler → Prop
  | .bind .., refresh j => j = k
  | .notify .., run j => j = k
  | .delegate, writeThrough .. => True
  | .delegate, writeBack .. => True
  | _, _ => False

/-- The handler of a subscription of no binding. Commands of the host that it runs are modest. -/
def Stands : Handler → Prop
  | hint _ => True
  | host _ actions => ∀ c ∈ actions, c.Modest
  | _ => False

variable {k : Nat} {body : LinkBody} {handler : Handler}

theorem Serves.within (h : handler.Serves k body) : handler.Within Command.Modest := by
  cases handler with
  | host => cases body <;> exact h.elim
  | _ => trivial

theorem serves_refresh (k : Nat) (hbind : body.IsBind) : (refresh k).Serves k body := by
  cases body with
  | bind => rfl
  | _ => exact hbind.elim

/-- A bind is subscribed to bring itself up to date. -/
theorem Serves.eq_refresh (h : handler.Serves k body) (hbind : body.IsBind) :
    handler = refresh k := by
  cases body with
  | bind =>
    cases handler with
    | refresh j => exact congrArg refresh h
    | _ => exact h.elim
  | _ => exact hbind.elim

theorem Stands.within (h : handler.Stands) : handler.Within Command.Modest := by
  cases handler with
  | host => exact h
  | _ => trivial

end Handler

/--
Who keeps bindings and subscriptions.
-/
inductive Keeper where
  /-- A component. -/
  | component (c : Nat)
  /-- A handle of the host. -/
  | handle (name : String)
  /-- The host itself. -/
  | host

/-- An object is alive, or it has not been made yet. -/
def Store.Spared (store : Store) (id : Nat) : Prop :=
  id < store.objects.size → store.isAlive id = true

theorem Store.lt_size_of_isAlive {store : Store} {id : Nat} (h : store.isAlive id = true) :
    id < store.objects.size := by
  refine Nat.lt_of_not_le fun hle => ?_
  unfold Store.isAlive at h
  rw [Array.getElem?_eq_none hle] at h
  cases h

namespace Network

/-- What each keeper keeps. -/
abbrev Keeping := Keeper → Nat → Prop

namespace Keeping

variable (K : Keeping)

/-- Somebody keeps it. -/
def Held (i : Nat) : Prop := ∃ a, K a i

/-- A keeper keeps one more. -/
def add (a : Keeper) (i : Nat) : Keeping := fun b j => K b j ∨ b = a ∧ j = i

theorem held_add_of_ne {K : Keeping} (a : Keeper) {i j : Nat} (h : j ≠ i) :
    (K.add a i).Held j ↔ K.Held j := by
  refine ⟨?_, fun ⟨b, hb⟩ => ⟨b, .inl hb⟩⟩
  rintro ⟨b, hb | ⟨-, hj⟩⟩
  · exact ⟨b, hb⟩
  · exact absurd hj h

/-- Nobody keeps one of a list any more. -/
def without (is : List Nat) : Keeping := fun a i => K a i ∧ i ∉ is

end Keeping

variable {K W : Keeping} {A : List Nat} {net net' net'' : Network} {k : Nat} {a : Keeper}

/-- A binding lists a subscription. -/
def Lists (net : Network) (k i : Nat) : Prop := ∃ lk, net.link? k = some lk ∧ i ∈ lk.subscriptions

/-- A subscription belongs to the binding that lists it, or to its keeper. -/
def Claims (net : Network) (W : Keeping) (i : Nat) : Nat ⊕ Keeper → Prop
  | .inl k => net.Lists k i
  | .inr a => W a i

/-- Subscriptions are numbered in their order, and none belongs to two bindings or keepers. -/
structure Allotted (W : Keeping) (net : Network) : Prop where
  sorted : (net.observers.map Observer.id).Pairwise (· < ·)
  numbered : net.Numbered
  claimed : ∀ i c, net.Claims W i c → i < net.nextObserver
  unique : ∀ i c d, net.Claims W i c → net.Claims W i d → c = d

theorem Allotted.mono {W' : Keeping} (h : net.Allotted W) (hW : ∀ a i, W' a i → W a i) :
    net.Allotted W' := by
  have hclaims (i : Nat) (c : Nat ⊕ Keeper) (hc : net.Claims W' i c) : net.Claims W i c := by
    cases c with
    | inl k => exact hc
    | inr a => exact hW a i hc
  exact ⟨h.sorted, h.numbered, fun i c hc => h.claimed i c (hclaims i c hc),
    fun i c d hc hd => h.unique i c d (hclaims i c hc) (hclaims i d hd)⟩

/-- Each subscription belongs to one binding or keeper, and its handler is one of theirs. -/
structure Listed (W : Keeping) (net : Network) : Prop extends Allotted W net where
  serves : ∀ o ∈ net.observers,
    (∃ k lk, net.link? k = some lk ∧ o.id ∈ lk.subscriptions ∧ o.handler.Serves k lk.body) ∨
      o.handler.Stands ∧ W.Held o.id

/-- Whether a binding is owned, and how many runs of it are in progress. -/
def life? (net : Network) (k : Nat) : Option (Bool × Nat) :=
  (net.link? k).map fun lk => (lk.owned, lk.running)

open Classical in
/-- How a binding lives with its keepers and with runs in progress. -/
noncomputable def lifeBy (K : Keeping) (A : List Nat) (k : Nat) : Option (Bool × Nat) :=
  if decide (K.Held k) || A.count k != 0 then some (decide (K.Held k), A.count k) else none

/-- A binding is there just if somebody keeps it or it is running, and it has one keeper at most. -/
structure Kept (K : Keeping) (A : List Nat) (net : Network) : Prop where
  life : ∀ k, net.life? k = lifeBy K A k
  keeper : ∀ a b k, K a k → K b k → a = b

/-- Bindings and subscriptions are kept. -/
structure Tidy (K W : Keeping) (A : List Nat) (net : Network) : Prop
    extends Listed W net, Kept K A net

/--
What the network looks like later. A subscription ends only with its object, or when it belongs to
nobody any more; only binds are subscribed anew.
-/
structure Lasts (W : Keeping) (net net' : Network) : Prop where
  objects : net.store.objects.size ≤ net'.store.objects.size
  alive : ∀ id < net.store.objects.size,
    net'.store.isAlive id = true → net.store.isAlive id = true
  count : net.links.size ≤ net'.links.size
  links : ∀ k < net.links.size, ∀ lk', net'.link? k = some lk' → ∃ lk, net.link? k = some lk ∧
    lk'.body = lk.body ∧ (lk'.subscriptions = lk.subscriptions ∨ lk.body.IsBind)
  next : net.nextObserver ≤ net'.nextObserver
  lists : ∀ k, ∀ i < net.nextObserver, net'.Lists k i → net.Lists k i
  old : ∀ o ∈ net'.observers, o.id < net.nextObserver → o ∈ net.observers
  spares : ∀ o ∈ net.observers, o.id < net.nextObserver → net.store.isAlive o.object = true →
    net'.store.isAlive o.object = true → (∃ c, net'.Claims W o.id c) → o ∈ net'.observers
  handles : net'.desk.handles = net.desk.handles

theorem lt_size_of_link? {lk : Link} (h : net.link? k = some lk) : k < net.links.size := by
  refine Nat.lt_of_not_le fun hle => ?_
  unfold link? at h
  rw [Array.getElem?_eq_none hle] at h
  cases h

theorem Lasts.refl (net : Network) : net.Lasts W net where
  objects := Nat.le_refl _
  alive _ _ h := h
  count := Nat.le_refl _
  links _ _ lk h := ⟨lk, h, rfl, .inl rfl⟩
  next := Nat.le_refl _
  lists _ _ _ h := h
  old _ h _ := h
  spares _ h _ _ _ _ := h
  handles := rfl

theorem Lasts.trans (h : net.Lasts W net') (h' : net'.Lasts W net'') : net.Lasts W net'' where
  objects := Nat.le_trans h.objects h'.objects
  alive id hid halive := h.alive id hid (h'.alive id (Nat.lt_of_lt_of_le hid h.objects) halive)
  count := Nat.le_trans h.count h'.count
  links k hk lk'' hlk'' := by
    obtain ⟨lk', hlk', hbody', hsame'⟩ := h'.links k (Nat.lt_of_lt_of_le hk h.count) lk'' hlk''
    obtain ⟨lk, hlk, hbody, hsame⟩ := h.links k hk lk' hlk'
    refine ⟨lk, hlk, hbody'.trans hbody, ?_⟩
    rcases hsame with hsame | hbind
    · rw [hsame, hbody] at hsame'
      exact hsame'
    · exact .inr hbind
  next := Nat.le_trans h.next h'.next
  lists k i hi hlists := h.lists k i hi (h'.lists k i (Nat.lt_of_lt_of_le hi h.next) hlists)
  old o ho hid := h.old o (h'.old o ho (Nat.lt_of_lt_of_le hid h.next)) hid
  spares o ho hid halive halive'' hclaims := by
    have hid' := Nat.lt_of_lt_of_le hid h.next
    have halive' := h'.alive o.object
      (Nat.lt_of_lt_of_le (Store.lt_size_of_isAlive halive) h.objects) halive''
    obtain ⟨c, hc⟩ := hclaims
    -- A subscription this old can be listed at the end only by a binding that listed it in between.
    have hclaimed : net'.Claims W o.id c := by
      cases c with
      | inl k => exact h'.lists k o.id hid' hc
      | inr a => exact hc
    exact h'.spares o (h.spares o ho hid halive halive' ⟨c, hclaimed⟩) hid' halive' halive'' ⟨c, hc⟩
  handles := h'.handles.trans h.handles

theorem Lasts.mono {W' : Keeping} (h : net.Lasts W net') (hW : ∀ a i, W' a i → W a i) :
    net.Lasts W' net' :=
  { h with
    spares := by
      rintro o ho hid halive halive' ⟨c, hc⟩
      refine h.spares o ho hid halive halive' ⟨c, ?_⟩
      cases c with
      | inl k => exact hc
      | inr a => exact hW a _ hc }

/-- A step after which things are kept, and that the subscriptions before outlast. -/
structure Tidied (W : Keeping) (net : Network) (K : Keeping) (A : List Nat) (net' : Network) : Prop where
  tidy : net'.Tidy K W A
  lasts : net.Lasts W net'

theorem Tidy.refl (h : net.Tidy K W A) : Tidied W net K A net := ⟨h, .refl net⟩

theorem Tidied.bind {K' : Keeping} {A' : List Nat} (h : Tidied W net K A net')
    (h' : net'.Tidy K W A → Tidied W net' K' A' net'') : Tidied W net K' A' net'' :=
  ⟨(h' h.tidy).tidy, h.lasts.trans (h' h.tidy).lasts⟩

/-! ### Steps that only take away -/

/-- No subscription and no binding is new. Subscriptions end with their objects, or belong to nobody
any more. -/
structure Ebbs (W : Keeping) (net net' : Network) : Prop where
  objects : net'.store.objects.size = net.store.objects.size
  alive : ∀ id, net'.store.isAlive id = true → net.store.isAlive id = true
  count : net'.links.size = net.links.size
  links : ∀ k lk', net'.link? k = some lk' → ∃ lk, net.link? k = some lk ∧ lk'.body = lk.body ∧
    (lk'.subscriptions = lk.subscriptions ∨ lk.body.IsBind ∧ lk'.subscriptions = [])
  next : net'.nextObserver = net.nextObserver
  observers : net'.observers.Sublist net.observers
  serves : ∀ o ∈ net'.observers, ∀ k, net.Lists k o.id → net'.Lists k o.id
  spares : ∀ o ∈ net.observers, net'.store.Spared o.object →
    (∃ c, net'.Claims W o.id c) → o ∈ net'.observers
  handles : net'.desk.handles = net.desk.handles

theorem Ebbs.lists {i : Nat} (h : net.Ebbs W net') (hlists : net'.Lists k i) : net.Lists k i := by
  obtain ⟨lk', hlk', hi⟩ := hlists
  obtain ⟨lk, hlk, -, hsame | ⟨-, hnil⟩⟩ := h.links k lk' hlk'
  · exact ⟨lk, hlk, hsame ▸ hi⟩
  · rw [hnil] at hi
    cases hi

theorem Ebbs.claims {i : Nat} {c : Nat ⊕ Keeper} (h : net.Ebbs W net') (hc : net'.Claims W i c) :
    net.Claims W i c := by
  cases c with
  | inl k => exact h.lists hc
  | inr a => exact hc

theorem Ebbs.spared {id : Nat} (h : net.Ebbs W net') (hid : net'.store.Spared id) :
    net.store.Spared id :=
  fun hlt => h.alive id (hid (h.objects ▸ hlt))

theorem Ebbs.refl (net : Network) : net.Ebbs W net :=
  ⟨rfl, fun _ h => h, rfl, fun _ lk h => ⟨lk, h, rfl, .inl rfl⟩, rfl, .refl _, fun _ _ _ h => h,
    fun _ h _ _ => h, rfl⟩

theorem Ebbs.trans (h : net.Ebbs W net') (h' : net'.Ebbs W net'') : net.Ebbs W net'' where
  objects := h'.objects.trans h.objects
  alive id halive := h.alive id (h'.alive id halive)
  count := h'.count.trans h.count
  links k lk'' hlk'' := by
    obtain ⟨lk', hlk', hbody', hsame'⟩ := h'.links k lk'' hlk''
    obtain ⟨lk, hlk, hbody, hsame⟩ := h.links k lk' hlk'
    refine ⟨lk, hlk, hbody'.trans hbody, ?_⟩
    rcases hsame' with hsame' | ⟨hbind, hnil⟩
    · rwa [hsame']
    · exact .inr ⟨hbody ▸ hbind, hnil⟩
  next := h'.next.trans h.next
  observers := h'.observers.trans h.observers
  serves o ho k hk := h'.serves o ho k (h.serves o (h'.observers.subset ho) k hk)
  spares o ho hspared := by
    rintro ⟨c, hc⟩
    exact h'.spares o (h.spares o ho (h'.spared hspared) ⟨c, h'.claims hc⟩) hspared ⟨c, hc⟩
  handles := h'.handles.trans h.handles

theorem Ebbs.lasts (h : net.Ebbs W net') : net.Lasts W net' where
  objects := Nat.le_of_eq h.objects.symm
  alive id _ := h.alive id
  count := Nat.le_of_eq h.count.symm
  links k _ lk' hlk' := by
    obtain ⟨lk, hlk, hbody, hsame⟩ := h.links k lk' hlk'
    exact ⟨lk, hlk, hbody, hsame.imp_right And.left⟩
  next := Nat.le_of_eq h.next.symm
  lists _ _ _ := h.lists
  old o ho _ := h.observers.subset ho
  spares o ho _ _ halive := h.spares o ho fun _ => halive
  handles := h.handles

theorem Allotted.ebb (h : net.Allotted W) (he : net.Ebbs W net') : net'.Allotted W where
  sorted := h.sorted.sublist (he.observers.map _)
  numbered o ho := he.next ▸ h.numbered o (he.observers.subset ho)
  claimed i c hc := he.next ▸ h.claimed i c (he.claims hc)
  unique i c d hc hd := h.unique i c d (he.claims hc) (he.claims hd)

theorem Listed.ebb (h : net.Listed W) (he : net.Ebbs W net') : net'.Listed W where
  toAllotted := h.toAllotted.ebb he
  serves o ho := by
    refine (h.serves o (he.observers.subset ho)).imp_left ?_
    rintro ⟨k, lk, hlk, hid, hserves⟩
    obtain ⟨lk', hlk', hid'⟩ := he.serves o ho k ⟨lk, hlk, hid⟩
    obtain ⟨old, hold, hbody, -⟩ := he.links k lk' hlk'
    cases hlk.symm.trans hold
    exact ⟨k, lk', hlk', hid', hbody ▸ hserves⟩

theorem Kept.congr (h : net.Kept K A) (hlife : net'.life? = net.life?) : net'.Kept K A :=
  ⟨fun k => (congrFun hlife k).trans (h.life k), h.keeper⟩

theorem Tidy.ebb (h : net.Tidy K W A) (he : net.Ebbs W net') (hlife : net'.life? = net.life?) :
    Tidied W net K A net' :=
  ⟨⟨h.toListed.ebb he, h.toKept.congr hlife⟩, he.lasts⟩

/-- Where subscriptions and bindings are the same there is nothing to look at. -/
theorem ebbs_of_same (hsize : net'.store.objects.size = net.store.objects.size)
    (halive : ∀ id, net'.store.isAlive id = true → net.store.isAlive id = true)
    (hlinks : net'.links = net.links) (hnext : net'.nextObserver = net.nextObserver)
    (hobservers : net'.observers = net.observers)
    (hhandles : net'.desk.handles = net.desk.handles) : net.Ebbs W net' := by
  have hlink : net'.link? = net.link? := by
    funext k
    unfold link?
    rw [hlinks]
  refine ⟨hsize, halive, congrArg Array.size hlinks, fun k lk hlk => ⟨lk, ?_, rfl, .inl rfl⟩, hnext,
    ?_, fun o _ k hk => ?_, fun o ho _ _ => hobservers ▸ ho, hhandles⟩
  · rwa [← hlink]
  · exact hobservers ▸ .refl _
  · unfold Lists at hk ⊢
    rwa [hlink]

theorem life?_congr (hlinks : net'.links = net.links) : net'.life? = net.life? := by
  funext k
  unfold life? link?
  rw [hlinks]

theorem Tidy.same (h : net.Tidy K W A) (hsize : net'.store.objects.size = net.store.objects.size)
    (halive : ∀ id, net'.store.isAlive id = true → net.store.isAlive id = true)
    (hlinks : net'.links = net.links) (hnext : net'.nextObserver = net.nextObserver)
    (hobservers : net'.observers = net.observers)
    (hhandles : net'.desk.handles = net.desk.handles) : Tidied W net K A net' := by
  exact h.ebb (ebbs_of_same hsize halive hlinks hnext hobservers hhandles) (life?_congr hlinks)

theorem Tidy.echoes (h : net.Tidy K W A) (hecho : net.Echoes net') : Tidied W net K A net' :=
  h.same (by rw [hecho.store]) (fun _ halive => hecho.store ▸ halive) hecho.links hecho.nextObserver
    hecho.observers (congrArg Desk.handles hecho.desk)

theorem Tidy.hold (h : net.Tidy K W A) (ids : List Nat) : Tidied W net K A (net.hold ids) :=
  h.same rfl (fun _ h => h) rfl rfl rfl rfl

theorem Tidy.evaluated (h : net.Tidy K W A) (scope : Scope) (e : Expr) :
    Tidied W net K A (net.evaluated scope e) :=
  h.same rfl (fun _ h => h) rfl rfl rfl rfl

theorem Tidy.put (h : net.Tidy K W A) (o : ObjectRef) (attr : String) (v : Value) :
    Tidied W net K A { net with store := net.store.put o attr v } :=
  h.same Store.size_put (fun id halive => by rwa [Store.isAlive_put] at halive) rfl rfl rfl rfl

theorem ebbs_free {id : Nat} (hid : id < net.store.objects.size) : net.Ebbs W (net.free id) where
  objects := Store.size_free
  alive id' halive := by
    change (net.store.free id).isAlive id' = true at halive
    rw [Store.isAlive_free, Bool.and_eq_true] at halive
    exact halive.2
  count := rfl
  links k lk hlk := ⟨lk, hlk, rfl, .inl rfl⟩
  next := rfl
  observers := List.filter_sublist
  serves _ _ _ hk := hk
  spares o ho hspared _ := by
    refine List.mem_filter.2 ⟨ho, bne_iff_ne.2 ?_⟩
    rintro rfl
    have halive : (net.store.free o.object).isAlive o.object = true :=
      hspared (Nat.lt_of_lt_of_eq hid Store.size_free.symm)
    rw [Store.isAlive_free, Bool.and_eq_true] at halive
    exact bne_iff_ne.1 halive.1 rfl
  handles := rfl

theorem ebbs_foldl_free {ids : List Nat} (h : ∀ id ∈ ids, id < net.store.objects.size) :
    net.Ebbs W (ids.foldl free net) := by
  induction ids generalizing net with
  | nil => exact .refl net
  | cons id rest ih =>
    obtain ⟨hid, hrest⟩ := List.forall_mem_cons.1 h
    have hfree : net.Ebbs W (net.free id) := ebbs_free hid
    exact hfree.trans (ih fun id hid => hfree.objects ▸ hrest id hid)

theorem ebbs_sweep : net.Ebbs W net.sweep :=
  sweep_induction (fun _ _ hids he => he.trans (ebbs_foldl_free fun id hid =>
    List.mem_range.1 (List.mem_filter.1 (hids id hid)).1)) (.refl net)

@[simp]
theorem links_sweep (net : Network) : net.sweep.links = net.links := by
  have hfree (ids : List Nat) (net : Network) : (ids.foldl free net).links = net.links := by
    induction ids generalizing net with
    | nil => rfl
    | cons id rest ih => exact ih _
  exact sweep_induction (Q := fun n => n.links = net.links)
    (fun _ ids _ he => (hfree ids _).trans he) rfl

theorem link?_sweep (net : Network) : net.sweep.link? = net.link? := by
  funext k
  unfold link?
  rw [links_sweep]

theorem life?_sweep (net : Network) : net.sweep.life? = net.life? := by
  unfold life?
  rw [link?_sweep]

theorem Tidy.sweep (h : net.Tidy K W A) : Tidied W net K A net.sweep :=
  h.ebb ebbs_sweep (life?_sweep net)

theorem Tidy.letGo (h : net.Tidy K W A) (busy : List Nat) : Tidied W net K A (net.letGo busy) :=
  have hleft : Tidied W net K A { net with busy } := h.same rfl (fun _ h => h) rfl rfl rfl rfl
  hleft.bind Tidy.sweep

/-! ### Life of bindings -/

theorem life?_modifyLink (net : Network) (k : Nat) {f : Link → Link} {g : Bool × Nat → Bool × Nat}
    (hf : ∀ l, ((f l).owned, (f l).running) = g (l.owned, l.running)) (j : Nat) :
    (net.modifyLink k f).life? j = if k = j then (net.life? j).map g else net.life? j := by
  unfold life?
  rw [link?_modifyLink]
  split
  · cases net.link? j with
    | none => rfl
    | some l => exact congrArg some (hf l)
  · rfl

theorem ebbs_modifyLink (k : Nat) {f : Link → Link} (hbody : ∀ l, (f l).body = l.body)
    (hsubs : ∀ l, (f l).subscriptions = l.subscriptions) : net.Ebbs W (net.modifyLink k f) := by
  have hlink (j : Nat) (lk' : Link) (h : (net.modifyLink k f).link? j = some lk') :
      ∃ lk, net.link? j = some lk ∧ lk'.body = lk.body ∧ lk'.subscriptions = lk.subscriptions := by
    rw [link?_modifyLink] at h
    split at h
    · obtain ⟨lk, hlk, rfl⟩ := Option.map_eq_some_iff.1 h
      exact ⟨lk, hlk, hbody lk, hsubs lk⟩
    · exact ⟨lk', h, rfl, rfl⟩
  refine ⟨rfl, fun _ h => h, Array.size_modify, fun j lk' h => ?_, rfl, .refl _, fun o _ j hj => ?_,
    fun _ h _ _ => h, rfl⟩
  · obtain ⟨lk, hlk, hsame, hsubs⟩ := hlink j lk' h
    exact ⟨lk, hlk, hsame, .inl hsubs⟩
  · obtain ⟨lk, hlk, hi⟩ := hj
    unfold Lists
    rw [link?_modifyLink]
    split
    · exact ⟨f lk, by rw [hlk]; rfl, (hsubs lk).symm ▸ hi⟩
    · exact ⟨lk, hlk, hi⟩

/-- All that a binding lists ends when it is subscribed anew or cut. -/
theorem ebbs_of_disconnect (h : net.Allotted W)
    (hstore : net'.store = net.store) (hcount : net'.links.size = net.links.size)
    (hlinks : ∀ j, k ≠ j → net'.link? j = net.link? j)
    (hself : ∀ lk', net'.link? k = some lk' → lk'.subscriptions = [] ∧
      ∃ lk, net.link? k = some lk ∧ lk'.body = lk.body ∧ lk.body.IsBind)
    (hnext : net'.nextObserver = net.nextObserver)
    (hobservers : net'.observers = (net.disconnect k).observers)
    (hhandles : net'.desk.handles = net.desk.handles) : net.Ebbs W net' := by
  have hlists (i : Nat) : ¬net'.Lists k i := by
    rintro ⟨lk', hlk', hi⟩
    rw [(hself lk' hlk').1] at hi
    cases hi
  have hsublist : (net.disconnect k).observers.Sublist net.observers := by
    rcases hk : net.link? k with _ | lk
    · exact (disconnect_of_none hk).symm ▸ .refl _
    · rw [disconnect_of_some hk]
      exact List.filter_sublist
  refine ⟨by rw [hstore], fun id halive => hstore ▸ halive, hcount, fun j lk' hlk' => ?_, hnext,
    hobservers ▸ hsublist, fun o ho j hj => ?_, fun o ho _ hclaims => ?_, hhandles⟩
  · by_cases hj : k = j
    · subst hj
      obtain ⟨hnil, lk, hlk, hbody, hbind⟩ := hself lk' hlk'
      exact ⟨lk, hlk, hbody, .inr ⟨hbind, hnil⟩⟩
    · exact ⟨lk', hlinks j hj ▸ hlk', rfl, .inl rfl⟩
  · rw [hobservers] at ho
    obtain ⟨lk, hlk, hi⟩ := hj
    by_cases hk : k = j
    · subst hk
      exact absurd hi ((mem_observers_disconnect.1 ho).2 lk hlk)
    · exact ⟨lk, (hlinks j hk).trans hlk, hi⟩
  · rw [hobservers]
    refine mem_observers_disconnect.2 ⟨ho, fun lk hlk hi => ?_⟩
    obtain ⟨c, hc⟩ := hclaims
    have hmine : net.Claims W o.id (.inl k) := ⟨lk, hlk, hi⟩
    cases c with
    | inr a => cases h.unique o.id (.inl k) (.inr a) hmine hc
    | inl j =>
      by_cases hj : k = j
      · subst hj
        exact hlists _ hc
      · obtain ⟨lk', hlk', hi'⟩ := hc
        exact hj (Sum.inl.inj (h.unique o.id (.inl k) (.inl j) hmine ⟨lk', hlinks j hj ▸ hlk', hi'⟩))

theorem size_links_disconnect (net : Network) (k : Nat) :
    (net.disconnect k).links.size = net.links.size := by
  rcases hk : net.link? k with _ | lk
  · rw [disconnect_of_none hk]
  · rw [disconnect_of_some hk]
    exact Array.size_modify

theorem desk_disconnect (net : Network) (k : Nat) : (net.disconnect k).desk = net.desk := by
  rcases hk : net.link? k with _ | lk
  · rw [disconnect_of_none hk]
  · rw [disconnect_of_some hk]

theorem ebbs_disconnect (h : net.Allotted W) (hbind : ∀ lk, net.link? k = some lk → lk.body.IsBind) :
    net.Ebbs W (net.disconnect k) := by
  refine ebbs_of_disconnect (k := k) h store_disconnect (size_links_disconnect net k)
    (fun j hj => ?_) (fun lk' hlk' => ?_) (wanes_disconnect k).nextObserver rfl
    (congrArg Desk.handles (desk_disconnect net k))
  · rw [link?_disconnect, if_neg hj]
  · rw [link?_disconnect, if_pos rfl] at hlk'
    obtain ⟨lk, hlk, rfl⟩ := Option.map_eq_some_iff.1 hlk'
    exact ⟨rfl, lk, hlk, rfl, hbind lk hlk⟩

theorem ebbs_settleLink (h : net.Allotted W) (k : Nat) : net.Ebbs W (net.settleLink k) := by
  rcases settleLink_eq net k with heq | heq
  · rw [heq]
    exact .refl net
  · rw [heq]
    suffices hcut : net.Ebbs W ((net.disconnect k).withoutLink k) from hcut.trans ebbs_sweep
    refine ebbs_of_disconnect (k := k) h store_disconnect
      (Array.size_modify.trans (size_links_disconnect net k)) (fun j hj => ?_) (fun lk' hlk' => ?_)
      (wanes_disconnect k).nextObserver rfl (congrArg Desk.handles (desk_disconnect net k))
    · rw [link?_withoutLink, if_neg hj, link?_disconnect, if_neg hj]
    · rw [link?_withoutLink, if_pos rfl] at hlk'
      cases hlk'

theorem life?_disconnect (net : Network) (k : Nat) : (net.disconnect k).life? = net.life? := by
  funext j
  unfold life?
  rw [link?_disconnect]
  split
  · rw [Option.map_map]
    rfl
  · rfl

/-- A binding that is neither owned nor running is cut. -/
theorem life?_settleLink (net : Network) (k j : Nat) : (net.settleLink k).life? j
    = if k = j then (net.life? j).filter fun x => x.1 || x.2 != 0 else net.life? j := by
  unfold settleLink
  split
  · next hk =>
    split
    · next he =>
      subst he
      unfold life?
      rw [hk]
      rfl
    · rfl
  · next lk hk =>
    split
    · next hkept =>
      split
      · next he =>
        subst he
        unfold life?
        rw [hk, Option.map_some, Option.filter_some, if_pos hkept]
      · rfl
    · next hcut =>
      rw [life?_sweep]
      change ((net.disconnect k).withoutLink k).life? j = _
      unfold life?
      rw [link?_withoutLink]
      split
      · next he =>
        subst he
        rw [hk, Option.map_some, Option.filter_some, if_neg hcut]
        rfl
      · next hne => rw [link?_disconnect, if_neg hne]

/-! ### Keepers -/

theorem lifeBy_congr {K' : Keeping} {A' : List Nat} (hK : K.Held k ↔ K'.Held k)
    (hA : A.count k = A'.count k) : lifeBy K A k = lifeBy K' A' k := by
  unfold lifeBy
  rw [hA, propext hK]

theorem lifeBy_eq_none_iff : lifeBy K A k = none ↔ ¬K.Held k ∧ k ∉ A := by
  unfold lifeBy
  simp [List.count_eq_zero]

theorem Kept.link?_eq_none_iff (h : net.Kept K A) : net.link? k = none ↔ ¬K.Held k ∧ k ∉ A := by
  rw [← lifeBy_eq_none_iff, ← h.life]
  exact Option.map_eq_none_iff.symm

theorem Kept.exists_link? (h : net.Kept K A) (hk : K.Held k ∨ k ∈ A) :
    ∃ lk, net.link? k = some lk := by
  refine Option.ne_none_iff_exists'.1 fun hnone => ?_
  obtain ⟨hheld, hrunning⟩ := h.link?_eq_none_iff.1 hnone
  exact hk.elim hheld hrunning

theorem Kept.lt_size (h : net.Kept K A) (hk : K.Held k ∨ k ∈ A) : k < net.links.size :=
  lt_size_of_link? (h.exists_link? hk).choose_spec

/-- Where there is nothing, there is nothing to keep. -/
theorem kept_of_empty (hlinks : net.links = #[]) (hK : ∀ a k, ¬K a k) : net.Kept K [] := by
  refine ⟨fun k => ?_, fun a _ k h => (hK a k h).elim⟩
  rw [lifeBy_eq_none_iff.2 ⟨fun ⟨a, h⟩ => hK a k h, List.not_mem_nil⟩]
  unfold life? link?
  rw [hlinks]
  rfl

theorem allotted_of_empty (hobservers : net.observers = []) (hlinks : net.links = #[])
    (hW : ∀ a i, ¬W a i) : net.Allotted W := by
  have hlink (k : Nat) : net.link? k = none := by
    unfold link?
    rw [hlinks]
    rfl
  have hclaims (i : Nat) (c : Nat ⊕ Keeper) : ¬net.Claims W i c := by
    cases c with
    | inl k => exact fun ⟨_, hlk, _⟩ => nomatch (hlink k).symm.trans hlk
    | inr a => exact hW a i
  refine ⟨?_, ?_, fun i c h => (hclaims i c h).elim, fun i c _ h => (hclaims i c h).elim⟩
  · rw [hobservers]
    exact .nil
  · unfold Numbered
    rw [hobservers]
    nofun

theorem tidy_of_empty (hobservers : net.observers = []) (hlinks : net.links = #[])
    (hK : ∀ a k, ¬K a k) (hW : ∀ a i, ¬W a i) : net.Tidy K W [] := by
  refine ⟨⟨allotted_of_empty hobservers hlinks hW, ?_⟩, kept_of_empty hlinks hK⟩
  rw [hobservers]
  nofun

theorem Kept.enterLink {lk : Link} (h : net.Kept K A) (hk : net.link? k = some lk) :
    (net.enterLink k).Kept K (k :: A) := by
  refine ⟨fun j => ?_, h.keeper⟩
  refine (life?_modifyLink net k (g := fun x => (x.1, x.2 + 1)) (fun _ => rfl) j).trans ?_
  split
  · next hj =>
    subst hj
    have hlife : net.life? k = some (lk.owned, lk.running) := congrArg (Option.map _) hk
    rw [h.life, lifeBy] at hlife
    rw [h.life, lifeBy, lifeBy, List.count_cons_self]
    split at hlife
    · next hkept => rw [if_pos hkept, if_pos (by simp)]; rfl
    · cases hlife
  · next hj =>
    rw [h.life]
    exact lifeBy_congr Iff.rfl (List.count_cons_of_ne hj).symm

theorem Kept.leaveLink (h : net.Kept K (k :: A)) : (net.leaveLink k).Kept K A := by
  refine ⟨fun j => (life?_settleLink _ k j).trans ?_, h.keeper⟩
  rw [life?_modifyLink net k (g := fun x => (x.1, x.2 - 1)) (fun _ => rfl), h.life]
  by_cases hj : k = j
  · subst hj
    rw [if_pos rfl, if_pos rfl, lifeBy, lifeBy, List.count_cons_self, if_pos (by simp),
      Option.map_some, Option.filter_some, Nat.add_sub_cancel]
  · rw [if_neg hj, if_neg hj]
    exact lifeBy_congr Iff.rfl (List.count_cons_of_ne hj)

/-- A binding that its keeper gives up is nobody's any more. -/
theorem Kept.dropLink (h : net.Kept K A) (k : Nat) : (net.dropLink k).Kept (K.without [k]) A := by
  refine ⟨fun j => (life?_settleLink _ k j).trans ?_, fun a b j ha hb => h.keeper a b j ha.1 hb.1⟩
  rw [life?_modifyLink net k (g := fun x => (false, x.2)) (fun _ => rfl), h.life]
  by_cases hj : k = j
  · subst hj
    have hnone : ¬(K.without [k]).Held k := fun ⟨_, _, hk⟩ => hk (List.mem_singleton_self k)
    rw [if_pos rfl, if_pos rfl, lifeBy, lifeBy]
    by_cases hk : A.count k = 0
    · by_cases hheld : K.Held k <;> simp [hk, hnone, hheld]
    · simp [hk, hnone]
  · rw [if_neg hj, if_neg hj]
    refine lifeBy_congr ⟨fun ⟨a, ha⟩ => ⟨a, ha, fun hmem => hj ?_⟩, fun ⟨a, ha⟩ => ⟨a, ha.1⟩⟩ rfl
    exact (List.mem_singleton.1 hmem).symm

theorem Kept.keeper_add (h : net.Kept K A) (hnone : ¬K.Held k) (a : Keeper) :
    ∀ b c j, K.add a k b j → K.add a k c j → b = c := by
  rintro b c j (hb | ⟨rfl, rfl⟩) (hc | ⟨rfl, hj⟩)
  · exact h.keeper b c j hb hc
  · exact absurd ⟨b, hj ▸ hb⟩ hnone
  · exact absurd ⟨c, hc⟩ hnone
  · rfl

/-- A binding that is running gets a keeper. -/
theorem Kept.ownLink (h : net.Kept K A) (hk : k ∈ A) (hnone : ¬K.Held k) (a : Keeper) :
    (net.ownLink k).Kept (K.add a k) A := by
  refine ⟨fun j => ?_, h.keeper_add hnone a⟩
  refine (life?_modifyLink net k (g := fun x => (true, x.2)) (fun _ => rfl) j).trans ?_
  rw [h.life]
  split
  · next hj =>
    subst hj
    have hheld : (K.add a k).Held k := ⟨a, .inr ⟨rfl, rfl⟩⟩
    have hcount : A.count k ≠ 0 := fun hzero => List.count_eq_zero.1 hzero hk
    simp [lifeBy, hheld, hcount]
  · next hj => exact lifeBy_congr (Keeping.held_add_of_ne a (Ne.symm hj)).symm rfl

theorem ebbs_enterLink (k : Nat) : net.Ebbs W (net.enterLink k) :=
  ebbs_modifyLink k (fun _ => rfl) fun _ => rfl

theorem ebbs_ownLink (k : Nat) : net.Ebbs W (net.ownLink k) :=
  ebbs_modifyLink k (fun _ => rfl) fun _ => rfl

theorem ebbs_leaveLink (h : net.Allotted W) (k : Nat) : net.Ebbs W (net.leaveLink k) := by
  have hleft : net.Ebbs W (net.modifyLink k fun l => { l with running := l.running - 1 }) :=
    ebbs_modifyLink k (fun _ => rfl) fun _ => rfl
  exact hleft.trans (ebbs_settleLink (h.ebb hleft) k)

theorem ebbs_dropLink (h : net.Allotted W) (k : Nat) : net.Ebbs W (net.dropLink k) := by
  have hleft : net.Ebbs W (net.modifyLink k fun l => { l with owned := false }) :=
    ebbs_modifyLink k (fun _ => rfl) fun _ => rfl
  exact hleft.trans (ebbs_settleLink (h.ebb hleft) k)

theorem Tidy.enterLink {lk : Link} (h : net.Tidy K W A) (hk : net.link? k = some lk) :
    Tidied W net K (k :: A) (net.enterLink k) :=
  ⟨⟨h.toListed.ebb (ebbs_enterLink k), h.toKept.enterLink hk⟩, (ebbs_enterLink k).lasts⟩

theorem Tidy.leaveLink (h : net.Tidy K W (k :: A)) : Tidied W net K A (net.leaveLink k) := by
  have he := ebbs_leaveLink h.toAllotted k
  exact ⟨⟨h.toListed.ebb he, h.toKept.leaveLink⟩, he.lasts⟩

theorem Tidy.ownLink (h : net.Tidy K W A) (hk : k ∈ A) (hnone : ¬K.Held k) (a : Keeper) :
    Tidied W net (K.add a k) A (net.ownLink k) :=
  ⟨⟨h.toListed.ebb (ebbs_ownLink k), h.toKept.ownLink hk hnone a⟩, (ebbs_ownLink k).lasts⟩

/-! ### Steps that add -/

/-- A binding that lists no subscription yet gets new ones. It is a bind, or new itself. -/
structure Enlists (net : Network) (k : Nat) (lk : Link) (news : List Observer) (net' : Network) :
    Prop where
  ids : news.map Observer.id = List.range' net.nextObserver news.length
  observers : net'.observers = net.observers ++ news
  next : net'.nextObserver = net.nextObserver + news.length
  links : ∀ j, net'.link? j = if j = k then some lk else net.link? j
  count : net.links.size ≤ net'.links.size
  lists : lk.subscriptions = news.map Observer.id
  serves : ∀ o ∈ news, o.handler.Serves k lk.body
  before : k = net.links.size ∨ ∃ old, net.link? k = some old ∧ old.subscriptions = [] ∧
    lk.body = old.body ∧ old.body.IsBind
  store : net'.store = net.store
  handles : net'.desk.handles = net.desk.handles

section

variable {lk : Link} {news : List Observer} {i j : Nat}

theorem Enlists.mem_ids_iff (he : net.Enlists k lk news net') :
    i ∈ news.map Observer.id ↔ net.nextObserver ≤ i ∧ i < net'.nextObserver := by
  rw [he.ids, List.mem_range'_1, he.next]

theorem Enlists.not_lists (he : net.Enlists k lk news net') : ¬net.Lists k i := by
  rintro ⟨old, hold, hi⟩
  rcases he.before with rfl | ⟨old', hold', hnil, -⟩
  · exact absurd (lt_size_of_link? hold) (Nat.lt_irrefl _)
  · cases hold.symm.trans hold'
    rw [hnil] at hi
    cases hi

theorem Enlists.lists_iff (he : net.Enlists k lk news net') : net'.Lists j i ↔
    net.Lists j i ∨ j = k ∧ net.nextObserver ≤ i ∧ i < net'.nextObserver := by
  rw [← he.mem_ids_iff, ← he.lists]
  by_cases hj : j = k
  · subst hj
    rw [or_iff_right he.not_lists, and_iff_right rfl]
    unfold Lists
    rw [he.links, if_pos rfl]
    exact ⟨fun ⟨_, h, hi⟩ => Option.some.inj h ▸ hi, fun hi => ⟨lk, rfl, hi⟩⟩
  · unfold Lists
    rw [he.links, if_neg hj]
    exact ⟨.inl, fun h => h.resolve_right fun h => hj h.1⟩

theorem Allotted.enlist (h : net.Allotted W) (he : net.Enlists k lk news net') :
    net'.Allotted W := by
  have hnext : net.nextObserver ≤ net'.nextObserver := he.next ▸ Nat.le_add_right ..
  have hclaims (i : Nat) (c : Nat ⊕ Keeper) (hc : net'.Claims W i c) : net.Claims W i c ∨
      c = .inl k ∧ net.nextObserver ≤ i ∧ i < net'.nextObserver := by
    cases c with
    | inl j => exact (he.lists_iff.1 hc).imp_right (.imp_left (congrArg Sum.inl))
    | inr a => exact .inl hc
  refine ⟨?_, fun o ho => ?_, fun i c hc => ?_, fun i c d hc hd => ?_⟩
  · rw [he.observers, List.map_append, he.ids]
    refine List.pairwise_append.2 ⟨h.sorted, List.pairwise_lt_range', fun i hi j hj => ?_⟩
    obtain ⟨o, ho, rfl⟩ := List.mem_map.1 hi
    exact Nat.lt_of_lt_of_le (h.numbered o ho) (List.mem_range'_1.1 hj).1
  · rw [he.observers] at ho
    rcases List.mem_append.1 ho with ho | ho
    · exact Nat.lt_of_lt_of_le (h.numbered o ho) hnext
    · exact (he.mem_ids_iff.1 (List.mem_map_of_mem ho)).2
  · rcases hclaims i c hc with hold | ⟨-, -, hlt⟩
    · exact Nat.lt_of_lt_of_le (h.claimed i c hold) hnext
    · exact hlt
  · rcases hclaims i c hc with hc | ⟨rfl, hle, -⟩ <;> rcases hclaims i d hd with hd | ⟨rfl, hle', -⟩
    · exact h.unique i c d hc hd
    · exact absurd (h.claimed i c hc) (Nat.not_lt.2 hle')
    · exact absurd (h.claimed i d hd) (Nat.not_lt.2 hle)
    · rfl

theorem Listed.enlist (h : net.Listed W) (he : net.Enlists k lk news net') : net'.Listed W where
  toAllotted := h.toAllotted.enlist he
  serves o ho := by
    rw [he.observers] at ho
    rcases List.mem_append.1 ho with ho | ho
    · refine (h.serves o ho).imp_left ?_
      rintro ⟨j, old, hold, hi, hserves⟩
      refine ⟨j, old, ?_, hi, hserves⟩
      rw [he.links, if_neg, hold]
      rintro rfl
      exact he.not_lists ⟨old, hold, hi⟩
    · refine .inl ⟨k, lk, ?_, he.lists ▸ List.mem_map_of_mem ho, he.serves o ho⟩
      rw [he.links, if_pos rfl]

theorem Enlists.lasts (he : net.Enlists k lk news net') : net.Lasts W net' where
  objects := Nat.le_of_eq (by rw [he.store])
  alive _ _ halive := he.store ▸ halive
  count := he.count
  links j hj lk' hlk' := by
    rw [he.links] at hlk'
    split at hlk'
    · next heq =>
      subst heq
      cases hlk'
      rcases he.before with rfl | ⟨old, hold, -, hbody, hbind⟩
      · exact absurd hj (Nat.lt_irrefl _)
      · exact ⟨old, hold, hbody, .inr hbind⟩
    · exact ⟨lk', hlk', rfl, .inl rfl⟩
  next := he.next ▸ Nat.le_add_right ..
  lists j i hi hlists := (he.lists_iff.1 hlists).resolve_right fun h => Nat.not_lt.2 h.2.1 hi
  old o ho hi := by
    rw [he.observers] at ho
    refine (List.mem_append.1 ho).resolve_right fun hnew => ?_
    exact Nat.not_lt.2 (he.mem_ids_iff.1 (List.mem_map_of_mem hnew)).1 hi
  spares o ho _ _ _ _ := he.observers ▸ List.mem_append_left _ ho
  handles := he.handles

theorem Enlists.life?_of_ne (he : net.Enlists k lk news net') (hj : j ≠ k) :
    net'.life? j = net.life? j := by
  unfold life?
  rw [he.links, if_neg hj]

theorem Enlists.life?_self (he : net.Enlists k lk news net') :
    net'.life? k = some (lk.owned, lk.running) := by
  unfold life?
  rw [he.links, if_pos rfl]
  rfl

end

/-- A new binding that is running. -/
theorem Kept.enlist_running {lk : Link} {news : List Observer} (h : net.Kept K A)
    (he : net.Enlists net.links.size lk news net') (howned : lk.owned = false)
    (hrunning : lk.running = 1) : net'.Kept K (net.links.size :: A) := by
  refine ⟨fun j => ?_, h.keeper⟩
  by_cases hj : j = net.links.size
  · subst hj
    have hnew : ¬K.Held net.links.size ∧ net.links.size ∉ A :=
      ⟨fun hk => Nat.lt_irrefl _ (h.lt_size (.inl hk)), fun hk => Nat.lt_irrefl _ (h.lt_size (.inr hk))⟩
    rw [he.life?_self, howned, hrunning]
    simp [lifeBy, hnew.1, List.count_eq_zero_of_not_mem hnew.2]
  · rw [he.life?_of_ne hj, h.life]
    exact lifeBy_congr Iff.rfl (List.count_cons_of_ne (Ne.symm hj)).symm

/-- A new binding that has a keeper. -/
theorem Kept.enlist_owned {lk : Link} {news : List Observer} (h : net.Kept K A)
    (he : net.Enlists net.links.size lk news net') (howned : lk.owned = true)
    (hrunning : lk.running = 0) (a : Keeper) : net'.Kept (K.add a net.links.size) A := by
  have hnew : ¬K.Held net.links.size ∧ net.links.size ∉ A :=
    ⟨fun hk => Nat.lt_irrefl _ (h.lt_size (.inl hk)), fun hk => Nat.lt_irrefl _ (h.lt_size (.inr hk))⟩
  refine ⟨fun j => ?_, h.keeper_add hnew.1 a⟩
  by_cases hj : j = net.links.size
  · subst hj
    have hheld : (K.add a net.links.size).Held net.links.size := ⟨a, .inr ⟨rfl, rfl⟩⟩
    rw [he.life?_self, howned, hrunning]
    simp [lifeBy, hheld, List.count_eq_zero_of_not_mem hnew.2]
  · rw [he.life?_of_ne hj, h.life]
    exact lifeBy_congr (Keeping.held_add_of_ne a hj).symm rfl

/-- A bind that is subscribed anew. -/
theorem Kept.enlist_again {lk old : Link} {news : List Observer} (h : net.Kept K A)
    (he : net.Enlists k lk news net') (hold : net.link? k = some old) (howned : lk.owned = old.owned)
    (hrunning : lk.running = old.running) : net'.Kept K A := by
  refine ⟨fun j => ?_, h.keeper⟩
  by_cases hj : j = k
  · subst hj
    rw [← h.life, he.life?_self, howned, hrunning]
    unfold life?
    rw [hold]
    rfl
  · rw [he.life?_of_ne hj, h.life]

theorem Tidy.enlist {K' : Keeping} {A' : List Nat} {lk : Link} {news : List Observer}
    (h : net.Tidy K W A) (he : net.Enlists k lk news net') (hkept : net'.Kept K' A') :
    Tidied W net K' A' net' :=
  ⟨⟨h.toListed.enlist he, hkept⟩, he.lasts⟩

end Network

end ReactiveView
