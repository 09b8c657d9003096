import ReactiveView.Proofs.Network.Following

/-!
This module contains that the subscriptions of binds are as they should be whenever nothing is in
progress: whatever a host asks for, also from within notifications, a bind that has a handle is
subscribed to just what it last read, and one that has none has no subscription left.
-/

namespace ReactiveView

open Network Cascade

namespace Network

variable {K : Keeping} {A B : List Nat} {net net' net'' : Network} {a b c : Option Nat} {k : Nat}

/-! ### Bindings with a handle -/

/-- Who keeps which bindings. One that was tied just now is in the host's hand. -/
def keeping (net : Network) (hand : Option Nat) : Keeping
  | .handle name, k => net.desk.handles.get? name = some (some k)
  | .host, k => hand = some k
  | .component _, _ => False

theorem keeping_congr (hhandles : net'.desk.handles = net.desk.handles) :
    net'.keeping a = net.keeping a := by
  unfold keeping
  rw [hhandles]

theorem keeping_some : net.keeping (some k) = (net.keeping none).add .host k := by
  funext a j
  refine propext ?_
  unfold Keeping.add
  cases a <;> simp [keeping, eq_comm]

/-- Binds follow what they read, and each binding has a handle, or is running, or in hand. -/
structure Tuned (a : Option Nat) (A : List Nat) (net : Network) : Prop
    extends Attuned none net, Kept (net.keeping a) A net

/-- A step after which all is in tune. A binding that was there before it has a handle, or is in
hand, only if that was so before. -/
structure Retuned (a : Option Nat) (net : Network) (b : Option Nat) (A : List Nat) (net' : Network) :
    Prop where
  tuned : net'.Tuned b A
  count : net.links.size ≤ net'.links.size
  held : ∀ k < net.links.size, (net'.keeping b).Held k → (net.keeping a).Held k

theorem Tuned.refl (h : net.Tuned a A) : Retuned a net a A net := ⟨h, Nat.le_refl _, fun _ _ h => h⟩

theorem Retuned.bind (h : Retuned a net b A net') (h' : net'.Tuned b A → Retuned b net' c B net'') :
    Retuned a net c B net'' where
  tuned := (h' h.tuned).tuned
  count := Nat.le_trans h.count (h' h.tuned).count
  held k hk hheld := h.held k hk ((h' h.tuned).held k (Nat.lt_of_lt_of_le hk h.count) hheld)

theorem Tuned.drain (h : net.Tuned a A) (hd : net.Drains net')
    (hkept : ∀ {K}, net.Kept K A → net'.Kept K B) : Retuned a net a B net' := by
  have hkeeping : net'.keeping a = net.keeping a := keeping_congr hd.handles
  exact ⟨⟨h.toAttuned.drain hd, hkeeping ▸ hkept h.toKept⟩, Nat.le_of_eq hd.count.symm,
    fun _ _ hheld => hkeeping ▸ hheld⟩

theorem Tuned.same (h : net.Tuned a A) (hsize : net'.store.objects.size = net.store.objects.size)
    (halive : ∀ id, net'.store.isAlive id = true → net.store.isAlive id = true)
    (hlinks : net'.links = net.links) (hnext : net'.nextObserver = net.nextObserver)
    (hobservers : net'.observers = net.observers)
    (hhandles : net'.desk.handles = net.desk.handles)
    (hwatches : net'.desk.watches = net.desk.watches) : Retuned a net a A net' :=
  h.drain (drains_of_same hsize halive hlinks hnext hobservers hhandles hwatches)
    fun hkept => hkept.congr (life?_congr hlinks)

theorem Tuned.echoes (h : net.Tuned a A) (hecho : net.Echoes net') : Retuned a net a A net' :=
  h.same (by rw [hecho.store]) (fun _ halive => hecho.store ▸ halive) hecho.links hecho.nextObserver
    hecho.observers (congrArg Desk.handles hecho.desk) (congrArg Desk.watches hecho.desk)

theorem Tuned.hold (h : net.Tuned a A) (ids : List Nat) : Retuned a net a A (net.hold ids) :=
  h.same rfl (fun _ h => h) rfl rfl rfl rfl rfl

theorem Tuned.evaluated (h : net.Tuned a A) (scope : Scope) (e : Expr) :
    Retuned a net a A (net.evaluated scope e) :=
  h.same rfl (fun _ h => h) rfl rfl rfl rfl rfl

theorem Tuned.put (h : net.Tuned a A) (o : ObjectRef) (attr : String) (v : Value) :
    Retuned a net a A { net with store := net.store.put o attr v } :=
  h.same Store.size_put (fun id halive => by rwa [Store.isAlive_put] at halive) rfl rfl rfl rfl rfl

theorem Tuned.sweep (h : net.Tuned a A) : Retuned a net a A net.sweep :=
  h.drain drains_sweep fun hkept => hkept.congr (life?_sweep net)

theorem Tuned.letGo (h : net.Tuned a A) (busy : List Nat) : Retuned a net a A (net.letGo busy) :=
  have hleft : Retuned a net a A { net with busy } := h.same rfl (fun _ h => h) rfl rfl rfl rfl rfl
  hleft.bind Tuned.sweep

theorem Tuned.enterLink {lk : Link} (h : net.Tuned a A) (hk : net.link? k = some lk) :
    Retuned a net a (k :: A) (net.enterLink k) :=
  h.drain (drains_enterLink k) fun hkept => hkept.enterLink hk

theorem Tuned.leaveLink (h : net.Tuned a (k :: A)) : Retuned a net a A (net.leaveLink k) :=
  h.drain (drains_leaveLink h.toAttuned k) Kept.leaveLink

/-- A bind is evaluated again, or for the first time. -/
theorem retuned_resubscribed {expr : Expr} {target : ObjectRef} {attr : String} {scope : Scope}
    (h : net.Attuned (some k)) (hkept : net.Kept (net.keeping a) A)
    (hbind : net.HasBind k expr target attr scope) :
    Retuned a net a A (net.resubscribed k scope expr) := by
  have hattuned := h.resubscribed hbind
  obtain ⟨old, hold, hbody⟩ := hbind
  have hisBind : old.body.IsBind := hbody ▸ trivial
  have hcut := link?_cut hold scope expr
  have hends := ebbs_cut h.toAllotted hold hisBind scope expr
  have he := enlists_subscribed hcut rfl hisBind ((net.disconnect k).outcome scope expr).2.reads
    ((net.disconnect k).outcome scope expr).1.isOk
  have hkeeping : (net.resubscribed k scope expr).keeping a = net.keeping a :=
    keeping_congr (he.handles.trans hends.handles)
  have hmeanwhile : ((net.disconnect k).evaluated scope expr).Kept (net.keeping a) A :=
    hkept.congr (life?_disconnect net k)
  exact ⟨⟨hattuned, hkeeping ▸ hmeanwhile.enlist_again he hcut rfl rfl⟩,
    Nat.le_trans (Nat.le_of_eq hends.count.symm) he.count, fun _ _ hheld => hkeeping ▸ hheld⟩

theorem Retuned.of_bound {expr : Expr} {target : ObjectRef} {attr : String} {scope : Scope}
    (h : Retuned a (net.bound expr target attr scope) b A net') : Retuned a net b A net' :=
  have hcount : net.links.size ≤ (net.bound expr target attr scope).links.size :=
    (enlists_bound expr target attr scope).count
  ⟨h.tuned, Nat.le_trans hcount h.count, fun k hk => h.held k (Nat.lt_of_lt_of_le hk hcount)⟩

/-- A new binding is in the host's hand. -/
theorem Tuned.enlist {lk : Link} {news : List Observer} (h : net.Tuned none A)
    (hattuned : net'.Attuned none) (he : net.Enlists net.links.size lk news net')
    (howned : lk.owned = true) (hrunning : lk.running = 0) :
    Retuned none net (some net.links.size) A net' := by
  have hkeeping : net'.keeping (some net.links.size)
      = (net.keeping none).add .host net.links.size :=
    (keeping_congr he.handles).trans keeping_some
  refine ⟨⟨hattuned, hkeeping ▸ h.toKept.enlist_owned he howned hrunning .host⟩, he.count,
    fun k hk hheld => ?_⟩
  rw [hkeeping] at hheld
  exact (Keeping.held_add_of_ne .host (Nat.ne_of_lt hk)).1 hheld

theorem Tuned.notified (h : net.Tuned none A) (statements : List Statement) (scope : Scope)
    (target : ObjectRef) (attr : String) :
    Retuned none net (some net.links.size) A (net.notified statements scope target attr) :=
  h.enlist (h.toAttuned.notified ..) (enlists_notified statements scope target attr) rfl rfl

theorem Tuned.delegated (h : net.Tuned none A) (target : ObjectRef) (attr : String)
    (source : ObjectRef) (name : String) :
    Retuned none net (some net.links.size) A (net.delegated target attr source name) :=
  h.enlist (h.toAttuned.delegated ..) (enlists_delegated target attr source name) rfl rfl

/-- A binding that is running, and that was not there before, gets into the host's hand. -/
theorem Retuned.own (h : Retuned none net none A net') (hk : k ∈ A)
    (hnone : ¬(net'.keeping none).Held k) (hsize : net.links.size ≤ k) :
    Retuned none net (some k) A (net'.ownLink k) := by
  have hkeeping : (net'.ownLink k).keeping (some k) = (net'.keeping none).add .host k := keeping_some
  refine ⟨⟨h.tuned.toAttuned.drain (drains_ownLink k),
    hkeeping ▸ h.tuned.toKept.ownLink hk hnone .host⟩,
    Nat.le_trans h.count (Nat.le_of_eq Array.size_modify.symm), fun j hj hheld => h.held j hj ?_⟩
  rw [hkeeping] at hheld
  exact (Keeping.held_add_of_ne .host (Nat.ne_of_lt (Nat.lt_of_lt_of_le hj hsize))).1 hheld

/-! ### Handles -/

/-- A binding in hand gets the name of a handle, whose binding is cut. -/
theorem Tuned.handled (h : net.Tuned a A) (name : String) :
    Retuned a net none A (net.handled name a) := by
  have hprevious : (net.keeping a).without (net.desk.handles.get? name).join.toList
      = (net.keeping a).except (.handle name) :=
    Keeping.without_eq_except h.keeper fun k => by simp [keeping, Option.join_eq_some_iff]
  let desk : Desk := { net.desk with handles := net.desk.handles.insert name a }
  have hattuned : Attuned none { net with desk } := h.toAttuned.desk rfl
  have hkept : Kept (net.keeping a) A { net with desk } := ⟨h.life, h.keeper⟩
  have hdrains := drains_dropLinks hattuned (net.desk.handles.get? name).join.toList
  have hdropped := hkept.dropLinks (net.desk.handles.get? name).join.toList
  rw [← handled_eq] at hdrains hdropped
  rw [hprevious] at hdropped
  have hkeeping : (net.handled name a).keeping none
      = fun b => (net.keeping a).except (.handle name) (b.takeOver name) := by
    funext b k
    refine propext ?_
    unfold Keeping.except
    cases b with
    | host => simp [keeping, Keeper.takeOver]
    | component c => simp [keeping, Keeper.takeOver]
    | handle other =>
      by_cases hother : other = name
      · subst hother
        simp [keeping, Keeper.takeOver, hdrains.handles, desk]
      · simp [keeping, Keeper.takeOver, hother, hdrains.handles, desk, Table.get?_insert]
  refine ⟨⟨hattuned.drain hdrains, hkeeping ▸ hdropped.swap (Keeper.takeOver_takeOver name)⟩,
    Nat.le_of_eq hdrains.count.symm, fun k _ hheld => ?_⟩
  rw [hkeeping] at hheld
  obtain ⟨b, -, hb⟩ := hheld
  exact ⟨b.takeOver name, hb⟩

theorem Tuned.released {link : Option Nat} (h : net.Tuned none A) {name : String}
    (hname : net.desk.handles.get? name = some link) :
    Retuned none net none A (net.released name link) := by
  have hcut : (net.keeping none).without link.toList = (net.keeping none).except (.handle name) :=
    Keeping.without_eq_except h.keeper fun k => by simp [keeping, hname]
  let desk : Desk := { net.desk with handles := net.desk.handles.erase name }
  have hattuned : Attuned none { net with desk } := h.toAttuned.desk rfl
  have hkept : Kept (net.keeping none) A { net with desk } := ⟨h.life, h.keeper⟩
  have hdrains := drains_dropLinks hattuned link.toList
  have hdropped := hkept.dropLinks link.toList
  rw [← released_eq] at hdrains hdropped
  rw [hcut] at hdropped
  have hkeeping : (net.released name link).keeping none
      = (net.keeping none).except (.handle name) := by
    funext b k
    refine propext ?_
    unfold Keeping.except
    cases b with
    | host => simp [keeping]
    | component c => simp [keeping]
    | handle other =>
      by_cases hother : other = name <;>
        simp [keeping, hother, hdrains.handles, desk, Table.get?_erase]
  refine ⟨⟨hattuned.drain hdrains, hkeeping ▸ hdropped⟩, Nat.le_of_eq hdrains.count.symm,
    fun k _ hheld => ?_⟩
  rw [hkeeping] at hheld
  obtain ⟨b, -, hb⟩ := hheld
  exact ⟨b, hb⟩

theorem Tuned.watched (h : net.Tuned a A) (o : ObjectRef) (attr id : String)
    (actions : List Command) : Retuned a net a A (net.watched o attr id actions) := by
  have hkeeping : (net.watched o attr id actions).keeping a = net.keeping a :=
    keeping_congr (ebbs_sweep (W := net.watching)).handles
  have hlinks : (net.watched o attr id actions).links = net.links := links_sweep _
  exact ⟨⟨h.toAttuned.watched .., hkeeping ▸ h.toKept.congr (life?_congr hlinks)⟩,
    Nat.le_of_eq (congrArg Array.size hlinks).symm, fun _ _ hheld => hkeeping ▸ hheld⟩

theorem Tuned.unwatched {name : String} {watch : Watch} (h : net.Tuned a A)
    (hwatch : net.desk.watches.get? name = some watch) :
    Retuned a net a A (net.unsubscribe watch.observer) :=
  ⟨⟨h.toAttuned.unwatched hwatch, h.toKept.congr (life?_congr rfl)⟩, Nat.le_refl _,
    fun _ _ hheld => hheld⟩

end Network

/-! ### The induction -/

/--
What every computation with a budget does: it leaves all in tune, and the runs in progress as they
were. A binding that it ties is in the host's hand.
-/
structure Retunes (n : Nat) : Prop where
  assign : ∀ {A net net' o attr v r}, net.Tuned none A →
    ReactiveView.assign n o attr v net = some (r, net') → Retuned none net none A net'
  announce : ∀ {A net net' change u}, net.Tuned none A →
    ReactiveView.announce n change net = some (u, net') → Retuned none net none A net'
  react : ∀ {A net net' change handler u}, net.Tuned none A →
    ReactiveView.react n change handler net = some (u, net') → Retuned none net none A net'
  refresh : ∀ {A net net' link r}, net.Attuned (some link) → net.Kept (net.keeping none) A →
    ReactiveView.refresh n link net = some (r, net') → Retuned none net none A net'
  execute : ∀ {A net net' scope statements r}, net.Tuned none A →
    ReactiveView.execute n scope statements net = some (r, net') → Retuned none net none A net'
  executeOne : ∀ {A net net' scope statement r}, net.Tuned none A →
    ReactiveView.executeOne n scope statement net = some (r, net') → Retuned none net none A net'
  connect : ∀ {A net net' binding target attr scope r}, net.Tuned none A →
    ReactiveView.connect n binding target attr scope net = some (r, net') →
    Retuned none net r.toOption.join A net'
  perform : ∀ {A net net' change command outcome}, net.Tuned none A →
    ReactiveView.perform n change command net = some (outcome, net') → Retuned none net none A net'

namespace Retunes

variable {A : List Nat} {n : Nat} {net net' : Network} {change : Change}

theorem zero : Retunes 0 := by
  constructor <;> intros <;> rename_i h <;> cases h

section

variable (h : Retunes n) (hnet : net.Tuned none A)

include h hnet

theorem assigns {o : ObjectRef} {attr : String} {v : Value} {r : Except EvalError Bool}
    (hrun : Assigns n o attr v net r net') : Retuned none net none A net' := by
  cases hrun with
  | refused | unchanged => exact hnet.refl
  | changed hput hannounce =>
    obtain ⟨rfl, -⟩ := Store.assign_changed hput
    exact (hnet.put o attr v).bind fun hnet => h.announce hnet hannounce

theorem reactAll {observers : List Observer} (hrun : ReactAll n change observers net net') :
    Retuned none net none A net' := by
  induction hrun with
  | nil => exact hnet.refl
  | cons hhead _ ih => exact (h.react hnet hhead).bind ih

theorem performAll {id : String} {actions : List Command}
    (hrun : PerformAll n id change actions net net') : Retuned none net none A net' := by
  induction hrun with
  | nil => exact hnet.refl
  | @cons _ _ outcome _ net₁ _ hhead _ ih =>
    refine (h.perform hnet hhead).bind fun hnet => ?_
    exact (hnet.echoes (adds_happened net₁ (.action id outcome)).toEchoes).bind ih

theorem reacts {handler : Handler} (hrun : Reacts n change net handler net') :
    Retuned none net none A net' := by
  cases hrun with
  | refreshed hbind hrefresh hecho =>
    obtain ⟨lk, hlk, -⟩ := hbind
    -- The bind stays as long as it runs, so its handle may be dropped meanwhile.
    refine (hnet.enterLink hlk).bind fun hnet => ?_
    refine (h.refresh (hnet.toAttuned.renew _) hnet.toKept hrefresh).bind fun hnet => ?_
    exact (hnet.echoes hecho.toEchoes).bind Tuned.leaveLink
  | ran hnotify hexecute hecho =>
    obtain ⟨lk, hlk, -⟩ := hnotify
    refine (hnet.enterLink hlk).bind fun hnet => (h.execute hnet hexecute).bind fun hnet => ?_
    exact (hnet.echoes hecho.toEchoes).bind Tuned.leaveLink
  | unbound | cut | dead => exact hnet.refl
  | passed _ _ hassign hecho =>
    exact (h.assign hnet hassign).bind fun hnet => hnet.echoes hecho.toEchoes
  | @hinted widget => exact hnet.echoes (adds_signal net widget).toEchoes
  | hosted hecho hperform =>
    exact (hnet.echoes hecho.toEchoes).bind fun hnet => h.performAll hnet hperform

omit hnet in
theorem refreshes {link : Nat} {r : Except EvalError Unit} (hattuned : net.Attuned (some link))
    (hkept : net.Kept (net.keeping none) A) (hrun : Refreshes n link net r net') :
    Retuned none net none A net' := by
  cases hrun with
  | unbound hnone => exact Tuned.refl ⟨hattuned.settle hnone, hkept⟩
  | failed hbind | dead hbind => exact retuned_resubscribed hattuned hkept hbind
  | assigned hbind _ _ hassign =>
    refine (retuned_resubscribed hattuned hkept hbind).bind fun hnet => ?_
    exact (hnet.hold _).bind fun hnet => (h.assign hnet hassign).bind fun hnet => hnet.letGo _

theorem executeAll {scope : Scope} {statements : List Statement} {r : Except EvalError Unit}
    (hrun : ExecuteAll n scope statements net r net') : Retuned none net none A net' := by
  induction hrun with
  | nil => exact hnet.refl
  | cons hhead _ ih => exact (h.executeOne hnet hhead).bind ih
  | stop hhead => exact h.executeOne hnet hhead

theorem executesOne {scope : Scope} {statement : Statement} {r : Except EvalError Unit}
    (hrun : ExecutesOne n scope net statement r net') : Retuned none net none A net' := by
  cases hrun with
  | evaluated | noObject => exact hnet.evaluated _ _
  | noValue => exact (hnet.evaluated _ _).bind fun hnet => hnet.evaluated _ _
  | assigned _ _ hassign =>
    exact (hnet.evaluated _ _).bind fun hnet => (hnet.evaluated _ _).bind fun hnet =>
      h.assign hnet hassign

theorem connects {binding : Binding} {target : ObjectRef} {attr : String} {scope : Scope}
    {r : Except EvalError (Option Nat)} (hrun : Connects n target attr scope net binding r net') :
    Retuned none net r.toOption.join A net' := by
  cases hrun with
  | noDefault | noSource => exact hnet.evaluated _ _
  | @default _ _ _ r _ _ hassign =>
    have hnone : (r.map fun _ => (none : Option Nat)).toOption.join = none := by cases r <;> rfl
    rw [hnone]
    exact (hnet.evaluated _ _).bind fun hnet => h.assign hnet hassign
  | noBind hrefresh =>
    have hrun := h.refresh (hnet.toAttuned.bound ..) (hnet.toKept.bound ..) hrefresh
    exact (hrun.bind Tuned.leaveLink).of_bound
  | @bind _ expr _ hrefresh =>
    have hkept := hnet.toKept.bound expr target attr scope
    have hrun := h.refresh (hnet.toAttuned.bound ..) hkept hrefresh
    -- The binding is new, so what went on during its first evaluation gave it no handle.
    have hnew : ¬(net.keeping none).Held net.links.size := fun hheld =>
      Nat.lt_irrefl _ (hnet.lt_size (.inl hheld))
    have howned := hrun.of_bound.own (List.mem_cons_self ..)
      (fun hheld => hnew (hrun.held _ (hkept.lt_size (.inr (List.mem_cons_self ..))) hheld))
      (Nat.le_refl _)
    exact howned.bind Tuned.leaveLink
  | refused _ _ hassign =>
    exact (hnet.evaluated _ _).bind fun hnet => (hnet.hold _).bind fun hnet =>
      (h.assign hnet hassign).bind fun hnet => hnet.letGo _
  | delegate _ _ hassign =>
    exact (hnet.evaluated _ _).bind fun hnet => (hnet.hold _).bind fun hnet =>
      (h.assign hnet hassign).bind fun hnet => (hnet.delegated _ _ _ _).bind fun hnet => hnet.letGo _
  | notify => exact hnet.notified _ _ _ _

theorem performs {change : Option Change} {command : Command}
    (hrun : Performs n change net command net') : Retuned none net none A net' := by
  cases hrun with
  | answered => exact hnet.refl
  | evaluated => exact hnet.evaluated _ _
  | assigned _ _ hassign => exact h.assign hnet hassign
  | put => exact (hnet.put _ _ _).bind Tuned.sweep
  | emitted _ _ hannounce => exact h.announce hnet hannounce
  | observed => exact hnet.watched _ _ _ _
  | unobserved hwatch => exact hnet.unwatched hwatch
  | @forgot object =>
    have hforgot : Retuned none net none A
        { net with desk := { net.desk with objects := net.desk.objects.erase object } } :=
      hnet.same rfl (fun _ h => h) rfl rfl rfl rfl rfl
    exact hforgot.bind Tuned.sweep
  | layered => exact hnet.same rfl (fun _ h => h) rfl rfl rfl rfl rfl
  | executed _ hexecute => exact h.execute hnet hexecute
  | unconnected _ _ hconnect =>
    exact (hnet.hold _).bind fun hnet => (h.connect hnet hconnect).bind fun hnet => hnet.letGo _
  | connected _ _ hconnect =>
    exact (hnet.hold _).bind fun hnet => (h.connect hnet hconnect).bind fun hnet =>
      (hnet.letGo _).bind fun hnet => hnet.handled _
  | dropped hhandle => exact hnet.released hhandle

omit hnet in
theorem succ : Retunes (n + 1) where
  assign hnet hrun := h.assigns hnet (assign_cases hrun)
  announce hnet hrun := by
    obtain ⟨net₁, hall, rfl⟩ := announce_cases hrun
    exact (hnet.hold _).bind fun hnet => (h.reactAll hnet hall).bind fun hnet => hnet.letGo _
  react hnet hrun := h.reacts hnet (react_cases hrun)
  refresh hattuned hkept hrun := h.refreshes hattuned hkept (refresh_cases hrun)
  execute hnet hrun := h.executeAll hnet (execute_cases hrun)
  executeOne hnet hrun := h.executesOne hnet (executeOne_cases hrun)
  connect hnet hrun := h.connects hnet (connect_cases hrun)
  perform hnet hrun := h.performs hnet (perform_cases hrun)

end

end Retunes

theorem retunes (n : Nat) : Retunes n := by
  induction n with
  | zero => exact .zero
  | succ n ih => exact ih.succ

namespace Network

variable {net net' : Network} {k : Nat}

/-! ### What a host comes to -/

/-- The networks that a host comes to, from one without subscriptions and bindings: it makes objects
and gives commands that come to an end. -/
inductive Served : Network → Prop
  | start {net : Network} (hobservers : net.observers = []) (hlinks : net.links = #[])
      (hhandles : net.desk.handles = Table.empty) (hwatches : net.desk.watches = Table.empty) :
      Served net
  | introduced {net : Network} (h : Served net) (name className : String) (shape : Shape) :
      Served (net.introduce name className shape)
  | performed {n : Nat} {net net' : Network} {command : Command} {outcome : Outcome}
      (h : Served net) (hrun : perform n none command net = some (outcome, net')) : Served net'

/-- A command that does not come to an end changes nothing here. -/
theorem Served.command (h : net.Served) (command : Command) : (net.command command).2.Served := by
  rcases hrun : perform nestingLimit none command net with _ | ⟨outcome, net'⟩
  · have hsame : (net.command command).2 = net := by simp only [Network.command, run, hrun]
    exact hsame.symm ▸ h
  · have hnet' : (net.command command).2 = net' := by simp only [Network.command, run, hrun]
    exact hnet'.symm ▸ h.performed hrun

theorem Served.tuned (h : net.Served) : net.Tuned none [] := by
  induction h with
  | @start net hobservers hlinks hhandles hwatches =>
    refine ⟨attuned_of_empty hobservers hlinks hwatches, kept_of_empty hlinks fun a k => ?_⟩
    cases a with
    | handle name =>
      change net.desk.handles.get? name ≠ some (some k)
      rw [hhandles, Table.get?_empty]
      nofun
    | host => exact nofun
    | component c => exact id
  | introduced _ name className shape ih =>
    exact ⟨ih.toAttuned.introduced name className shape, ih.toKept.congr (life?_congr rfl)⟩
  | performed _ hrun ih => exact ((retunes _).perform ih hrun).tuned

/-- Whenever nothing is in progress, a binding that has no handle is gone, with all subscriptions
that brought it up to date: its handle was dropped, be it from within its own notification, or it
could not be tied. One that has a handle is there, and if it is a bind, exactly one subscription to
each attribute that its latest evaluation read brings it up to date, whether or not the evaluation
came to a value, and none to any other attribute. -/
theorem refreshers_of_served (h : net.Served) (k : Nat) :
    ((∀ name, net.desk.handles.get? name ≠ some (some k)) →
      net.link? k = none ∧ ∀ object attr, net.refreshers k object attr = []) ∧
    ((∃ name, net.desk.handles.get? name = some (some k)) →
      ∃ lk, net.link? k = some lk ∧ lk.running = 0 ∧ lk.Evaluated ∧ (lk.body.IsBind → ∀ object attr,
        (lk.Reads object attr → net.store.isAlive object = true →
          ∃ o, net.refreshers k object attr = [o]) ∧
        (¬lk.Reads object attr → net.refreshers k object attr = []))) := by
  have htuned := h.tuned
  constructor
  · intro hnone
    have hgone : net.link? k = none := by
      refine htuned.toKept.link?_eq_none_iff.2 ⟨?_, List.not_mem_nil⟩
      rintro ⟨a, ha⟩
      cases a with
      | handle name => exact hnone name ha
      | host => cases ha
      | component c => exact ha
    refine ⟨hgone, fun object attr => htuned.toAttuned.refreshers_eq_nil fun lk hlk => ?_⟩
    cases hgone.symm.trans hlk
  · rintro ⟨name, hname⟩
    have hheld : (net.keeping none).Held k := ⟨.handle name, hname⟩
    obtain ⟨lk, hlk⟩ := htuned.toKept.exists_link? (.inl hheld)
    have hlife : net.life? k = some (lk.owned, lk.running) := congrArg (Option.map _) hlk
    rw [htuned.life, lifeBy, if_pos (by simp [hheld])] at hlife
    refine ⟨lk, hlk, (congrArg Prod.snd (Option.some.inj hlife)).symm,
      htuned.noted k lk hlk (Option.some_ne_none k).symm, fun hbind object attr =>
      ⟨fun hread halive => htuned.toAttuned.exists_refreshers_eq hlk hbind halive hread,
        fun hunread => htuned.toAttuned.refreshers_eq_nil fun lk' hlk' _ => ?_⟩⟩
    cases hlk.symm.trans hlk'
    exact hunread

/-- A host that shows one of two attributes of a model, as a third one says. -/
def switchModel : Network :=
  (Network.command
    { store := (({} : Store).create "Model" .open (Table.ofList
        [("flag", .bool true), ("a", .str "x"), ("b", .str "y"), ("shown", .none)])).2
      desk :=
        { objects := Table.ofList [("m", ⟨0, "Model"⟩)]
          scope := ⟨[Table.ofList [("m", .object ⟨0, "Model"⟩)]]⟩ } }
    (.connect .bind "m.a if m.flag else m.b" "m" "shown" "h")).2

/-- The host when the other one is to be shown. -/
def switchedModel : Network := (switchModel.command (.set "m" "flag" (.value (.bool false)))).2

/-- The host when it was told of that, and then dropped the handle. -/
def droppedModel : Network :=
  ((switchModel.command (.observe "m" "shown" "o" [.drop "h"])).2.command
    (.set "m" "flag" (.value (.bool false)))).2

theorem served_switchModel : switchModel.Served := (Served.start rfl rfl rfl rfl).command _

theorem refreshers_of_served_switchModel :
    switchedModel.Served ∧ switchedModel.desk.handles.get? "h" = some (some 0) ∧
      (∃ o, switchedModel.refreshers 0 0 "b" = [o]) ∧ switchedModel.refreshers 0 0 "a" = [] ∧
      droppedModel.Served ∧ droppedModel.link? 0 = none ∧ droppedModel.refreshers 0 0 "b" = [] := by
  have hswitched : switchedModel.Served := served_switchModel.command _
  have hdropped : droppedModel.Served := (served_switchModel.command _).command _
  have hhandle : switchedModel.desk.handles.get? "h" = some (some 0) := by decide +kernel
  have hread : (switchedModel.link? 0).map (fun lk => (decide lk.body.IsBind, lk.reads)) =
      some (true, [⟨⟨0, "Model"⟩, "flag"⟩, ⟨⟨0, "Model"⟩, "b"⟩]) := by decide +kernel
  have halive : switchedModel.store.isAlive 0 = true := by decide +kernel
  have hnone : droppedModel.desk.handles.entries.isEmpty = true := by decide +kernel
  obtain ⟨lk, hlk, hboth⟩ := Option.map_eq_some_iff.1 hread
  obtain ⟨hbind, hreads⟩ := Prod.mk.inj hboth
  have hbody : lk.body.IsBind := of_decide_eq_true hbind
  obtain ⟨lk', hlk', -, -, hfollows⟩ := (refreshers_of_served hswitched 0).2 ⟨"h", hhandle⟩
  cases hlk.symm.trans hlk'
  obtain ⟨hgone, hunobserved⟩ := (refreshers_of_served hdropped 0).1 fun name hname => by
    unfold Table.get? at hname
    rw [List.isEmpty_iff.1 hnone] at hname
    cases hname
  have hb : lk.Reads 0 "b" :=
    ⟨⟨⟨0, "Model"⟩, "b"⟩, hreads ▸ List.mem_cons_of_mem _ (List.mem_cons_self ..), rfl, rfl⟩
  have ha : ¬lk.Reads 0 "a" := by
    rintro ⟨d, hd, -, hattr⟩
    rw [hreads] at hd
    rcases hd with _ | ⟨_, _ | ⟨_, ⟨⟩⟩⟩ <;> exact absurd hattr (by decide)
  exact ⟨hswitched, hhandle, (hfollows hbody 0 "b").1 hb halive, (hfollows hbody 0 "a").2 ha,
    hdropped, hgone, hunobserved 0 "b"⟩

end Network

end ReactiveView
