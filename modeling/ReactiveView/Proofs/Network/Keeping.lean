import ReactiveView.Proofs.Network.Owning
import ReactiveView.Proofs.Network.Pending

/-!
This module contains that a change and all that it sets off leave bindings and subscriptions with
their keepers: what was kept before is still there, runs that begin come to an end, and what is tied
on the way is kept by whoever had it tied.
-/

namespace ReactiveView

open Network Cascade

namespace Network

variable {K W : Keeping} {A : List Nat} {net net' : Network} {k : Nat}

/-! ### Tying and subscribing anew -/

/-- Subscriptions with one handler, each to the attribute that has its place. -/
def enrolled (handler : Handler) (ids : List Nat) (ds : List Dependency) : List Observer :=
  (ids.zip ds).map fun p => { id := p.1, object := p.2.object.id, attr := p.2.attr, handler }

section

variable {handler : Handler} {ids : List Nat} {ds : List Dependency}

theorem map_id_enrolled (h : ids.length = ds.length) :
    (enrolled handler ids ds).map Observer.id = ids := by
  rw [enrolled, List.map_map]
  exact List.map_fst_zip (Nat.le_of_eq h)

theorem handler_of_mem_enrolled {o : Observer} (ho : o ∈ enrolled handler ids ds) :
    o.handler = handler := by
  obtain ⟨p, -, rfl⟩ := List.mem_map.1 ho
  rfl

end

theorem subscribeAll_eq (net : Network) (handler : Handler) (ds : List Dependency) :
    net.subscribeAll handler ds = (List.range' net.nextObserver ds.length,
      { net with
        nextObserver := net.nextObserver + ds.length
        observers := net.observers
          ++ enrolled handler (List.range' net.nextObserver ds.length) ds }) := by
  induction ds generalizing net with
  | nil => exact congrArg _ (congrArg (fun os => { net with observers := os })
      (List.append_nil _).symm)
  | cons d rest ih =>
    unfold subscribeAll
    dsimp only
    rw [ih]
    simp only [subscribe, enrolled, List.length_cons, List.range'_succ, List.zip_cons_cons,
      List.map_cons, List.append_assoc, List.singleton_append, Nat.add_assoc, Nat.add_comm 1]

/-- A bind without subscriptions is subscribed to what it read. -/
theorem enlists_subscribed {old : Link} (hold : net.link? k = some old)
    (hnil : old.subscriptions = []) (hbind : old.body.IsBind) (reads : List Dependency)
    (succeeded : Bool) :
    net.Enlists k
      { old with
        subscriptions := List.range' net.nextObserver reads.length
        succeeded
        reads }
      (enrolled (.refresh k) (List.range' net.nextObserver reads.length) reads)
      ((net.subscribeAll (.refresh k) reads).2.modifyLink k fun l =>
        { l with subscriptions := (net.subscribeAll (.refresh k) reads).1, succeeded, reads }) := by
  have hcount : (List.range' net.nextObserver reads.length).length = reads.length :=
    List.length_range'
  have hids : (enrolled (.refresh k) (List.range' net.nextObserver reads.length) reads).map
      Observer.id = List.range' net.nextObserver reads.length := map_id_enrolled hcount
  have hlength : (enrolled (.refresh k) (List.range' net.nextObserver reads.length) reads).length
      = reads.length := by
    rw [← List.length_map Observer.id, hids, hcount]
  rw [subscribeAll_eq]
  refine ⟨hlength.symm ▸ hids, rfl, congrArg _ hlength.symm, fun j => ?_,
    Nat.le_of_eq Array.size_modify.symm, hids.symm, fun o ho => ?_,
    .inr ⟨old, hold, hnil, rfl, hbind⟩, rfl, rfl⟩
  · rw [link?_modifyLink]
    by_cases hj : k = j
    · subst hj
      rw [if_pos rfl, if_pos rfl]
      exact congrArg (Option.map _) hold
    · rw [if_neg hj, if_neg (Ne.symm hj)]
      rfl
  · exact handler_of_mem_enrolled ho ▸ Handler.serves_refresh k hbind

theorem enlists_bound (expr : Expr) (target : ObjectRef) (attr : String) (scope : Scope) :
    net.Enlists net.links.size { body := .bind expr target attr scope, running := 1 } []
      (net.bound expr target attr scope) := by
  refine ⟨rfl, (List.append_nil _).symm, rfl, link?_addLink net _, ?_, rfl, nofun, .inl rfl, rfl, rfl⟩
  exact Nat.le_trans (Nat.le_succ _) (Nat.le_of_eq (Array.size_push _).symm)

theorem enlists_notified (statements : List Statement) (scope : Scope) (target : ObjectRef)
    (attr : String) :
    net.Enlists net.links.size
      { body := .notify statements scope, subscriptions := [net.nextObserver], owned := true }
      [⟨net.nextObserver, target.id, attr, .run net.links.size⟩]
      (net.notified statements scope target attr) := by
  refine ⟨rfl, rfl, rfl, fun j => ?_, ?_, rfl, ?_, .inl rfl, rfl, rfl⟩
  · refine (link?_modifyLink _ _ _ j).trans ?_
    change (if net.links.size = j then Option.map _ ((net.addLink _).2.link? j)
      else (net.addLink _).2.link? j) = _
    rw [link?_addLink]
    by_cases hj : j = net.links.size
    · rw [if_pos hj, if_pos hj.symm, if_pos hj]
      rfl
    · rw [if_neg (Ne.symm hj), if_neg hj, if_neg hj]
  · refine Nat.le_trans (Nat.le_succ _) (Nat.le_of_eq ?_)
    exact (Array.size_modify.trans (Array.size_push _)).symm
  · rintro o (_ | ⟨_, ⟨⟩⟩)
    rfl

theorem enlists_delegated (target : ObjectRef) (attr : String) (source : ObjectRef)
    (name : String) :
    net.Enlists net.links.size
      { body := .delegate, subscriptions := [net.nextObserver, net.nextObserver + 1], owned := true }
      [⟨net.nextObserver, target.id, attr, .writeThrough source name⟩,
        ⟨net.nextObserver + 1, source.id, name, .writeBack target attr⟩]
      (net.delegated target attr source name) := by
  refine ⟨rfl, List.append_assoc .., rfl, link?_addLink _ _, ?_, rfl, ?_, .inl rfl, rfl, rfl⟩
  · exact Nat.le_trans (Nat.le_succ _) (Nat.le_of_eq (Array.size_push _).symm)
  · rintro o (_ | ⟨_, _ | ⟨_, ⟨⟩⟩⟩) <;> trivial

/-- A bind that is evaluated again has lost its subscriptions. -/
theorem link?_cut {old : Link} (hold : net.link? k = some old) (scope : Scope) (e : Expr) :
    ((net.disconnect k).evaluated scope e).link? k = some { old with subscriptions := [] } := by
  refine (link?_disconnect net k k).trans ?_
  rw [if_pos rfl, hold]
  rfl

theorem ebbs_cut {old : Link} (h : net.Allotted W) (hold : net.link? k = some old)
    (hbind : old.body.IsBind) (scope : Scope) (e : Expr) :
    net.Ebbs W ((net.disconnect k).evaluated scope e) := by
  have hends : net.Ebbs W (net.disconnect k) := ebbs_disconnect h fun lk hlk => by
    cases hold.symm.trans hlk
    exact hbind
  exact hends.trans (ebbs_of_same rfl (fun _ h => h) rfl rfl rfl rfl)

theorem Tidy.resubscribed {expr : Expr} {target : ObjectRef} {attr : String} {scope : Scope}
    (h : net.Tidy K W A) (hbind : net.HasBind k expr target attr scope) :
    Tidied W net K A (net.resubscribed k scope expr) := by
  obtain ⟨old, hold, hbody⟩ := hbind
  have hisBind : old.body.IsBind := hbody ▸ trivial
  have hcut := link?_cut hold scope expr
  refine (h.ebb (ebbs_cut h.toAllotted hold hisBind scope expr)
    (life?_disconnect net k)).bind fun h => ?_
  have he := enlists_subscribed hcut rfl hisBind ((net.disconnect k).outcome scope expr).2.reads
    ((net.disconnect k).outcome scope expr).1.isOk
  exact h.enlist he (h.toKept.enlist_again he hcut rfl rfl)

theorem Kept.bound (h : net.Kept K A) (expr : Expr) (target : ObjectRef) (attr : String)
    (scope : Scope) : (net.bound expr target attr scope).Kept K (net.links.size :: A) :=
  h.enlist_running (enlists_bound expr target attr scope) rfl rfl

theorem Tidy.bound (h : net.Tidy K W A) (expr : Expr) (target : ObjectRef) (attr : String)
    (scope : Scope) :
    Tidied W net K (net.links.size :: A) (net.bound expr target attr scope) :=
  h.enlist (enlists_bound expr target attr scope) (h.toKept.bound expr target attr scope)

theorem Tidy.notified (h : net.Tidy K W A) (statements : List Statement) (scope : Scope)
    (target : ObjectRef) (attr : String) (a : Keeper) :
    Tidied W net (K.add a net.links.size) A (net.notified statements scope target attr) :=
  have he := enlists_notified statements scope target attr
  h.enlist he (h.toKept.enlist_owned he rfl rfl a)

theorem Tidy.delegated (h : net.Tidy K W A) (target : ObjectRef) (attr : String)
    (source : ObjectRef) (name : String) (a : Keeper) :
    Tidied W net (K.add a net.links.size) A (net.delegated target attr source name) :=
  have he := enlists_delegated target attr source name
  h.enlist he (h.toKept.enlist_owned he rfl rfl a)

theorem Tidy.hosts (h : net.Tidy K W A) : net.Hosts Command.Modest := by
  intro o ho
  rcases h.serves o ho with ⟨k, lk, -, -, hserves⟩ | ⟨hstands, -⟩
  · exact hserves.within
  · exact hstands.within

/-- What is kept when code has been tied, for a keeper: the binding that came of it, if any. -/
def Keeping.tie (K : Keeping) (a : Keeper) : Except EvalError (Option Nat) → Keeping
  | .ok (some k) => K.add a k
  | _ => K

theorem Keeping.tie_ok_iff {K : Keeping} {a b : Keeper} {link : Option Nat} {k : Nat} :
    K.tie a (.ok link) b k ↔ K b k ∨ b = a ∧ link = some k := by
  cases link with
  | none => simp [tie]
  | some j => simp [tie, add, eq_comm]

end Network

/-! ### The induction -/

/--
What every computation with a budget does: it leaves things kept, by the same keepers and the same
runs as before. A binding that it ties is for its keeper.
-/
structure Retains (n : Nat) : Prop where
  assign : ∀ {K W A net net' o attr v r}, net.Tidy K W A →
    ReactiveView.assign n o attr v net = some (r, net') → Tidied W net K A net'
  announce : ∀ {K W A net net' change u}, net.Tidy K W A →
    ReactiveView.announce n change net = some (u, net') → Tidied W net K A net'
  react : ∀ {K W A net net' change handler u}, net.Tidy K W A → handler.Within Command.Modest →
    ReactiveView.react n change handler net = some (u, net') → Tidied W net K A net'
  refresh : ∀ {K W A net net' link r}, net.Tidy K W A →
    ReactiveView.refresh n link net = some (r, net') → Tidied W net K A net'
  execute : ∀ {K W A net net' scope statements r}, net.Tidy K W A →
    ReactiveView.execute n scope statements net = some (r, net') → Tidied W net K A net'
  executeOne : ∀ {K W A net net' scope statement r}, net.Tidy K W A →
    ReactiveView.executeOne n scope statement net = some (r, net') → Tidied W net K A net'
  connect : ∀ {K W A net net' binding target attr scope r} (a : Keeper), net.Tidy K W A →
    ReactiveView.connect n binding target attr scope net = some (r, net') →
    Tidied W net (K.tie a r) A net'
  perform : ∀ {K W A net net' change command outcome}, net.Tidy K W A → command.Modest →
    ReactiveView.perform n change command net = some (outcome, net') → Tidied W net K A net'

namespace Retains

variable {K W : Keeping} {A : List Nat} {n : Nat} {net net' : Network} {change : Change}

theorem zero : Retains 0 := by
  constructor <;> intros <;> rename_i h <;> cases h

section

variable (h : Retains n) (hnet : net.Tidy K W A)

include h hnet

theorem assigns {o : ObjectRef} {attr : String} {v : Value} {r : Except EvalError Bool}
    (hrun : Assigns n o attr v net r net') : Tidied W net K A net' := by
  cases hrun with
  | refused | unchanged => exact hnet.refl
  | changed hput hannounce =>
    obtain ⟨rfl, -⟩ := Store.assign_changed hput
    exact (hnet.put o attr v).bind fun hnet => h.announce hnet hannounce

theorem reactAll {observers : List Observer}
    (hmodest : ∀ o ∈ observers, o.handler.Within Command.Modest)
    (hrun : ReactAll n change observers net net') : Tidied W net K A net' := by
  induction hrun with
  | nil => exact hnet.refl
  | cons hhead _ ih =>
    have hfirst := h.react hnet (hmodest _ (List.mem_cons_self ..)) hhead
    exact hfirst.bind fun hnet => ih hnet fun o ho => hmodest o (List.mem_cons_of_mem _ ho)

theorem performAll {id : String} {actions : List Command} (hmodest : ∀ c ∈ actions, c.Modest)
    (hrun : PerformAll n id change actions net net') : Tidied W net K A net' := by
  induction hrun with
  | nil => exact hnet.refl
  | @cons _ _ outcome _ net₁ _ hhead _ ih =>
    refine (h.perform hnet (hmodest _ (List.mem_cons_self ..)) hhead).bind fun hnet => ?_
    refine (hnet.echoes (adds_happened net₁ (.action id outcome)).toEchoes).bind fun hnet => ?_
    exact ih hnet fun c hc => hmodest c (List.mem_cons_of_mem _ hc)

theorem reacts {handler : Handler} (hmodest : handler.Within Command.Modest)
    (hrun : Reacts n change net handler net') : Tidied W net K A net' := by
  cases hrun with
  | refreshed hbind hrefresh hecho =>
    obtain ⟨lk, hlk, -⟩ := hbind
    -- The binding stays as long as it runs, also if its keeper gives it up meanwhile.
    refine (hnet.enterLink hlk).bind fun hnet => (h.refresh hnet hrefresh).bind fun hnet => ?_
    exact (hnet.echoes hecho.toEchoes).bind Tidy.leaveLink
  | ran hnotify hexecute hecho =>
    obtain ⟨lk, hlk, -⟩ := hnotify
    refine (hnet.enterLink hlk).bind fun hnet => (h.execute hnet hexecute).bind fun hnet => ?_
    exact (hnet.echoes hecho.toEchoes).bind Tidy.leaveLink
  | unbound | cut | dead => exact hnet.refl
  | passed _ _ hassign hecho =>
    exact (h.assign hnet hassign).bind fun hnet => hnet.echoes hecho.toEchoes
  | @hinted widget => exact hnet.echoes (adds_signal net widget).toEchoes
  | hosted hecho hperform =>
    exact (hnet.echoes hecho.toEchoes).bind fun hnet => h.performAll hnet hmodest hperform

theorem refreshes {link : Nat} {r : Except EvalError Unit} (hrun : Refreshes n link net r net') :
    Tidied W net K A net' := by
  cases hrun with
  | unbound => exact hnet.refl
  | failed hbind | dead hbind => exact hnet.resubscribed hbind
  | assigned hbind _ _ hassign =>
    exact (hnet.resubscribed hbind).bind fun hnet => (hnet.hold _).bind fun hnet =>
      (h.assign hnet hassign).bind fun hnet => hnet.letGo _

theorem executeAll {scope : Scope} {statements : List Statement} {r : Except EvalError Unit}
    (hrun : ExecuteAll n scope statements net r net') : Tidied W net K A net' := by
  induction hrun with
  | nil => exact hnet.refl
  | cons hhead _ ih => exact (h.executeOne hnet hhead).bind fun hnet => ih hnet
  | stop hhead => exact h.executeOne hnet hhead

theorem executesOne {scope : Scope} {statement : Statement} {r : Except EvalError Unit}
    (hrun : ExecutesOne n scope net statement r net') : Tidied W net K A net' := by
  cases hrun with
  | evaluated | noObject => exact hnet.evaluated _ _
  | noValue => exact (hnet.evaluated _ _).bind fun hnet => hnet.evaluated _ _
  | assigned _ _ hassign =>
    exact (hnet.evaluated _ _).bind fun hnet => (hnet.evaluated _ _).bind fun hnet =>
      h.assign hnet hassign

theorem connects {binding : Binding} {target : ObjectRef} {attr : String} {scope : Scope}
    {r : Except EvalError (Option Nat)} (hrun : Connects n target attr scope net binding r net')
    (a : Keeper) : Tidied W net (K.tie a r) A net' := by
  cases hrun with
  | noDefault | noSource => exact hnet.evaluated _ _
  | @default _ _ _ r _ _ hassign =>
    have hnone : K.tie a (r.map fun _ => none) = K := by cases r <;> rfl
    rw [hnone]
    exact (hnet.evaluated _ _).bind fun hnet => h.assign hnet hassign
  | noBind hrefresh =>
    exact (hnet.bound ..).bind fun hnet => (h.refresh hnet hrefresh).bind Tidy.leaveLink
  | bind hrefresh =>
    have hnew : ¬K.Held net.links.size := fun hk => Nat.lt_irrefl _ (hnet.lt_size (.inl hk))
    -- It gets its keeper while it is still running, so it is never without both.
    refine (hnet.bound ..).bind fun hnet => (h.refresh hnet hrefresh).bind fun hnet => ?_
    exact (hnet.ownLink (List.mem_cons_self ..) hnew a).bind Tidy.leaveLink
  | refused _ _ hassign =>
    exact (hnet.evaluated _ _).bind fun hnet => (hnet.hold _).bind fun hnet =>
      (h.assign hnet hassign).bind fun hnet => hnet.letGo _
  | delegate _ _ hassign =>
    exact (hnet.evaluated _ _).bind fun hnet => (hnet.hold _).bind fun hnet =>
      (h.assign hnet hassign).bind fun hnet => (hnet.delegated _ _ _ _ a).bind fun hnet => hnet.letGo _
  | notify => exact hnet.notified _ _ _ _ a

theorem performs {change : Option Change} {command : Command} (hmodest : command.Modest)
    (hrun : Performs n change net command net') : Tidied W net K A net' := by
  cases hrun with
  | answered => exact hnet.refl
  | evaluated => exact hnet.evaluated _ _
  | assigned _ _ hassign => exact h.assign hnet hassign
  | put => exact (hnet.put _ _ _).bind Tidy.sweep
  | emitted _ _ hannounce => exact h.announce hnet hannounce
  | @forgot object =>
    have hforgot : Tidied W net K A
        { net with desk := { net.desk with objects := net.desk.objects.erase object } } :=
      hnet.same rfl (fun _ h => h) rfl rfl rfl rfl
    exact hforgot.bind Tidy.sweep
  | layered => exact hnet.same rfl (fun _ h => h) rfl rfl rfl rfl
  | executed _ hexecute => exact h.execute hnet hexecute
  | observed | unobserved | unconnected | connected | dropped => exact hmodest.elim

omit hnet in
theorem succ : Retains (n + 1) where
  assign hnet hrun := h.assigns hnet (assign_cases hrun)
  announce {_ _ _ net _ change _} hnet hrun := by
    obtain ⟨net₁, hall, rfl⟩ := announce_cases hrun
    have hmodest : ∀ o ∈ net.observersOf change.object.id change.attr,
        o.handler.Within Command.Modest :=
      fun o ho => hnet.hosts o (List.mem_filter.1 ho).1
    exact (hnet.hold _).bind fun hheld => (h.reactAll hheld hmodest hall).bind fun hnet =>
      hnet.letGo _
  react hnet hmodest hrun := h.reacts hnet hmodest (react_cases hrun)
  refresh hnet hrun := h.refreshes hnet (refresh_cases hrun)
  execute hnet hrun := h.executeAll hnet (execute_cases hrun)
  executeOne hnet hrun := h.executesOne hnet (executeOne_cases hrun)
  connect a hnet hrun := h.connects hnet (connect_cases hrun) a
  perform hnet hmodest hrun := h.performs hnet hmodest (perform_cases hrun)

end

end Retains

theorem retains (n : Nat) : Retains n := by
  induction n with
  | zero => exact .zero
  | succ n ih => exact ih.succ

end ReactiveView
