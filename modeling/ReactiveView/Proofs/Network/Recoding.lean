import ReactiveView.Proofs.Network.Owning
import Mathlib

/-!
This module contains networks that are the same but for the statements of some of their bindings. What
runs no statement does the same on both. It also contains what a network loses when nothing is added to
it: subscriptions and bindings go, and so do objects, which lose their attributes.
-/

namespace ReactiveView

/-! ### Bindings with other statements -/

/-- The same but for the statements of a notify. -/
inductive LinkBody.Recoded : LinkBody → LinkBody → Prop
  | same (body : LinkBody) : Recoded body body
  | notify (statements statements' : List Statement) (scope : Scope) :
      Recoded (.notify statements scope) (.notify statements' scope)

/-- The same binding but for the statements of a notify. -/
structure Link.Recoded (lk lk' : Link) : Prop where
  body : lk.body.Recoded lk'.body
  rest : lk' = { lk with body := lk'.body }

theorem Link.Recoded.refl (lk : Link) : lk.Recoded lk := ⟨.same lk.body, rfl⟩

theorem Link.Recoded.references {lk lk' : Link} (h : lk.Recoded lk') :
    lk'.references = lk.references := by
  have hbody := h.body
  unfold Link.references
  generalize lk.body = body at hbody ⊢
  generalize lk'.body = body' at hbody ⊢
  cases hbody <;> rfl

namespace Network

/-- The network with other bindings. -/
def relinked (net : Network) (links : Array (Option Link)) : Network := { net with links }

/-- The same network but for the statements of bindings from the given one on. -/
structure Recoded (first : Nat) (net net' : Network) : Prop where
  rest : net' = net.relinked net'.links
  size : net'.links.size = net.links.size
  old : ∀ k < first, net'.link? k = net.link? k
  link : ∀ k, Option.Rel Link.Recoded (net.link? k) (net'.link? k)

variable {first k : Nat} {net net' : Network}

theorem any_links_eq_true_iff {p : Link → Bool} :
    (net.links.any fun slot => slot.any p) = true ↔ ∃ k lk, net.link? k = some lk ∧ p lk = true := by
  rw [Array.any_eq_true]
  unfold link?
  constructor
  · rintro ⟨k, hk, hp⟩
    obtain ⟨lk, hlk, hp⟩ := (Option.any_eq_true ..).1 hp
    exact ⟨k, lk, by rw [Array.getElem?_eq_getElem hk, hlk]; rfl, hp⟩
  · rintro ⟨k, lk, hlk, hp⟩
    obtain ⟨hk, hslot⟩ := Array.getElem?_eq_some_iff.1 (Option.join_eq_some_iff.1 hlk)
    exact ⟨k, hk, by rw [hslot]; exact hp⟩

namespace Recoded

theorem refl (first : Nat) (net : Network) : net.Recoded first net :=
  ⟨rfl, rfl, fun _ _ => rfl, fun k => by cases net.link? k <;> constructor; exact .refl _⟩

/-- A binding on one side is there on the other too. -/
theorem exists_link? (h : net.Recoded first net') {lk : Link} (hlk : net.link? k = some lk) :
    ∃ lk', net'.link? k = some lk' ∧ lk.Recoded lk' := by
  have hlink := h.link k
  rw [hlk] at hlink
  generalize net'.link? k = x at hlink
  cases hlink with
  | some hlink => exact ⟨_, rfl, hlink⟩

theorem link?_eq_none (h : net.Recoded first net') (hnone : net.link? k = none) :
    net'.link? k = none := by
  have hlink := h.link k
  rw [hnone] at hlink
  generalize net'.link? k = x at hlink
  cases hlink with
  | none => rfl

/-! ### Operations that leave bindings alone -/

/-- An operation on what is not a binding does the same. -/
theorem map (h : net.Recoded first net') {f : Network → Network}
    (hf : ∀ net links, f (net.relinked links) = (f net).relinked links)
    (hlinks : ∀ net, (f net).links = net.links) : (f net).Recoded first (f net') := by
  have hlink? (net : Network) : (f net).link? = net.link? := by
    unfold link?
    rw [hlinks]
  refine ⟨?_, ?_, fun k hk => ?_, fun k => ?_⟩
  · rw [hlinks, ← hf, ← h.rest]
  · rw [hlinks, hlinks]
    exact h.size
  · rw [hlink?, hlink?]
    exact h.old k hk
  · rw [hlink?, hlink?]
    exact h.link k

theorem hold (h : net.Recoded first net') (ids : List Nat) :
    (net.hold ids).Recoded first (net'.hold ids) :=
  h.map (f := (Network.hold · ids)) (fun _ _ => rfl) fun _ => rfl

theorem note (h : net.Recoded first net') (level : Level) (message : String)
    (fields : List (String × String)) :
    (net.note level message fields).Recoded first (net'.note level message fields) :=
  h.map (f := (Network.note · level message fields)) (fun _ _ => rfl) fun _ => rfl

theorem happened (h : net.Recoded first net') (e : Event) :
    (net.happened e).Recoded first (net'.happened e) :=
  h.map (f := (Network.happened · e)) (fun _ _ => rfl) fun _ => rfl

theorem signal (h : net.Recoded first net') (widget : Nat) :
    Recoded first { net with signals := net.signals ++ [widget] }
      { net' with signals := net'.signals ++ [widget] } :=
  h.map (f := fun net => { net with signals := net.signals ++ [widget] }) (fun _ _ => rfl)
    fun _ => rfl

theorem stored (h : net.Recoded first net') (store : Store) :
    Recoded first { net with store } { net' with store } :=
  h.map (f := fun net => { net with store }) (fun _ _ => rfl) fun _ => rfl

theorem evaluated (h : net.Recoded first net') (scope : Scope) (e : Expr) :
    (net.evaluated scope e).Recoded first (net'.evaluated scope e) :=
  h.map (f := (Network.evaluated · scope e)) (fun _ _ => rfl) fun _ => rfl

theorem outcome (h : net.Recoded first net') (scope : Scope) (e : Expr) :
    net'.outcome scope e = net.outcome scope e := by
  rw [h.rest]
  rfl

theorem store (h : net.Recoded first net') : net'.store = net.store := by
  rw [h.rest]
  rfl

theorem observers (h : net.Recoded first net') : net'.observers = net.observers := by
  rw [h.rest]
  rfl

theorem busy (h : net.Recoded first net') : net'.busy = net.busy := by
  rw [h.rest]
  rfl

theorem nextObserver (h : net.Recoded first net') : net'.nextObserver = net.nextObserver := by
  rw [h.rest]
  rfl

theorem subscribe (h : net.Recoded first net') (object : Nat) (attr : String) (handler : Handler) :
    (net.subscribe object attr handler).2.Recoded first (net'.subscribe object attr handler).2 :=
  h.map (f := fun net => (net.subscribe object attr handler).2) (fun _ _ => rfl) fun _ => rfl

theorem subscribeAll (h : net.Recoded first net') (handler : Handler) (ds : List Dependency) :
    (net'.subscribeAll handler ds).1 = (net.subscribeAll handler ds).1 ∧
      (net.subscribeAll handler ds).2.Recoded first (net'.subscribeAll handler ds).2 := by
  induction ds generalizing net net' with
  | nil => exact ⟨rfl, h⟩
  | cons d rest ih =>
    obtain ⟨hids, hrest⟩ := ih (h.subscribe d.object.id d.attr handler)
    exact ⟨congrArg₂ List.cons h.nextObserver hids, hrest⟩

/-! ### Sweeping -/

/-- The same is held on both sides. -/
theorem holds (h : net.Recoded first net') (id : Nat) : net'.holds id = net.holds id := by
  have hlinks : (net'.links.any fun slot => slot.any fun lk => lk.references.any (·.id == id))
      = net.links.any fun slot => slot.any fun lk => lk.references.any (·.id == id) := by
    refine Bool.eq_iff_iff.2 ?_
    rw [any_links_eq_true_iff, any_links_eq_true_iff]
    constructor
    · rintro ⟨k, lk', hlk', hp⟩
      cases hlk : net.link? k with
      | none => cases (h.link?_eq_none hlk).symm.trans hlk'
      | some lk =>
        obtain ⟨lk'', hlk'', hsame⟩ := h.exists_link? hlk
        cases hlk'.symm.trans hlk''
        exact ⟨k, lk, hlk, hsame.references ▸ hp⟩
    · rintro ⟨k, lk, hlk, hp⟩
      obtain ⟨lk', hlk', hsame⟩ := h.exists_link? hlk
      exact ⟨k, lk', hlk', hsame.references ▸ hp⟩
  have hrest := h.rest
  unfold Network.holds
  rw [hlinks, hrest]
  rfl

theorem foldl_free (h : net.Recoded first net') (ids : List Nat) :
    (ids.foldl Network.free net).Recoded first (ids.foldl Network.free net') := by
  induction ids generalizing net net' with
  | nil => exact h
  | cons id rest ih => exact ih (h.map (f := (Network.free · id)) (fun _ _ => rfl) fun _ => rfl)

theorem unheld (h : net.Recoded first net') : net'.unheld = net.unheld := by
  unfold Network.unheld
  rw [h.store]
  exact List.filter_congr fun id _ => by rw [h.holds]

theorem sweepFor (h : net.Recoded first net') (n : Nat) :
    (Network.sweepFor n net).Recoded first (Network.sweepFor n net') := by
  induction n generalizing net net' with
  | zero => exact h
  | succ n ih =>
    rw [Network.sweepFor, Network.sweepFor, h.unheld]
    split
    · exact h
    · exact ih (h.foldl_free _)

theorem sweep (h : net.Recoded first net') : net.sweep.Recoded first net'.sweep := by
  unfold Network.sweep
  rw [h.store]
  exact h.sweepFor _

theorem letGo (h : net.Recoded first net') (busy : List Nat) :
    (net.letGo busy).Recoded first (net'.letGo busy) :=
  (h.map (f := fun net => { net with busy }) (fun _ _ => rfl) fun _ => rfl).sweep

/-! ### Life of bindings -/

theorem modifyLink (h : net.Recoded first net') (k : Nat) {f : Link → Link}
    (hf : ∀ lk, f lk = { f lk with body := lk.body })
    (hcode : ∀ lk body, f { lk with body } = { f lk with body }) :
    (net.modifyLink k f).Recoded first (net'.modifyLink k f) := by
  refine ⟨?_, ?_, fun j hj => ?_, fun j => ?_⟩
  · rw [h.rest]
    rfl
  · exact Array.size_modify.trans (h.size.trans Array.size_modify.symm)
  · rw [link?_modifyLink, link?_modifyLink, h.old j hj]
  · rw [link?_modifyLink, link?_modifyLink]
    have hlink := h.link j
    split
    · generalize net.link? j = x at hlink ⊢
      generalize net'.link? j = x' at hlink ⊢
      cases hlink with
      | none => exact .none
      | @some lk lk' hsame =>
        obtain ⟨hbody, hrest⟩ := hsame
        refine .some ⟨?_, ?_⟩
        · rw [hf lk, hf lk']
          exact hbody
        · rw [hrest, hcode]
    · exact hlink

theorem disconnect (h : net.Recoded first net') (k : Nat) :
    (net.disconnect k).Recoded first (net'.disconnect k) := by
  cases hlk : net.link? k with
  | none =>
    rw [disconnect_of_none hlk, disconnect_of_none (h.link?_eq_none hlk)]
    exact h
  | some lk =>
    obtain ⟨lk', hlk', hsame⟩ := h.exists_link? hlk
    have hsubs : lk'.subscriptions = lk.subscriptions := by rw [hsame.rest]
    unfold Network.disconnect
    rw [hlk, hlk']
    dsimp only
    rw [hsubs]
    refine Recoded.modifyLink ?_ k (fun _ => rfl) fun _ _ => rfl
    rw [foldl_unsubscribe, foldl_unsubscribe]
    exact h.map (f := fun net => { net with
      observers := net.observers.filter fun o => !lk.subscriptions.contains o.id })
      (fun _ _ => rfl) fun _ => rfl

theorem withoutLink (h : net.Recoded first net') (k : Nat) :
    (net.withoutLink k).Recoded first (net'.withoutLink k) := by
  refine ⟨?_, ?_, fun j hj => ?_, fun j => ?_⟩
  · rw [h.rest]
    rfl
  · exact Array.size_modify.trans (h.size.trans Array.size_modify.symm)
  · rw [link?_withoutLink, link?_withoutLink, h.old j hj]
  · rw [link?_withoutLink, link?_withoutLink]
    split
    · exact .none
    · exact h.link j

theorem settleLink (h : net.Recoded first net') (k : Nat) :
    (net.settleLink k).Recoded first (net'.settleLink k) := by
  unfold Network.settleLink
  cases hlk : net.link? k with
  | none =>
    rw [h.link?_eq_none hlk]
    exact h
  | some lk =>
    obtain ⟨lk', hlk', hsame⟩ := h.exists_link? hlk
    have howned : lk'.owned = lk.owned := by rw [hsame.rest]
    have hrunning : lk'.running = lk.running := by rw [hsame.rest]
    rw [hlk']
    dsimp only
    rw [howned, hrunning]
    split
    · exact h
    · exact ((h.disconnect k).withoutLink k).sweep

theorem enterLink (h : net.Recoded first net') (k : Nat) :
    (net.enterLink k).Recoded first (net'.enterLink k) :=
  h.modifyLink k (fun _ => rfl) fun _ _ => rfl

theorem leaveLink (h : net.Recoded first net') (k : Nat) :
    (net.leaveLink k).Recoded first (net'.leaveLink k) :=
  (h.modifyLink k (fun _ => rfl) fun _ _ => rfl).settleLink k

theorem ownLink (h : net.Recoded first net') (k : Nat) :
    (net.ownLink k).Recoded first (net'.ownLink k) :=
  h.modifyLink k (fun _ => rfl) fun _ _ => rfl

theorem addLink (h : net.Recoded first net') (hfirst : first ≤ net.links.size) {lk lk' : Link}
    (hlk : lk.Recoded lk') :
    (net.addLink lk).2.Recoded first (net'.addLink lk').2 := by
  refine ⟨?_, ?_, fun j hj => ?_, fun j => ?_⟩
  · rw [h.rest]
    rfl
  · exact (Array.size_push _).trans ((congrArg (· + 1) h.size).trans (Array.size_push _).symm)
  · rw [link?_addLink, link?_addLink, h.size, if_neg (by omega), if_neg (by omega), h.old j hj]
  · rw [link?_addLink, link?_addLink, h.size]
    split
    · exact .some hlk
    · exact h.link j

theorem resubscribed (h : net.Recoded first net') (k : Nat) (scope : Scope) (e : Expr) :
    (net.resubscribed k scope e).Recoded first (net'.resubscribed k scope e) := by
  have hcut := h.disconnect k
  obtain ⟨hids, hsub⟩ := (hcut.evaluated scope e).subscribeAll (.refresh k)
    ((net.disconnect k).outcome scope e).2.reads
  unfold Network.resubscribed
  rw [hcut.outcome]
  dsimp only
  rw [hids]
  exact hsub.modifyLink k (fun _ => rfl) fun _ _ => rfl

theorem delegated (h : net.Recoded first net') (hfirst : first ≤ net.links.size)
    (target : ObjectRef) (attr : String) (source : ObjectRef) (name : String) :
    (net.delegated target attr source name).Recoded first
      (net'.delegated target attr source name) := by
  have hsub := (h.subscribe target.id attr (.writeThrough source name)).subscribe source.id name
    (.writeBack target attr)
  change Recoded first
    ((((net.subscribe target.id attr (.writeThrough source name)).2.subscribe source.id name
      (.writeBack target attr)).2.addLink
        { body := .delegate, subscriptions := [net.nextObserver, net.nextObserver + 1]
          owned := true }).2)
    ((((net'.subscribe target.id attr (.writeThrough source name)).2.subscribe source.id name
      (.writeBack target attr)).2.addLink
        { body := .delegate, subscriptions := [net'.nextObserver, net'.nextObserver + 1]
          owned := true }).2)
  rw [h.nextObserver]
  exact hsub.addLink hfirst (.refl _)

theorem notified (h : net.Recoded first net') (hfirst : first ≤ net.links.size)
    (statements statements' : List Statement) (scope : Scope) (target : ObjectRef) (attr : String) :
    (net.notified statements scope target attr).Recoded first
      (net'.notified statements' scope target attr) := by
  have hadded : (net.addLink { body := .notify statements scope, owned := true }).2.Recoded first
      (net'.addLink { body := .notify statements' scope, owned := true }).2 :=
    h.addLink hfirst ⟨.notify statements statements' scope, rfl⟩
  have hsub := hadded.subscribe target.id attr (.run net.links.size)
  unfold Network.notified
  change Recoded first
    (((net.addLink { body := .notify statements scope, owned := true }).2.subscribe target.id attr
      (.run net.links.size)).2.modifyLink net.links.size
        fun l => { l with subscriptions := [net.nextObserver] })
    (((net'.addLink { body := .notify statements' scope, owned := true }).2.subscribe target.id attr
      (.run net'.links.size)).2.modifyLink net'.links.size
        fun l => { l with subscriptions := [net'.nextObserver] })
  rw [h.size, h.nextObserver]
  exact hsub.modifyLink _ (fun _ => rfl) fun _ _ => rfl

end Recoded

end Network

end ReactiveView
