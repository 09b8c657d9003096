import ReactiveView.Proofs.Component.Keeping
import ReactiveView.Proofs.Component.Realms
import ReactiveView.Proofs.View.Building
import Mathlib

/-!
This module contains parties that share a scene. What is made while a party acts is its own from then
on. If two parties have nothing in common but what nobody can change, then what one of them does leaves
all that the other one has as it was, and they still have nothing else in common.
-/

namespace ReactiveView

namespace Realm

open Scene Network

variable {α : Type} {s t : Scene α} {P Q R R' : Realm}

/-! ### Parts of realms -/

/-- All that is in one realm is in another one. -/
structure Part (R R' : Realm) : Prop where
  objects : ∀ i, R.objects i → R'.objects i
  shared : R'.shared = R.shared
  links : ∀ k, R.links k → R'.links k
  observers : ∀ i, R.observers i → R'.observers i
  components : ∀ c, R.components c → R'.components c

namespace Part

variable (h : R.Part R')

include h

theorem within {i : Nat} (hi : R.Within i) : R'.Within i :=
  hi.imp (h.objects i) fun hshared => by rwa [h.shared]

theorem knows {v : Value} (hv : R.Knows v) : R'.Knows v := fun o ho => h.within (hv o ho)

theorem ties {lk : Link} (hlk : R.Ties lk) : R'.Ties lk where
  body := by
    have hbody := hlk.body
    generalize lk.body = body at hbody ⊢
    cases body with
    | bind => exact ⟨h.within hbody.1, fun o ho => h.within (hbody.2 o ho)⟩
    | delegate => trivial
    | notify => exact fun o ho => h.within (hbody o ho)
  subscriptions i hi := h.observers i (hlk.subscriptions i hi)

theorem admits {handler : Handler} (hhandler : R.Admits handler) : R'.Admits handler := by
  cases handler with
  | refresh k | run k => exact h.links k hhandler
  | writeThrough | writeBack => exact h.within hhandler
  | hint w => exact h.components w hhandler
  | host => exact hhandler

theorem owns {comp : Component α} (hcomp : R.Owns comp) : R'.Owns comp where
  object := h.objects _ hcomp.object
  notes o ho := h.objects _ (hcomp.notes o ho)
  parent p hp := h.components p (hcomp.parent p hp)
  children c hc := h.components c (hcomp.children c hc)

theorem bears {task : Task} (htask : R.Bears task) : R'.Bears task := by
  cases task with
  | constraints c | layout c => exact h.components c htask
  | sizeHint => exact htask.imp (h.components _) (h.components _)

end Part

/-! ### Parties that act -/

/-- The realm of a party that acts: what it has, what will be made until a later scene, and all
bindings and subscriptions yet to come. -/
def during (P : Realm) (s t : Scene α) : Realm where
  objects i := P.objects i ∨ s.objectCount ≤ i ∧ i < t.objectCount
  shared := P.shared
  links k := P.links k ∨ s.network.links.size ≤ k
  observers i := P.observers i ∨ s.network.nextObserver ≤ i
  components c := P.components c ∨ s.components.size ≤ c ∧ c < t.components.size

/-- What a party has after it has acted. -/
def grown (P : Realm) (s t : Scene α) : Realm where
  objects i := P.objects i ∨ s.objectCount ≤ i ∧ i < t.objectCount
  shared := P.shared
  links k := P.links k ∨ s.network.links.size ≤ k ∧ k < t.network.links.size
  observers i := P.observers i ∨ s.network.nextObserver ≤ i ∧ i < t.network.nextObserver
  components c := P.components c ∨ s.components.size ≤ c ∧ c < t.components.size

theorem part_during (P : Realm) (s t : Scene α) : P.Part (P.during s t) :=
  ⟨fun _ => .inl, rfl, fun _ => .inl, fun _ => .inl, fun _ => .inl⟩

/-- What is shared cannot be changed and refers to nothing else, and it is held. -/
structure Common (shared : Nat → Prop) (net : Network) : Prop where
  frozen : ∀ i, shared i → ∃ obj, net.store.objects[i]? = some obj ∧ obj.shape = .frozen ∧
    ∀ v ∈ obj.attrs.values, ∀ o ∈ v.references, shared o.id
  held : ∀ i, shared i → i ∈ net.owners ∨ net.desk.Refers i ∨
    ∃ j obj, shared j ∧ net.store.objects[j]? = some obj ∧ obj.Refers i

/--
A party at home in a scene: what it has is there, and it refers to nothing but that and what is shared.
-/
structure Settled (P : Realm) (s : Scene α) : Prop where
  still : s.network.Still
  common : Common P.shared s.network
  apart : ∀ i, P.shared i → ¬P.objects i
  objects : ∀ i, P.objects i → i < s.objectCount
  links : ∀ k, P.links k → k < s.network.links.size
  observers : ∀ i, P.observers i → i < s.network.nextObserver
  components : ∀ c, P.components c → c < s.components.size
  numbered : s.network.Numbered
  seen : ∀ ob ∈ s.network.observers, ob.object < s.objectCount
  due : ∀ task ∈ s.queue.pending, task.subject < s.components.size
  known : ∀ i obj, P.objects i → s.network.store.objects[i]? = some obj →
    ∀ v ∈ obj.attrs.values, P.Knows v
  ties : ∀ k lk, P.links k → s.network.link? k = some lk → P.Ties lk
  watched : ∀ ob ∈ s.network.observers, P.objects ob.object → P.observers ob.id
  admitted : ∀ ob ∈ s.network.observers, P.observers ob.id →
    P.Within ob.object ∧ P.Admits ob.handler
  owns : ∀ c comp, P.components c → s.component? c = some comp → P.Owns comp
  bears : ∀ task ∈ s.queue.pending, P.minds task = true → P.Bears task

theorem Ties.within {lk : Link} {i : Nat} (h : R.Ties lk) (hi : lk.Refers i) : R.Within i := by
  obtain ⟨o, ho, rfl⟩ := hi
  have hbody := h.body
  unfold Link.references at ho
  generalize lk.body = body at hbody ho
  cases body with
  | bind => exact hbody.2 o ho
  | delegate => cases ho
  | notify => exact hbody o ho

theorem Common.lt {shared : Nat → Prop} {net : Network} {i : Nat} (h : Common shared net)
    (hi : shared i) : i < net.store.objects.size := by
  obtain ⟨obj, hobj, -⟩ := h.frozen i hi
  exact (Array.getElem?_eq_some_iff.1 hobj).1

theorem Common.heldOutside {net : Network} {i : Nat} (h : Common P.shared net)
    (hapart : ∀ i, P.shared i → ¬P.objects i) (hi : P.shared i) :
    i ∈ net.owners ∨ P.HeldOutside net i := by
  rcases h.held i hi with howned | hdesk | ⟨j, obj, hj, hobj, hrefers⟩
  · exact .inl howned
  · exact .inr (.inl hdesk)
  · exact .inr (.inr (.inl ⟨j, obj, hapart j hj, hobj, hrefers⟩))

namespace Settled

/-- What is not the party's and is alive is held by something that is not the party's either. -/
theorem borders (h : P.Settled s) : P.Borders s.network where
  apart := h.apart
  shared := h.common.frozen
  held i hi halive := by
    have hshared (hwithin : P.Within i) : i ∈ s.network.owners ∨ P.HeldOutside s.network i :=
      h.common.heldOutside h.apart (hwithin.resolve_left hi)
    rcases (holds_iff (R := P)).1 (h.still.rests i halive) with howned | hbusy
      | (⟨j, obj, hj, hobj, v, hv, o, ho, rfl⟩ | ⟨k, lk, hk, hlk, hrefers⟩) | houtside
    · exact .inl howned
    · rw [h.still.busy] at hbusy
      cases hbusy
    · exact hshared (h.known j obj hj hobj v hv o ho)
    · exact hshared ((h.ties k lk hk hlk).within hrefers)
    · exact .inr houtside

/-- A party can begin to act. -/
theorem encloses (h : P.Settled s) (t : Scene α) : (P.during s t).Encloses s s where
  network :=
    { borders :=
        { apart := by
            rintro i hi (hmine | ⟨hlarge, -⟩)
            · exact h.apart i hi hmine
            · exact Nat.not_lt.2 hlarge (h.common.lt hi)
          shared := h.common.frozen
          held := fun i hi halive => by
            refine (h.borders.held i (fun hmine => hi (.inl hmine)) halive).imp_right ?_
            rintro (hdesk | ⟨j, obj, hj, hobj, hrefers⟩ | ⟨k, lk, hk, hlk, hrefers⟩)
            · exact .inl hdesk
            · refine .inr (.inl ⟨j, obj, ?_, hobj, hrefers⟩)
              exact not_or.2 ⟨hj, fun hnew =>
                Nat.not_lt.2 hnew.1 (Array.getElem?_eq_some_iff.1 hobj).1⟩
            · refine .inr (.inr ⟨k, lk, ?_, hlk, hrefers⟩)
              exact not_or.2 ⟨hk, Nat.not_le.2 (lt_size_of_link? hlk)⟩ }
      objects := fun _ _ => rfl
      links := fun _ _ => rfl
      observers := rfl
      owners := fun _ _ => Iff.rfl
      desk := rfl
      nextLink := fun _ => .inr
      nextObserver := fun _ => .inr
      known := by
        rintro i obj (hi | hi) hobj v hv
        · exact (part_during P s t).knows (h.known i obj hi hobj v hv)
        · exact absurd (Array.getElem?_eq_some_iff.1 hobj).1 (Nat.not_lt.2 hi.1)
      ties := by
        rintro k lk (hk | hk) hlk
        · exact (part_during P s t).ties (h.ties k lk hk hlk)
        · exact absurd (lt_size_of_link? hlk) (Nat.not_lt.2 hk)
      watched := by
        rintro ob hob (hi | hi)
        · exact .inl (h.watched ob hob hi)
        · exact absurd (h.seen ob hob) (Nat.not_lt.2 hi.1)
      admitted := by
        rintro ob hob (hi | hi)
        · exact (h.admitted ob hob hi).imp (part_during P s t).within (part_during P s t).admits
        · exact absurd (h.numbered ob hob) (Nat.not_lt.2 hi)
      busy := by simp [h.still.busy]
      signals := by simp [h.still.signals] }
  still := h.still
  components _ _ := rfl
  tasks := rfl
  owns := by
    rintro c comp (hc | hc) hcomp
    · exact (part_during P s t).owns (h.owns c comp hc hcomp)
    · rw [component?_eq_none hc.1] at hcomp
      cases hcomp
  bears task htask hminds := by
    rcases minds_eq_true_iff.1 hminds with hc | hc
    · exact (part_during P s t).bears (h.bears task htask (minds_eq_true_iff.2 hc))
    · exact absurd (h.due task htask) (Nat.not_lt.2 hc.1)

end Settled

/-! ### After a party has acted -/

/-- What one test picks can be picked from what another one leaves, where no element passes both. -/
theorem filter_of_apart {β : Type} {l : List β} {p q : β → Bool}
    (h : ∀ x ∈ l, p x = true → q x = false) :
    (l.filter fun x => !q x).filter p = l.filter p := by
  rw [List.filter_filter]
  refine List.filter_congr fun x hx => ?_
  cases hp : p x with
  | false => rfl
  | true =>
    rw [h x hx hp]
    rfl

/-- Who observes what is outside of the realm is the same as before. -/
theorem Confines.observersOf_eq {base net : Network} (h : R.Confines base net) {i : Nat}
    (hbase : ∀ ob ∈ base.observers, ob.object = i → ¬R.observers ob.id)
    (hnet : ∀ ob ∈ net.observers, ob.object = i → ¬R.observers ob.id) (attr : String) :
    net.observersOf i attr = base.observersOf i attr := by
  have houtside {a : Network} (ha : ∀ ob ∈ a.observers, ob.object = i → ¬R.observers ob.id) :
      (a.observers.filter fun ob => !R.follows ob).filter
        (fun ob => ob.object == i && ob.attr == attr) = a.observersOf i attr := by
    refine filter_of_apart fun ob hob hslot => follows_eq_false_iff.2 ?_
    rw [Bool.and_eq_true, beq_iff_eq] at hslot
    exact ha ob hob hslot.1
  rw [← houtside hbase, ← houtside hnet, h.observers]

/-- An observer is in the realm, or it was there before. -/
theorem Confines.observers_or {base net : Network} (h : R.Confines base net) {ob : Observer}
    (hob : ob ∈ net.observers) : R.observers ob.id ∨ ob ∈ base.observers := by
  by_cases hmine : R.observers ob.id
  · exact .inl hmine
  · have hother : (!R.follows ob) = true := by
      rw [follows_eq_false_iff.2 hmine]
      rfl
    exact .inr (List.mem_filter.1 (h.observers ▸ List.mem_filter.2 ⟨hob, hother⟩)).1

/-- A task is for a component of the realm, or it waited before. -/
theorem Encloses.tasks_or (h : R.Encloses s t) {task : Task} (htask : task ∈ t.queue.pending) :
    R.minds task = true ∨ task ∈ s.queue.pending := by
  cases hmine : R.minds task with
  | true => exact .inl rfl
  | false =>
    have hother : (!R.minds task) = true := by rw [hmine]; rfl
    exact .inr (List.mem_filter.1 (h.tasks ▸ List.mem_filter.2 ⟨htask, hother⟩)).1

/-- What is shared stays as it is. -/
theorem Confines.common {base net : Network} (h : R.Confines base net)
    (hbase : Common R.shared base) : Common R.shared net where
  frozen i hi := by
    rw [h.objects i (h.borders.apart i hi)]
    exact hbase.frozen i hi
  held i hi := by
    rw [h.owners i (h.borders.apart i hi), h.desk]
    refine (hbase.held i hi).imp_right (Or.imp_right ?_)
    rintro ⟨j, obj, hj, hobj, hrefers⟩
    exact ⟨j, obj, hj, (h.objects j (h.borders.apart j hj)).trans hobj, hrefers⟩

/-- A party that has acted is at home with all that it has made. -/
theorem Settled.grown (h : P.Settled s) (henc : (P.during s t).Encloses s t)
    (hlasts : s.Outlasts (fun _ => False) 0 t) : (P.grown s t).Settled t where
  still := henc.still
  common := henc.network.common h.common
  apart := henc.network.borders.apart
  objects := by
    rintro i (hi | hi)
    · exact (h.objects i hi).trans_le hlasts.lasts.objects
    · exact hi.2
  links := by
    rintro k (hk | hk)
    · exact (h.links k hk).trans_le hlasts.lasts.count
    · exact hk.2
  observers := by
    rintro i (hi | hi)
    · exact (h.observers i hi).trans_le hlasts.lasts.next
    · exact hi.2
  components := by
    rintro c (hc | hc)
    · exact (h.components c hc).trans_le hlasts.count
    · exact hc.2
  numbered := hlasts.tidy.numbered
  seen ob hob := by
    have hcount : s.objectCount ≤ t.objectCount := hlasts.lasts.objects
    rcases henc.network.observers_or hob with hmine | hold
    · rcases (henc.network.admitted ob hob hmine).1 with (hi | hi) | hi
      · exact (h.objects _ hi).trans_le hcount
      · exact hi.2
      · exact (h.common.lt hi).trans_le hcount
    · exact (h.seen ob hold).trans_le hcount
  due task htask := by
    rcases henc.tasks_or htask with hmine | hold
    · rcases minds_eq_true_iff.1 hmine with hc | hc
      · exact (h.components _ hc).trans_le hlasts.count
      · exact hc.2
    · exact (h.due task hold).trans_le hlasts.count
  known := henc.network.known
  ties k lk hk hlk := by
    have hties := henc.network.ties k lk (hk.imp_right And.left) hlk
    refine ⟨?_, fun i hi => (hties.subscriptions i hi).imp_right fun hlarge => ⟨hlarge, ?_⟩⟩
    · have hbody := hties.body
      generalize lk.body = body at hbody ⊢
      cases body <;> exact hbody
    · exact hlasts.tidy.claimed i (.inl k) ⟨lk, hlk, hi⟩
  watched ob hob hi :=
    (henc.network.watched ob hob hi).imp_right fun hlarge => ⟨hlarge, hlasts.tidy.numbered ob hob⟩
  admitted ob hob hi := by
    obtain ⟨hwithin, hadmits⟩ := henc.network.admitted ob hob (hi.imp_right And.left)
    refine ⟨hwithin, ?_⟩
    -- A binding that a subscription is for lists it, so it is there.
    have hthere (k : Nat) (hk : ob.handler = .refresh k ∨ ob.handler = .run k) :
        k < t.network.links.size := by
      rcases hlasts.tidy.serves ob hob with ⟨j, lk, hlk, -, hserves⟩ | ⟨hstands, -⟩
      · have hj : k = j := by
          generalize lk.body = body at hserves
          rcases hk with hk | hk <;> rw [hk] at hserves <;> cases body <;>
            first | exact hserves | exact hserves.elim
        exact hj ▸ lt_size_of_link? hlk
      · rcases hk with hk | hk <;> rw [hk] at hstands <;> exact hstands.elim
    cases hhandler : ob.handler with
    | refresh k =>
      rw [hhandler] at hadmits
      exact Or.imp_right (fun hlarge => ⟨hlarge, hthere k (.inl hhandler)⟩) hadmits
    | run k =>
      rw [hhandler] at hadmits
      exact Or.imp_right (fun hlarge => ⟨hlarge, hthere k (.inr hhandler)⟩) hadmits
    | writeThrough | writeBack | hint | host =>
      rw [hhandler] at hadmits
      exact hadmits
  owns c comp hc hcomp := by
    obtain ⟨hobject, hnotes, hparent, hchildren⟩ := henc.owns c comp hc hcomp
    exact ⟨hobject, hnotes, hparent, hchildren⟩
  bears task htask hminds := by
    have hbears := henc.bears task htask (minds_eq_true_iff.2 (minds_eq_true_iff.1 hminds))
    cases task <;> exact hbears

/-- What a party has is the same in two scenes: its components with all that is known of them, its
objects with their attributes, who observes them, its bindings, and the tasks that wait for it. -/
structure Matches (Q : Realm) (s t : Scene α) : Prop where
  components : ∀ c, Q.components c → t.component? c = s.component? c
  objects : ∀ i, Q.objects i → t.network.store.objects[i]? = s.network.store.objects[i]?
  observers : ∀ i, Q.objects i → ∀ attr,
    t.network.observersOf i attr = s.network.observersOf i attr
  links : ∀ k, Q.links k → t.network.link? k = s.network.link? k
  tasks : t.queue.pending.filter Q.minds = s.queue.pending.filter Q.minds

theorem Matches.refl (Q : Realm) (s : Scene α) : Q.Matches s s :=
  ⟨fun _ _ => rfl, fun _ _ => rfl, fun _ _ _ => rfl, fun _ _ => rfl, rfl⟩

theorem Matches.trans {u : Scene α} (h : Q.Matches s t) (h' : Q.Matches t u) :
    Q.Matches s u where
  components c hc := (h'.components c hc).trans (h.components c hc)
  objects i hi := (h'.objects i hi).trans (h.objects i hi)
  observers i hi attr := (h'.observers i hi attr).trans (h.observers i hi attr)
  links k hk := (h'.links k hk).trans (h.links k hk)
  tasks := h'.tasks.trans h.tasks

/-- Two parties have nothing in common but what is shared. -/
structure Separate (P Q : Realm) : Prop where
  shared : Q.shared = P.shared
  objects : ∀ i, P.objects i → ¬Q.objects i
  links : ∀ k, P.links k → ¬Q.links k
  observers : ∀ i, P.observers i → ¬Q.observers i
  components : ∀ c, P.components c → ¬Q.components c

theorem Separate.symm (h : P.Separate Q) : Q.Separate P :=
  ⟨h.shared.symm, fun i hi hi' => h.objects i hi' hi, fun k hk hk' => h.links k hk' hk,
    fun i hi hi' => h.observers i hi' hi, fun c hc hc' => h.components c hc' hc⟩

/-- What a party makes is no other party's. -/
theorem Separate.during (h : P.Separate Q) (hQ : Q.Settled s) (t : Scene α) :
    (P.during s t).Separate Q where
  shared := h.shared
  objects i hi hi' := hi.elim (h.objects i · hi') fun hnew => Nat.not_lt.2 hnew.1 (hQ.objects i hi')
  links k hk hk' := hk.elim (h.links k · hk') fun hnew => Nat.not_lt.2 hnew (hQ.links k hk')
  observers i hi hi' := hi.elim (h.observers i · hi') fun hnew =>
    Nat.not_lt.2 hnew (hQ.observers i hi')
  components c hc hc' := hc.elim (h.components c · hc') fun hnew =>
    Nat.not_lt.2 hnew.1 (hQ.components c hc')

theorem Separate.minds_eq_false (h : R.Separate Q) {task : Task} (htask : R.minds task = true) :
    Q.minds task = false :=
  minds_eq_false_iff.2 (h.components _ (minds_eq_true_iff.1 htask))

theorem Separate.grown (h : (P.during s t).Separate Q) : (P.grown s t).Separate Q :=
  ⟨h.shared, h.objects, fun k hk => h.links k (hk.imp_right And.left),
    fun i hi => h.observers i (hi.imp_right And.left), h.components⟩

section

variable (h : Q.Settled s) (hseparate : R.Separate Q) (henc : R.Encloses s t)

include h hseparate henc

theorem matches_of_encloses : Q.Matches s t where
  components c hc := henc.components c fun hmine => hseparate.components c hmine hc
  objects i hi := henc.network.objects i fun hmine => hseparate.objects i hmine hi
  observers i hi attr := by
    refine henc.network.observersOf_eq (fun ob hob heq hmine => ?_) (fun ob hob heq hmine => ?_) attr
    · exact hseparate.observers ob.id hmine (h.watched ob hob (heq ▸ hi))
    · rcases (henc.network.admitted ob hob hmine).1 with hobject | hobject
      · exact hseparate.objects _ hobject (heq ▸ hi)
      · exact h.apart i (hseparate.shared ▸ heq ▸ hobject) hi
  links k hk := henc.network.links k fun hmine => hseparate.links k hmine hk
  tasks := by
    have houtside (u : Scene α) : (u.queue.pending.filter fun task => !R.minds task).filter Q.minds
        = u.queue.pending.filter Q.minds :=
      filter_of_apart fun task _ => hseparate.symm.minds_eq_false
    rw [← houtside t, ← houtside s, henc.tasks]

/-- A party is at home also after another one has acted. -/
theorem Settled.beside (ht : R'.Settled t) (hshared : R'.shared = R.shared)
    (hlasts : s.Outlasts (fun _ => False) 0 t) : Q.Settled t where
  still := ht.still
  common := hseparate.shared ▸ hshared ▸ ht.common
  apart := h.apart
  objects i hi := (h.objects i hi).trans_le hlasts.lasts.objects
  links k hk := (h.links k hk).trans_le hlasts.lasts.count
  observers i hi := (h.observers i hi).trans_le hlasts.lasts.next
  components c hc := (h.components c hc).trans_le hlasts.count
  numbered := ht.numbered
  seen := ht.seen
  due := ht.due
  known i obj hi hobj :=
    h.known i obj hi (((matches_of_encloses h hseparate henc).objects i hi).symm.trans hobj)
  ties k lk hk hlk :=
    h.ties k lk hk (((matches_of_encloses h hseparate henc).links k hk).symm.trans hlk)
  watched ob hob hi := by
    rcases henc.network.observers_or hob with hmine | hold
    · rcases (henc.network.admitted ob hob hmine).1 with hobject | hobject
      · exact absurd hi (hseparate.objects _ hobject)
      · exact absurd hi (h.apart _ (hseparate.shared ▸ hobject))
    · exact h.watched ob hold hi
  admitted ob hob hi := by
    rcases henc.network.observers_or hob with hmine | hold
    · exact absurd hi (hseparate.observers _ hmine)
    · exact h.admitted ob hold hi
  owns c comp hc hcomp :=
    h.owns c comp hc (((matches_of_encloses h hseparate henc).components c hc).symm.trans hcomp)
  bears task htask hminds := by
    rcases henc.tasks_or htask with hmine | hold
    · exact absurd (minds_eq_true_iff.1 hminds)
        (hseparate.components _ (minds_eq_true_iff.1 hmine))
    · exact h.bears task hold hminds

end

/-- Two parties that share a scene: they have nothing in common but what is shared, and all that has
been made is theirs. -/
structure Beside (P Q : Realm) (s : Scene α) : Prop where
  left : P.Settled s
  right : Q.Settled s
  separate : P.Separate Q
  links : ∀ k < s.network.links.size, P.links k ∨ Q.links k
  observers : ∀ ob ∈ s.network.observers, P.observers ob.id ∨ Q.observers ob.id
  components : ∀ c < s.components.size, P.components c ∨ Q.components c
  tidy : s.Tidy fun _ => False

theorem Beside.symm (h : P.Beside Q s) : Q.Beside P s :=
  ⟨h.right, h.left, h.separate.symm, fun k hk => (h.links k hk).symm,
    fun ob hob => (h.observers ob hob).symm, fun c hc => (h.components c hc).symm, h.tidy⟩

/-- What has been given out since belongs to the first of the two. -/
theorem or_of_lt {p q : Nat → Prop} {first last : Nat} (h : ∀ n < first, p n ∨ q n) (n : Nat)
    (hn : n < last) : (p n ∨ first ≤ n ∧ n < last) ∨ q n := by
  rcases Nat.lt_or_ge n first with hold | hnew
  · exact (h n hold).imp_left .inl
  · exact .inl (.inr ⟨hnew, hn⟩)

/-- Whatever one party does within its realm, the parties still have nothing else in common, and what
the other one has is as it was. -/
theorem Beside.step (h : P.Beside Q s) (henc : (P.during s t).Encloses s t)
    (hlasts : s.Outlasts (fun _ => False) 0 t) : (P.grown s t).Beside Q t ∧ Q.Matches s t := by
  have hduring := h.separate.during h.right t
  have hgrown := h.left.grown henc hlasts
  refine ⟨⟨hgrown, h.right.beside hduring henc hgrown rfl hlasts, hduring.grown,
    or_of_lt h.links, fun ob hob => ?_, or_of_lt h.components, hlasts.tidy⟩,
    matches_of_encloses h.right hduring henc⟩
  rcases henc.network.observers_or hob with hmine | hold
  · exact .inl (hmine.imp_right fun hnew => ⟨hnew, hgrown.numbered ob hob⟩)
  · exact (h.observers ob hold).imp_left .inl

end Realm

end ReactiveView
