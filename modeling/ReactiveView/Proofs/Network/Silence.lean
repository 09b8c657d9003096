import ReactiveView.Proofs.Network.Fencing
import Mathlib

/-!
This module contains that tying code to an attribute runs no statement as long as no notify is tied to
an attribute that can still change. An attribute can change no more once a default has been assigned to
it, or code that reads nothing of the view has been tied to it.
-/

namespace ReactiveView

open Cascade Network

/-- The binding with other statements. -/
def Binding.recode (g : List Statement → List Statement) : Binding → Binding
  | .notify code statements => .notify code (g statements)
  | binding => binding

namespace Fence

variable {F F' : Fence} {x : Slot} {k : Nat} {store : Store} {net net' a b : Network}

/-! ### How fences move -/

/-- The attribute has been assigned. -/
def settle (F : Fence) (x : Slot) : Fence := { F with pending := fun y => F.pending y ∧ y ≠ x }

/-- The attribute is kept up to date by a bind, which may read nothing of the view. -/
def bind (F : Fence) (x : Slot) (k : Nat) (settles : Prop) : Fence :=
  { F with
    pending := fun y => F.pending y ∧ y ≠ x
    bound := fun j y => F.bound j y ∨ j = k ∧ y = x
    outer := fun j => j = k ∧ settles }

/-- A bind reads nothing of the view: it will not be evaluated again. -/
def unbind (F : Fence) (k : Nat) : Fence :=
  { F with
    bound := fun j y => F.bound j y ∧ j ≠ k
    outer := fun _ => False }

/-- The attribute has been delegated to another one. -/
def delegate (F : Fence) (x y : Slot) : Fence :=
  { F with
    root := fun z => if F.root z = x then F.root y else F.root z
    pending := fun z => F.pending z ∧ z ≠ x }

/-- What the fence is once an assignment has been made, which may settle the value of the attribute:
nothing else can change than before. -/
structure Next (F : Fence) (x : Slot) (settles : Prop) (F' : Fence) : Prop where
  sound : F'.Sound
  base : F'.base = F.base
  first : F'.first = F.first
  idle : ∀ k, ¬F'.outer k
  pending : ∀ y, F'.pending y ↔ F.pending y ∧ y ≠ x
  opened : ∀ y, F'.Open y → F.Open y
  settled : settles → ¬F'.Open x

theorem sound_settle (hF : F.Sound) (x : Slot) : (F.settle x).Sound where
  base y hy := hF.base y (hy.imp And.left id)
  pending y hy := hF.pending y hy.1
  bound := hF.bound
  apart k y hy := hF.apart k y hy.1

theorem next_settle (hF : F.Sound) (hidle : ∀ k, ¬F.outer k) (hx : F.pending x) (settles : Prop) :
    F.Next x settles (F.settle x) where
  sound := sound_settle hF x
  base := rfl
  first := rfl
  idle := hidle
  pending _ := Iff.rfl
  opened y hy := hy.imp And.left id
  settled _ hopen := by
    unfold Open at hopen
    rw [show (F.settle x).root x = x from hF.pending x hx] at hopen
    rcases hopen with ⟨-, hne⟩ | ⟨k, hk⟩
    · exact hne rfl
    · exact hF.apart k x hx hk

theorem Guards.settle (h : F.Guards store net) (x : Slot) : (F.settle x).Guards store net where
  handlers ob hob hopen := h.handlers ob hob (hopen.imp And.left id)
  inner := h.inner
  outer := h.outer
  numbered := h.numbered
  count := h.count
  kept := h.kept
  closed := h.closed

theorem sound_bind (hF : F.Sound) (hx : F.pending x) (k : Nat) (settles : Prop) :
    (F.bind x k settles).Sound where
  base y hy := by
    refine hF.base y ?_
    rcases hy with ⟨hy, -⟩ | ⟨j, hj | ⟨-, hroot⟩⟩
    · exact .inl hy
    · exact .inr ⟨j, hj⟩
    · exact .inl (hroot.symm ▸ hx)
  pending y hy := hF.pending y hy.1
  bound j y hy := by
    rcases hy with hy | ⟨-, rfl⟩
    · exact hF.bound j y hy
    · exact hF.pending y hx
  apart j y hy hbound := by
    rcases hbound with hbound | ⟨-, rfl⟩
    · exact hF.apart j y hy.1 hbound
    · exact hy.2 rfl

/-- The same can change as before. -/
theorem open_bind (hx : F.pending x) {settles : Prop} {y : Slot} :
    (F.bind x k settles).Open y → F.Open y := by
  rintro (⟨hy, -⟩ | ⟨j, hj | ⟨-, hroot⟩⟩)
  · exact .inl hy
  · exact .inr ⟨j, hj⟩
  · exact .inl (hroot.symm ▸ hx)

/-- A new bind, whose attribute was still to be assigned. -/
theorem Guards.bind (h : F.Guards store net) {e : Expr} {o : ObjectRef} {attr : String}
    {scope : Scope} (hx : F.pending (o.id, attr)) {settles : Prop}
    (hsettles : settles → F.Outside scope e) :
    (F.bind (o.id, attr) net.links.size settles).Guards store (net.bound e o attr scope) where
  handlers ob hob hopen := by
    have hadmits := h.handlers ob hob (open_bind hx hopen)
    revert hadmits
    cases ob.handler with
    | refresh k => exact fun ⟨y, hy⟩ => ⟨y, .inl hy⟩
    | _ => exact id
  inner k hk := by
    have hsize : (net.bound e o attr scope).links.size = net.links.size + 1 := Array.size_push _
    rw [hsize]
    obtain ⟨y, hy | ⟨rfl, -⟩⟩ := hk
    · obtain ⟨hfirst, hlt, hbody⟩ := h.inner k ⟨y, hy⟩
      refine ⟨hfirst, hlt.trans (Nat.lt_succ_self _), fun lk hlk => ?_⟩
      unfold Network.bound at hlk
      rw [link?_addLink, if_neg hlt.ne] at hlk
      obtain ⟨e', o', attr', scope', hlk, hbound, -⟩ := hbody lk hlk
      exact ⟨e', o', attr', scope', hlk, .inl hbound, fun houter => absurd houter.1 hlt.ne⟩
    · refine ⟨h.count, Nat.lt_succ_self _, fun lk hlk => ?_⟩
      unfold Network.bound at hlk
      rw [link?_addLink, if_pos rfl] at hlk
      cases hlk
      exact ⟨e, o, attr, scope, rfl, .inr ⟨rfl, rfl⟩, fun houter => hsettles houter.2⟩
  outer ob hob k hk houter := by
    obtain ⟨rfl, -⟩ := houter
    exact Nat.lt_of_not_le fun hle => (h.numbered ob hob hle _ hk).ne rfl
  numbered ob hob hbase k hk := (h.numbered ob hob hbase k hk).trans_le
    ((Nat.le_succ _).trans_eq (Array.size_push _).symm)
  count := h.count.trans ((Nat.le_succ _).trans_eq (Array.size_push _).symm)
  kept := h.kept
  closed := h.closed

theorem next_bind (hF : F.Sound) (hx : F.pending x) (k : Nat) {settles : Prop} (hnot : ¬settles) :
    F.Next x settles (F.bind x k settles) where
  sound := sound_bind hF hx k settles
  base := rfl
  first := rfl
  idle _ h := hnot h.2
  pending _ := Iff.rfl
  opened _ := open_bind hx
  settled h := absurd h hnot

theorem next_unbind (hF : F.Sound) (hx : F.pending x) (k : Nat) (settles : Prop) :
    F.Next x settles ((F.bind x k settles).unbind k) where
  sound :=
    have hbind := sound_bind hF hx k settles
    { base := fun y hy => hbind.base y (hy.imp id fun ⟨j, hj⟩ => ⟨j, hj.1⟩)
      pending := hbind.pending
      bound := fun j y hy => hbind.bound j y hy.1
      apart := fun j y hy hbound => hbind.apart j y hy hbound.1 }
  base := rfl
  first := rfl
  idle _ := id
  pending _ := Iff.rfl
  opened y hy := by
    have hopen : (F.bind x k settles).Open y := hy.imp id fun ⟨j, hj⟩ => ⟨j, hj.1⟩
    exact open_bind hx hopen
  settled _ hopen := by
    unfold Open at hopen
    rw [show ((F.bind x k settles).unbind k).root x = x from hF.pending x hx] at hopen
    rcases hopen with ⟨-, hne⟩ | ⟨j, hj | ⟨hj, -⟩, hne⟩
    · exact hne rfl
    · exact hF.apart j x hx hj
    · exact hne hj

/-- What reads nothing of the view observes nothing that can change. -/
theorem Guards.unbind (hF : F.Sound) (h : F.Guards store net) (hk : F.outer k) :
    (F.unbind k).Guards store net where
  handlers ob hob hopen := by
    have hopen' : F.Open (ob.object, ob.attr) := hopen.imp id fun ⟨j, hj⟩ => ⟨j, hj.1⟩
    have hadmits := h.handlers ob hob hopen'
    have hbase := hF.base _ hopen'
    have houter := h.outer ob hob
    revert hadmits houter
    cases ob.handler with
    | refresh j =>
      rintro ⟨y, hy⟩ houter
      refine ⟨y, hy, ?_⟩
      rintro rfl
      exact absurd hbase (Nat.not_le.2 (houter j rfl hk))
    | _ => exact fun hadmits _ => hadmits
  inner j hj := by
    obtain ⟨y, hy, hne⟩ := hj
    obtain ⟨hfirst, hlt, hbody⟩ := h.inner j ⟨y, hy⟩
    refine ⟨hfirst, hlt, fun lk hlk => ?_⟩
    obtain ⟨e, o, attr, scope, hlk, hbound, -⟩ := hbody lk hlk
    exact ⟨e, o, attr, scope, hlk, ⟨hbound, hne⟩, False.elim⟩
  outer _ _ _ _ := False.elim
  numbered := h.numbered
  count := h.count
  kept := h.kept
  closed := h.closed

/-- What could change before and starts at the attribute ends where it is delegated to. -/
theorem open_delegate (hx : F.pending x) {y z : Slot} (hopen : (F.delegate x y).Open z) :
    F.Open z := by
  unfold Open delegate at hopen
  dsimp only at hopen
  split at hopen
  · next hroot => exact .inl (hroot.symm ▸ hx)
  · exact hopen.imp And.left id

theorem next_delegate (hF : F.Sound) (hidle : ∀ k, ¬F.outer k) (hx : F.pending x) {y : Slot}
    {settles : Prop} (hsettles : settles → y.1 < F.base) :
    F.Next x settles (F.delegate x y) where
  sound :=
    { base := fun z hz => hF.base z (open_delegate hx hz)
      pending := fun z hz => by
        have hroot := hF.pending z hz.1
        unfold delegate
        dsimp only
        rw [if_neg (by rw [hroot]; exact hz.2), hroot]
      bound := fun j z hz => by
        have hroot := hF.bound j z hz
        unfold delegate
        dsimp only
        rw [if_neg, hroot]
        rintro hz'
        exact hF.apart j x hx (hz' ▸ hroot.symm ▸ hz)
      apart := fun j z hz => hF.apart j z hz.1 }
  base := rfl
  first := rfl
  idle := hidle
  pending _ := Iff.rfl
  opened _ := open_delegate hx
  settled h hopen := by
    unfold Open delegate at hopen
    dsimp only at hopen
    rw [if_pos (hF.pending x hx)] at hopen
    have hy : F.Open y := hopen.imp And.left id
    exact Nat.not_le.2 (hsettles h) (hF.base y hy)

/-- Both attributes of a delegate end where its source does. -/
theorem Guards.delegate (hF : F.Sound) (h : F.Guards store net) {o source : ObjectRef}
    {attr name : String} (hx : F.pending (o.id, attr)) :
    (F.delegate (o.id, attr) (source.id, name)).Guards store
      (net.delegated o attr source name) := by
  have hroot : F.root (o.id, attr) = (o.id, attr) := hF.pending _ hx
  have hsame : (F.delegate (o.id, attr) (source.id, name)).root (o.id, attr)
      = (F.delegate (o.id, attr) (source.id, name)).root (source.id, name) := by
    unfold Fence.delegate
    dsimp only
    rw [if_pos hroot]
    split <;> rfl
  have hmoved : (F.delegate (o.id, attr) (source.id, name)).Guards store net :=
    { handlers := fun ob hob hopen => by
        have hadmits := h.handlers ob hob (open_delegate hx hopen)
        revert hadmits
        unfold Fence.delegate
        cases ob.handler with
        | writeThrough o' attr' | writeBack o' attr' =>
          intro hadmits
          change ite _ _ _ = ite _ _ _
          rw [show F.root (o'.id, attr') = F.root (ob.object, ob.attr) from hadmits]
        | _ => exact id
      inner := h.inner
      outer := h.outer
      numbered := h.numbered
      count := h.count
      kept := h.kept
      closed := h.closed }
  have hthrough := hmoved.subscribe o.id attr (.writeThrough source name)
    (fun _ => hsame.symm) (fun _ hk => by cases hk)
    fun _ hk => by cases hk
  have hback := hthrough.subscribe source.id name (.writeBack o attr)
    (fun _ => hsame) (fun _ hk => by cases hk) fun _ hk => by cases hk
  exact hback.addLink _

theorem Guards.notified (h : F.Guards store net) {o : ObjectRef} {attr : String}
    (hx : ¬F.Open (o.id, attr)) (statements : List Statement) (scope : Scope) :
    F.Guards store (net.notified statements scope o attr) := by
  have hadded := h.addLink { body := .notify statements scope, owned := true }
  have hsub := hadded.subscribe o.id attr (.run net.links.size)
    (fun hopen => absurd hopen hx) (fun _ hk => by cases hk) fun _ hk => by cases hk
  exact hsub.fade (fades_modifyLink _ fun _ => rfl)

/-! ### Tying code -/

/-- Code after which an attribute changes no more: a default, or code that reads nothing of the view. -/
def Settles (F : Fence) (scope : Scope) : Binding → Prop
  | .default .. => True
  | .bind _ e => F.Outside scope e
  | .delegate _ e _ => F.Outside scope e
  | .notify .. => True

/-- Two networks that keep to what the fence is once code has been tied to an attribute. -/
def After (F : Fence) (store : Store) (x : Slot) (settles : Prop) (net net' : Network) : Prop :=
  ∃ F', F.Next x settles F' ∧ F'.Nets store net net'

variable {scope : Scope} {o : ObjectRef} {attr : String}

theorem Nets.after_settle (hF : F.Sound) (hidle : ∀ k, ¬F.outer k) (hx : F.pending x)
    (settles : Prop) (h : F.Nets store a b) : F.After store x settles a b :=
  ⟨_, next_settle hF hidle hx settles, h.guards.settle x, h.recoded⟩

/-- Once a bind is tied, its attribute either may be assigned again or is settled. -/
theorem Nets.after_bind (hF : F.Sound) (hx : F.pending x) {settles : Prop}
    (h : (F.bind x k settles).Nets store a b) : F.After store x settles a b := by
  by_cases hsettles : settles
  · exact ⟨_, next_unbind hF hx k settles,
      h.guards.unbind (sound_bind hF hx k settles) ⟨rfl, hsettles⟩, h.recoded⟩
  · exact ⟨_, next_bind hF hx k hsettles, h⟩

theorem agree_default (hF : F.Sound) (hidle : ∀ k, ¬F.outer k) (h : F.Nets store a b)
    (hx : F.pending (o.id, attr)) (n : Nat) (code : String) (e : Expr) (settles : Prop) :
    Agree (F.After store (o.id, attr) settles) Eq (connect (n + 1) (.default code e) o attr scope a)
      (connect (n + 1) (.default code e) o attr scope b) := by
  have hL := lawful hF store
  have hopen : F.Open (o.id, attr) := .inl ((hF.pending _ hx).symm ▸ hx)
  unfold connect
  refine Agree.bind (hL.evaluate h rfl e) fun r r' a' b' hr h' => ?_
  obtain ⟨r, _⟩ := r
  obtain ⟨r', _⟩ := r'
  cases hr with
  | error e => exact agree_pure rfl (h'.after_settle hF hidle hx settles)
  | ok hv =>
    refine ((hL.agreeing n).assign h' ⟨rfl, hopen⟩ hv).bind fun r _ a' b' hr h' => ?_
    subst hr
    cases r with
    | ok _ => exact agree_pure rfl (h'.after_settle hF hidle hx settles)
    | error e => exact agree_pure rfl (h'.after_settle hF hidle hx settles)

theorem agree_bind (hF : F.Sound) (h : F.Nets store a b) (hx : F.pending (o.id, attr)) (n : Nat)
    (code : String) (e : Expr) {settles : Prop} (hsettles : settles → F.Outside scope e) :
    Agree (F.After store (o.id, attr) settles) Eq (connect (n + 1) (.bind code e) o attr scope a)
      (connect (n + 1) (.bind code e) o attr scope b) := by
  have hL := lawful (sound_bind hF hx a.links.size settles) store
  have hbound : (F.bind (o.id, attr) a.links.size settles).Nets store (a.bound e o attr scope)
      (b.bound e o attr scope) :=
    ⟨h.guards.bind hx hsettles, h.recoded.addLink h.guards.count (.refl _)⟩
  have hlink : ((F.bind (o.id, attr) a.links.size settles).likeness store).links a.links.size
      b.links.size :=
    ⟨h.recoded.size.symm, _, .inr ⟨rfl, rfl⟩⟩
  unfold connect
  refine agree_get_bind (agree_set_bind ?_)
  refine ((hL.agreeing n).refresh hbound hlink).bind fun r _ a' b' hr h' => ?_
  subst hr
  cases r with
  | error e => exact agree_modify_bind (agree_pure rfl ((hL.leave h' hlink).after_bind hF hx))
  | ok _ =>
    refine agree_modify_bind (agree_pure (congrArg _ (congrArg _ h.recoded.size.symm)) ?_)
    have hown : (F.bind (o.id, attr) a.links.size settles).Nets store (a'.ownLink a.links.size)
        (b'.ownLink a.links.size) :=
      h'.fade (fades_modifyLink _ fun _ => rfl) (h'.recoded.ownLink _)
    rw [h.recoded.size]
    exact (hL.leave hown ⟨rfl, hlink.2⟩).after_bind hF hx

theorem agree_delegate (hF : F.Sound) (hidle : ∀ k, ¬F.outer k) (h : F.Nets store a b)
    (hx : F.pending (o.id, attr)) (n : Nat) (code : String) (e : Expr) (name : String)
    {settles : Prop} (hsettles : settles → F.Outside scope e) :
    Agree (F.After store (o.id, attr) settles) Eq
      (connect (n + 1) (.delegate code e name) o attr scope a)
      (connect (n + 1) (.delegate code e name) o attr scope b) := by
  have hL := lawful hF store
  have hopen : F.Open (o.id, attr) := .inl ((hF.pending _ hx).symm ▸ hx)
  have hafter {a b : Network} (h : F.Nets store a b) : F.After store (o.id, attr) settles a b :=
    h.after_settle hF hidle hx settles
  have hevaluated := hL.evaluated e h (rfl : scope = scope)
  unfold connect
  refine agree_evaluate_bind ?_
  rw [h.recoded.outcome]
  have hsource : ∀ source, (a.outcome scope e).1 = .ok (.object source) → settles →
      source.id < F.base := fun source hsource hs => h.guards.references (hsettles hs) hsource
  generalize (a.outcome scope e).1 = r at hsource
  dsimp only
  cases r with
  | error e => exact agree_pure rfl (hafter hevaluated)
  | ok v =>
    cases v with
    | object source =>
      refine agree_get_bind ?_
      rw [hevaluated.recoded.store]
      cases (a.evaluated scope e).store.get? source name with
      | none => exact agree_pure rfl (hafter hevaluated)
      | some initial =>
        have hheld := hL.hold hevaluated (List.forall₂_same.2 fun _ _ => rfl :
          List.Forall₂ Eq [source.id] [source.id])
        refine agree_holding (R := F.After store (o.id, attr) settles) ?_ ?_
        · refine ((hL.agreeing n).assign hheld ⟨rfl, hopen⟩ rfl).bind fun r _ a' b' hr h' => ?_
          subst hr
          cases r with
          | error e => exact agree_pure rfl (hafter h')
          | ok _ =>
            refine agree_get_bind (agree_set_bind ?_)
            refine agree_pure (congrArg _ (congrArg _ h'.recoded.size.symm)) ?_
            exact ⟨_, next_delegate hF hidle hx (hsource source rfl), h'.guards.delegate hF hx,
              h'.recoded.delegated h'.guards.count o attr source name⟩
        · rintro a' b' ⟨F', hnext, hnets⟩
          refine ⟨F', hnext, ?_⟩
          rw [hevaluated.recoded.busy]
          exact hnets.fade (fades_letGo _) (hnets.recoded.letGo _)
    | _ => exact agree_pure rfl (hafter hevaluated)

/-- A notify may be tied to an attribute that can change no more. -/
theorem agree_notify (hF : F.Sound) (hidle : ∀ k, ¬F.outer k) (h : F.Nets store a b)
    (hx : ¬F.Open (o.id, attr)) (n : Nat) (code : String) (statements statements' : List Statement) :
    Agree (F.After store (o.id, attr) True) Eq
      (connect (n + 1) (.notify code statements) o attr scope a)
      (connect (n + 1) (.notify code statements') o attr scope b) := by
  have hpending : ¬F.pending (o.id, attr) := fun hp => hx (.inl ((hF.pending _ hp).symm ▸ hp))
  unfold connect
  refine agree_get_bind (agree_set_bind ?_)
  refine agree_pure (congrArg _ (congrArg _ h.recoded.size.symm)) ⟨F, ?_, ?_⟩
  · refine ⟨hF, rfl, rfl, hidle, fun y => ⟨fun hy => ⟨hy, ?_⟩, And.left⟩, fun _ => id, fun _ => hx⟩
    rintro rfl
    exact hpending hy
  · exact ⟨h.guards.notified hx statements scope,
      h.recoded.notified h.guards.count statements statements' scope o attr⟩

/-- Tying code runs no statement: with other statements the same happens. -/
theorem agree_connect (hF : F.Sound) (hidle : ∀ k, ¬F.outer k) (h : F.Nets store a b) (n : Nat)
    {binding : Binding} (hassign : binding.kind ≠ .notify → F.pending (o.id, attr))
    (hnotify : binding.kind = .notify → ¬F.Open (o.id, attr)) (g : List Statement → List Statement) :
    Agree (F.After store (o.id, attr) (F.Settles scope binding)) Eq
      (connect n binding o attr scope a) (connect n (binding.recode g) o attr scope b) := by
  cases n with
  | zero => exact .none
  | succ n =>
    cases binding with
    | default code e =>
      exact agree_default hF hidle h (hassign fun h => by cases h) n code e _
    | bind code e => exact agree_bind hF h (hassign fun h => by cases h) n code e id
    | delegate code e name =>
      exact agree_delegate hF hidle h (hassign fun h => by cases h) n code e name id
    | notify code statements => exact agree_notify hF hidle h (hnotify rfl) n code statements _

end Fence

end ReactiveView
